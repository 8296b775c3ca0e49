import MarketDag.Dag.Metadata
import MarketDag.Proofs.Address.Sha256
import MarketDag.Proofs.Dag.Documents
import MarketDag.Proofs.Dag.Registry
import MarketDag.Proofs.Dag.Slots

/-!
# Metadata as blocks

Metadata are assembled into the blocks of their documents and the block of a root that links to
them (`Metadata.assemble_eq_ok`).  Each of these blocks is read back.
-/

namespace MarketDag

theorem Root.normal_eq (r : Root) : Shaped.normal r = r :=
  Shaped.normal_of_decimalFree (by decide) r

/-! ## Equality -/

namespace Metadata

/-- Have two metadata the same document in every slot? -/
def Same (m n : Metadata) : Prop := ∀ f, (m.get f).1.Same (n.get f).1

/-- The metadata with their decimals in canonical form. -/
def normal (m : Metadata) : Metadata := m.map fun _ d => ⟨d.1.normal, d.2⟩

theorem get_normal (m : Metadata) (f : Family) : (m.normal.get f).1 = (m.get f).1.normal := by
  rw [normal, Slots.get_map]

theorem kind_normal (m : Metadata) (f : Family) :
    (m.normal.get f).1.kind = (m.get f).1.kind := by
  rw [get_normal]
  rfl

theorem normal_same (m : Metadata) : m.normal.Same m := by
  intro f
  rw [get_normal]
  exact Document.same_normal _

/-- Metadata are valid when all their documents are. -/
theorem validate_eq_ok {m : Metadata} :
    m.validate = .ok () ↔ ∀ f, (m.get f).1.validate = .ok () := by
  simp only [validate, mapError_eq_ok, Document.validate, firstViolation_eq_ok, violations,
    List.append_eq_nil_iff]
  constructor
  · rintro ⟨⟨⟨hspace, hpoint⟩, hconfig⟩, hfallback⟩ f
    cases f <;> assumption
  · intro h
    exact ⟨⟨⟨h .outcomeSpace, h .outcomePoint⟩, h .oracleConfig⟩, h .oracleFallback⟩

/-! ## Assembly -/

theorem link_eq_ok {registry : Registry} {d : Document} {l : ComponentLink} {b : Block} :
    link registry d = .ok (l, b) ↔
      d.kind ∈ registry.kinds ∧ d.encode = .ok b ∧ l = ⟨b.cid, d.kind.schema⟩ := by
  unfold link
  cases h : registry.schema? d.kind with
  | none =>
    have hnone : d.kind ∉ registry.kinds := Registry.schema?_eq_none.mp h
    simp [hnone, throw, throwThe, MonadExceptOf.throw]
  | some schema =>
    obtain ⟨hmem, rfl⟩ := Registry.schema?_eq_some.mp h
    simp only [bind_eq_ok, pure_eq_ok, Prod.mk.injEq]
    constructor
    · rintro ⟨b', hb, rfl, rfl⟩
      exact ⟨hmem, hb, rfl⟩
    · rintro ⟨-, hb, rfl⟩
      exact ⟨b, hb, rfl, rfl⟩

/-- The root of metadata whose documents have these blocks. -/
def rootOf (m : Metadata) (parts : Slots fun _ => Block) : Root :=
  .ofFn fun f => ⟨(parts.get f).cid, (m.get f).1.kind.schema⟩

/-- Are these the blocks of metadata: that of the root and those of the documents? -/
structure Assembled (registry : Registry) (m : Metadata) (top : Block)
    (parts : Slots fun _ => Block) : Prop where
  top_encode : Block.encode (m.rootOf parts) = .ok top
  kind_mem : ∀ f, (m.get f).1.kind ∈ registry.kinds
  part_encode : ∀ f, (m.get f).1.encode = .ok (parts.get f)

/-- Metadata are assembled into the block of their root and the blocks of their documents. -/
theorem assemble_eq_ok {registry : Registry} {m : Metadata} {bs : List Block} :
    m.assemble registry = .ok bs ↔
      ∃ top parts, bs = top :: parts.toList ∧ m.Assembled registry top parts := by
  constructor
  · intro h
    obtain ⟨links, hlinks, h⟩ := bind_eq_ok.mp h
    obtain ⟨top, htop, h⟩ := bind_eq_ok.mp h
    cases h
    have hlink : ∀ f, (m.get f).1.kind ∈ registry.kinds ∧
        (m.get f).1.encode = .ok (links.get f).2 ∧
        (links.get f).1 = ⟨(links.get f).2.cid, (m.get f).1.kind.schema⟩ :=
      fun f => link_eq_ok.mp (Slots.mapM_eq_ok.mp hlinks f)
    -- the links are those that the blocks of the documents have
    have hroot : m.rootOf (links.map fun _ l => l.2) = links.map fun _ l => l.1 := by
      apply Slots.ext_get
      intro f
      rw [rootOf, Slots.get_ofFn, Slots.get_map, Slots.get_map, (hlink f).2.2]
    refine ⟨top, links.map fun _ l => l.2, rfl, hroot ▸ htop, fun f => (hlink f).1, fun f => ?_⟩
    rw [Slots.get_map]
    exact (hlink f).2.1
  · rintro ⟨top, parts, rfl, h⟩
    let links : Slots fun _ => ComponentLink × Block :=
      .ofFn fun f => (⟨(parts.get f).cid, (m.get f).1.kind.schema⟩, parts.get f)
    have hlinks : m.mapM (fun _ d => link registry d.1) = .ok links := by
      refine Slots.mapM_eq_ok.mpr fun f => ?_
      rw [Slots.get_ofFn]
      exact link_eq_ok.mpr ⟨h.kind_mem f, h.part_encode f, rfl⟩
    exact bind_eq_ok.mpr ⟨links, hlinks, bind_eq_ok.mpr ⟨top, h.top_encode, rfl⟩⟩

namespace Assembled

theorem part_mem (top : Block) (parts : Slots fun _ => Block) (f : Family) :
    parts.get f ∈ top :: parts.toList :=
  List.mem_cons_of_mem _ (Slots.mem_toList.mpr ⟨f, rfl⟩)

variable {registry : Registry} {m : Metadata} {top : Block} {parts : Slots fun _ => Block}

theorem cid_eq (h : m.Assembled registry top parts) :
    ∀ b ∈ top :: parts.toList, b.cid = .ofData Cid.dagCbor b.data := by
  intro b hb
  rcases List.mem_cons.mp hb with rfl | hb
  · exact Block.cid_of_encode h.top_encode
  · obtain ⟨f, rfl⟩ := Slots.mem_toList.mp hb
    exact Block.cid_of_encode (h.part_encode f)

/-- All blocks belong to their identifiers. -/
theorem verify (h : m.Assembled registry top parts) :
    ∀ b ∈ top :: parts.toList, b.cid.verify b.data = .ok () := by
  intro b hb
  rw [Cid.verify_eq_ok, h.cid_eq b hb, Cid.hash_ofData]

end Assembled

/-- Are these the blocks of valid metadata under an identifier, none of them too long to be read? -/
structure Published (registry : Registry) (m : Metadata) (cid : Cid) (top : Block)
    (parts : Slots fun _ => Block) : Prop where
  valid : m.validate = .ok ()
  assembled : m.Assembled registry top parts
  top_cid : top.cid = cid
  addressable : ∀ b ∈ top :: parts.toList, b.Addressable

/-! ## A sample -/

/-- Metadata without details, whose fallback is a given number. -/
def sample (fsp : Decimal) : Metadata where
  outcomeSpace := ⟨⟨.outcomeSpace, ⟨"b", "d", ⟨"c", "r"⟩, []⟩⟩, rfl⟩
  outcomePoint := ⟨⟨.outcomePoint, ⟨"b"⟩⟩, rfl⟩
  oracleConfig := ⟨⟨.oracleConfig, ⟨"o", none⟩⟩, rfl⟩
  oracleFallback :=
    ⟨⟨.oracleFallback, ⟨⟨⟨2025, 1, 1, by decide⟩, 0, 0, by decide, by decide⟩, fsp⟩⟩, rfl⟩

theorem validate_sample (fsp : Decimal) : (sample fsp).validate = .ok () := rfl

/-- The data of a document's block, if it can be written. -/
def partData (m : Metadata) (f : Family) : List UInt8 :=
  ((m.get f).1.encode.toOption.map Block.data).getD []

/-- The root of metadata, with digests that are computed over numbers. -/
def numberedRoot (m : Metadata) : Root :=
  .ofFn fun f => ⟨.numberedOfData Cid.dagCbor (m.partData f), (m.get f).1.kind.schema⟩

section

variable {m : Metadata} {parts : Slots fun _ => Block}

theorem partData_eq (h : ∀ f, (m.get f).1.encode = .ok (parts.get f)) (f : Family) :
    m.partData f = (parts.get f).data := by
  rw [partData, h f]
  rfl

theorem numberedRoot_eq (h : ∀ f, (m.get f).1.encode = .ok (parts.get f)) :
    m.numberedRoot = m.rootOf parts := by
  apply Slots.ext_get
  intro f
  rw [numberedRoot, rootOf, Slots.get_ofFn, Slots.get_ofFn, partData_eq h f,
    ← Cid.ofData_eq_numberedOfData, Block.cid_of_encode (h f)]

theorem datas_eq (h : ∀ f, (m.get f).1.encode = .ok (parts.get f)) (top : Block) :
    (top :: parts.toList).map Block.data = top.data :: Family.all.map m.partData := by
  simp only [List.map_congr_left fun f _ => partData_eq h f]
  rfl

end

theorem exists_parts_sample :
    ∃ parts : Slots fun _ => Block, ∀ f, ((sample .one).get f).1.encode = .ok (parts.get f) := by
  have hencode : ∀ f, ∃ b, ((sample .one).get f).1.encode = .ok b := by
    intro f
    have hsome : (((sample .one).get f).1.encode).toOption.isSome = true := by
      cases f <;> decide +kernel
    cases hb : ((sample .one).get f).1.encode with
    | ok b => exact ⟨b, rfl⟩
    | error e =>
      rw [hb] at hsome
      cases hsome
  choose b hb using hencode
  refine ⟨.ofFn b, fun f => ?_⟩
  rw [Slots.get_ofFn]
  exact hb f

/-- The blocks of the sample are short, and no two of them have one digest. -/
theorem sample_published : ∃ top parts, (sample .one).Published .full top.cid top parts ∧
    (∀ b ∈ top :: parts.toList, b.data.length ≤ 1000) ∧
      CollisionFree ((top :: parts.toList).map Block.data) := by
  -- the bytes are compared by the numbers of their digests, which can be computed
  have hdatas : (Block.encode (sample .one).numberedRoot).toOption.any (fun top =>
      let datas := top.data :: Family.all.map (sample .one).partData
      (∀ d ∈ datas, d.length ≤ 1000) ∧ (datas.map Sha256.digestNat).Nodup) = true := by
    decide +kernel
  obtain ⟨parts, hparts⟩ := exists_parts_sample
  rw [numberedRoot_eq hparts] at hdatas
  cases htop : Block.encode ((sample .one).rootOf parts) with
  | error e =>
    rw [htop] at hdatas
    cases hdatas
  | ok top =>
    have h : (sample .one).Assembled .full top parts :=
      ⟨htop, fun f => Registry.kinds_full ▸ Kind.mem_all _, hparts⟩
    rw [htop] at hdatas
    obtain ⟨hshort, hnodup⟩ := of_decide_eq_true hdatas
    rw [← datas_eq hparts, List.forall_mem_map] at hshort
    rw [← datas_eq hparts, ← funext Sha256.digest_eq] at hnodup
    have hsize : ∀ b ∈ top :: parts.toList, b.Addressable := by
      intro b hb
      exact Nat.lt_of_le_of_lt (hshort b hb) (by decide)
    exact ⟨top, parts, ⟨validate_sample _, h, rfl, hsize⟩, hshort, .of_nodup hnodup⟩

end Metadata

end MarketDag
