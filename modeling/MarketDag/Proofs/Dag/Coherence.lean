import MarketDag.Proofs.Client.Stages
import MarketDag.Proofs.Dag.Root

/-!
# Assembled metadata are coherent

Metadata are assembled when the kinds of all documents are registered and the time of the fallback
has a canonical form; else the first document that is not so is at fault
(`Metadata.assemble_eq_error`).  What is assembled agrees with itself: the root block is read as a
root whose links name the other blocks and the schemas of their kinds, and these links are resolved
to the same identifiers and kinds (`Metadata.assemble_coherent`).
-/

namespace MarketDag

/-! ## Slots that fail -/

theorem Slots.mapM_error_of_first {ε : Type} {α β : Family → Type}
    {g : (f : Family) → α f → Except ε (β f)} {s : Slots α} {f : Family} {e : ε}
    (hbefore : ∀ f' ∈ f.before, ∃ b, g f' (s.get f') = .ok b) (hf : g f (s.get f) = .error e) :
    s.mapM g = .error e := by
  choose b hb using hbefore
  unfold mapM
  -- the slots are gone through in their order, so those before the slot have to go well
  cases f with
  | outcomeSpace => exact bind_of_error hf
  | outcomePoint =>
    refine (bind_of_ok (hb .outcomeSpace (by decide))).trans ?_
    exact bind_of_error hf
  | oracleConfig =>
    refine (bind_of_ok (hb .outcomeSpace (by decide))).trans ?_
    refine (bind_of_ok (hb .outcomePoint (by decide))).trans ?_
    exact bind_of_error hf
  | oracleFallback =>
    refine (bind_of_ok (hb .outcomeSpace (by decide))).trans ?_
    refine (bind_of_ok (hb .outcomePoint (by decide))).trans ?_
    refine (bind_of_ok (hb .oracleConfig (by decide))).trans ?_
    exact bind_of_error hf

/-- What is done slot by slot fails as the first slot does that fails. -/
theorem Slots.mapM_eq_error {ε : Type} {α β : Family → Type}
    {g : (f : Family) → α f → Except ε (β f)} {s : Slots α} {e : ε} :
    s.mapM g = .error e ↔ ∃ f : Family, (∀ f' ∈ f.before, ∃ b, g f' (s.get f') = .ok b) ∧
      g f (s.get f) = .error e := by
  refine ⟨fun h => ?_, fun ⟨f, hbefore, hf⟩ => mapM_error_of_first hbefore hf⟩
  rcases Family.first_or_forall fun f => ∃ b, g f (s.get f) = .ok b with ⟨f, hbefore, hf⟩ | hall
  · cases hresult : g f (s.get f) with
    | ok b => exact absurd ⟨b, hresult⟩ hf
    | error e' =>
      rw [mapM_error_of_first hbefore hresult] at h
      cases h
      exact ⟨f, hbefore, hresult⟩
  · choose b hb using hall
    have hok : s.mapM g = .ok (.ofFn b) := mapM_eq_ok.mpr fun f => (get_ofFn b f).symm ▸ hb f
    rw [hok] at h
    cases h

/-! ## Documents with a block -/

namespace Document

/-- The fallback that a document of this family is. -/
def fallback? : Document → Option Fallback
  | ⟨.oracleFallback, f⟩ => some f
  | _ => none

theorem exists_fallback {d : Document} (h : d.family = .oracleFallback) :
    ∃ f : Fallback, d = ⟨.oracleFallback, f⟩ := by
  obtain ⟨k, body⟩ := d
  cases k with
  | oracleFallback => exact ⟨body, rfl⟩
  | _ => cases h

theorem isSome_fallback? {d : Document} (h : d.family = .oracleFallback) :
    d.fallback?.isSome = true := by
  obtain ⟨f, rfl⟩ := exists_fallback h
  rfl

/-- A document has a block when it has a tree. -/
theorem exists_encode_iff (d : Document) : (∃ b, d.encode = .ok b) ↔ ∃ t, d.layout = .ok t :=
  Block.exists_encode_iff d.body

theorem exists_encode_of_family {d : Document} (h : d.family ≠ .oracleFallback) :
    ∃ b, d.encode = .ok b := by
  have hfree : ∀ k : Kind, k.family ≠ .oracleFallback →
      (Shaped.shape k.Body).instantFree = true := by
    intro k hk
    cases k <;> first | decide | exact absurd rfl hk
  exact Block.exists_encode (hfree d.kind h) d.body

/-- A fallback whose time has no canonical form has no block. -/
theorem encode_fallback_error {f : Fallback} (h : ¬ f.time.HasCanonical) :
    encode ⟨.oracleFallback, f⟩ = .error (.noLayout (.noCanonicalForm f.time)) := by
  have hnone : f.time.canonical? = none := if_neg h
  have htime : Leaf.layout .instant f.time = .error (.noCanonicalForm f.time) := by
    rw [Leaf.layout, hnone]
  have hlayout : MarketDag.layout f = .error (.noCanonicalForm f.time) :=
    map_eq_error.mpr (bind_of_error htime)
  have hcanonical : Block.canonical f = .error (.noLayout (.noCanonicalForm f.time)) := by
    rw [Block.canonical, hlayout]
  exact bind_of_error hcanonical

theorem exists_encode_fallback_iff {f : Fallback} :
    (∃ b, encode ⟨.oracleFallback, f⟩ = .ok b) ↔ f.time.HasCanonical := by
  constructor
  · rintro ⟨b, hb⟩
    by_contra h
    rw [encode_fallback_error h] at hb
    cases hb
  · intro h
    obtain ⟨s, hsome⟩ : ∃ s, f.time.canonical? = some s := ⟨_, if_pos h⟩
    have htime : Leaf.layout .instant f.time = .ok (.text s) := by
      rw [Leaf.layout, hsome]
    have hlayout : ∃ t, MarketDag.layout f = .ok t :=
      ⟨_, map_eq_ok.mpr ⟨_, bind_eq_ok.mpr ⟨_, htime, rfl⟩, rfl⟩⟩
    exact (exists_encode_iff ⟨.oracleFallback, f⟩).mpr hlayout

end Document

namespace Metadata

/-- The fallback of the metadata. -/
def fallback (m : Metadata) : Fallback :=
  m.oracleFallback.1.fallback?.get (Document.isSome_fallback? m.oracleFallback.2)

theorem oracleFallback_eq (m : Metadata) : m.oracleFallback.1 = ⟨.oracleFallback, m.fallback⟩ := by
  obtain ⟨f, hf⟩ := Document.exists_fallback m.oracleFallback.2
  have hfallback : m.oracleFallback.1.fallback? = some f := by rw [hf]; rfl
  rw [hf, fallback, Option.get_of_eq_some _ hfallback]

/-- Has the document of a slot a block? -/
def Encodable (m : Metadata) (f : Family) : Prop := ∃ b, (m.get f).1.encode = .ok b

/-- Only a fallback may have no block. -/
theorem encodable_iff (m : Metadata) (f : Family) :
    m.Encodable f ↔ (f = .oracleFallback → m.fallback.time.HasCanonical) := by
  by_cases hf : f = .oracleFallback
  · subst hf
    have hget : (m.get .oracleFallback).1 = ⟨.oracleFallback, m.fallback⟩ := m.oracleFallback_eq
    rw [Encodable, hget, Document.exists_encode_fallback_iff, forall_prop_of_true rfl]
  · have hfamily : (m.get f).1.family ≠ .oracleFallback := (m.get f).2.trans_ne hf
    exact iff_of_true (Document.exists_encode_of_family hfamily) fun h => absurd h hf

theorem encode_eq_error {m : Metadata} {f : Family} {e : Error}
    (h : (m.get f).1.encode = .error e) :
    f = .oracleFallback ∧ ¬ m.fallback.time.HasCanonical ∧
      e = .noLayout (.noCanonicalForm m.fallback.time) := by
  have hnot : ¬ m.Encodable f := by
    rintro ⟨b, hb⟩
    rw [hb] at h
    cases h
  rw [encodable_iff, Classical.not_imp] at hnot
  obtain ⟨rfl, htime⟩ := hnot
  have hget : (m.get .oracleFallback).1 = ⟨.oracleFallback, m.fallback⟩ := m.oracleFallback_eq
  rw [hget, Document.encode_fallback_error htime] at h
  exact ⟨rfl, htime, (Except.error.inj h).symm⟩

/-! ## Assembly -/

theorem exists_link_iff {registry : Registry} {d : Document} :
    (∃ l, link registry d = .ok l) ↔ d.kind ∈ registry.kinds ∧ ∃ b, d.encode = .ok b := by
  constructor
  · rintro ⟨⟨l, b⟩, h⟩
    obtain ⟨hmem, hb, -⟩ := link_eq_ok.mp h
    exact ⟨hmem, b, hb⟩
  · rintro ⟨hmem, b, hb⟩
    exact ⟨_, link_eq_ok.mpr ⟨hmem, hb, rfl⟩⟩

theorem link_eq_error {registry : Registry} {d : Document} {e : Error} :
    link registry d = .error e ↔
      (d.kind ∉ registry.kinds ∧ e = .misconfigured (.unregistered d.kind)) ∨
        (d.kind ∈ registry.kinds ∧ d.encode = .error e) := by
  unfold link
  split
  · rename_i hnone
    have hmem : d.kind ∉ registry.kinds := Registry.schema?_eq_none.mp hnone
    simp [hmem, throw, throwThe, MonadExceptOf.throw, eq_comm]
  · rename_i hsome
    have hmem : d.kind ∈ registry.kinds := (Registry.schema?_eq_some.mp hsome).1
    simp [hmem, bind_eq_error, pure, Except.pure]

/-- Metadata are assembled when the kinds of all documents are registered and all of them have a
block. -/
theorem exists_assemble_iff {registry : Registry} {m : Metadata} :
    (∃ bs, m.assemble registry = .ok bs) ↔
      ∀ f, (m.get f).1.kind ∈ registry.kinds ∧ m.Encodable f := by
  constructor
  · rintro ⟨bs, h⟩ f
    obtain ⟨top, parts, -, hassembled⟩ := assemble_eq_ok.mp h
    exact ⟨hassembled.kind_mem f, _, hassembled.part_encode f⟩
  · intro h
    choose hmem b hb using h
    obtain ⟨top, htop⟩ := Root.exists_encode (m.rootOf (.ofFn b))
    refine ⟨_, assemble_eq_ok.mpr ⟨top, .ofFn b, rfl, htop, hmem, fun f => ?_⟩⟩
    rw [Slots.get_ofFn]
    exact hb f

/-- Assembly fails at the first document whose kind is not registered or that has no block. -/
theorem assemble_eq_error {registry : Registry} {m : Metadata} {e : Error} :
    m.assemble registry = .error e ↔
      ∃ f : Family, (∀ g ∈ f.before, (m.get g).1.kind ∈ registry.kinds ∧ m.Encodable g) ∧
        link registry (m.get f).1 = .error e := by
  have hlinks := Slots.mapM_eq_error (g := fun _ (d : DocumentIn _) => link registry d.1) (s := m)
    (e := e)
  simp only [exists_link_iff] at hlinks
  refine Iff.trans ⟨fun h => ?_, bind_of_error⟩ hlinks
  rcases bind_eq_error.mp h with h | ⟨links, -, h⟩
  · exact h
  · obtain ⟨top, htop⟩ := Root.exists_encode (links.map fun _ l => l.1)
    rw [bind_of_ok htop] at h
    cases h

/-! ## Coherence -/

/-- The links of a root whose documents are these, once they are resolved. -/
def linksOf (m : Metadata) (parts : Slots fun _ => Block) : Slots ResolvedLink :=
  .ofFn fun f => ⟨(parts.get f).cid, (m.get f).1.kind, (m.get f).2⟩

/-- The root of what is assembled is resolved to the documents and their kinds. -/
theorem Assembled.resolve {registry : Registry} {m : Metadata} {top : Block}
    {parts : Slots fun _ => Block} (h : m.Assembled registry top parts) :
    (m.rootOf parts).resolve registry = .ok (m.linksOf parts) := by
  refine Slots.mapM_eq_ok.mpr fun f => ?_
  have hschema := Registry.resolve_eq_ok.mpr ⟨h.kind_mem f, rfl⟩
  have hcodec : (parts.get f).cid.ensureSupported = .ok () :=
    Cid.ensureSupported_eq_ok.mpr (.inl (Block.codec_of_encode (h.part_encode f)))
  have hfamily : (m.get f).1.kind.family = f := (m.get f).2
  rw [rootOf, linksOf, Slots.get_ofFn, Slots.get_ofFn]
  refine (bind_of_ok hschema).trans ?_
  rw [dif_pos hfamily]
  exact bind_of_ok hcodec

/-- What is assembled by way of a registry of some kinds agrees with itself: there is something
exactly when these are the kinds of all documents and the time of the fallback has a canonical form;
the blocks are those of the root and of the documents in their order, each under its identifier; the
root is read from the first one, and links to the others with the schemas of their kinds, which the
registry resolves to these kinds.  Else the first document that is not so is at fault. -/
theorem assemble_coherent {ks : List Kind} {registry : Registry}
    (h : Registry.ofKinds ks = .ok registry) (m : Metadata) :
    ((∃ bs, m.assemble registry = .ok bs) ↔
      (∀ f, (m.get f).1.kind ∈ ks) ∧ m.fallback.time.HasCanonical) ∧
    (∀ bs, m.assemble registry = .ok bs → ∃ (top : Block) (parts : Slots fun _ => Block),
      bs = top :: parts.toList ∧ (∀ b ∈ bs, b.cid.verify b.data = .ok ()) ∧
      ∃ (root : Root) (links : Slots ResolvedLink),
        Block.decode Root top.cid top.data = .ok root ∧ root.resolve registry = .ok links ∧
        ∀ f, root.get f = ⟨(parts.get f).cid, (m.get f).1.kind.schema⟩ ∧
          (links.get f).data = (parts.get f).cid ∧ (links.get f).kind = (m.get f).1.kind) ∧
    ∀ e, m.assemble registry = .error e → ∃ f : Family,
      (∀ g ∈ f.before, (m.get g).1.kind ∈ ks ∧ ∃ b, (m.get g).1.encode = .ok b) ∧
      (((m.get f).1.kind ∉ ks ∧ e = .misconfigured (.unregistered (m.get f).1.kind) ∧
          e.kind = .configuration) ∨
        ((m.get f).1.kind ∈ ks ∧ (m.get f).1.encode = .error e ∧ f = .oracleFallback ∧
          ¬ m.fallback.time.HasCanonical ∧ e.kind = .internal)) := by
  have hkinds := Registry.kinds_ofKinds h
  refine ⟨?_, fun bs hbs => ?_, fun e he => ?_⟩
  · rw [exists_assemble_iff, hkinds]
    simp only [encodable_iff]
    exact ⟨fun h => ⟨fun f => (h f).1, (h .oracleFallback).2 rfl⟩,
      fun h f => ⟨h.1 f, fun _ => h.2⟩⟩
  · obtain ⟨top, parts, rfl, hassembled⟩ := assemble_eq_ok.mp hbs
    refine ⟨top, parts, rfl, hassembled.verify, m.rootOf parts, m.linksOf parts,
      Root.decode_encode hassembled.top_encode, hassembled.resolve, fun f => ?_⟩
    rw [rootOf, linksOf, Slots.get_ofFn, Slots.get_ofFn]
    exact ⟨rfl, rfl, rfl⟩
  · obtain ⟨f, hbefore, hlink⟩ := assemble_eq_error.mp he
    rw [hkinds] at hbefore
    refine ⟨f, hbefore, ?_⟩
    rcases link_eq_error.mp hlink with ⟨hmem, rfl⟩ | ⟨hmem, hencode⟩
    · exact .inl ⟨hkinds ▸ hmem, rfl, rfl⟩
    · -- of all documents only a fallback may have no block, for its time
      obtain ⟨hf, htime, rfl⟩ := encode_eq_error hencode
      exact .inr ⟨hkinds ▸ hmem, hencode, hf, htime, rfl⟩

/-- The sample is assembled with a registry of no more than its kinds, in any order. -/
theorem assemble_coherent_sample : ∃ registry bs,
    Registry.ofKinds [.oracleFallback, .oracleConfig, .outcomePoint, .outcomeSpace] =
      .ok registry ∧ (sample .one).assemble registry = .ok bs ∧ bs.length = 5 := by
  obtain ⟨registry, h⟩ := Registry.exists_ofKinds_iff.mpr (by decide :
    [Kind.oracleFallback, .oracleConfig, .outcomePoint, .outcomeSpace].Nodup)
  obtain ⟨hiff, hcoherent, -⟩ := assemble_coherent h (sample .one)
  obtain ⟨bs, hbs⟩ := hiff.mpr ⟨by intro f; cases f <;> decide, by decide⟩
  obtain ⟨top, parts, rfl, -⟩ := hcoherent bs hbs
  exact ⟨_, _, h, hbs, rfl⟩

end Metadata

end MarketDag
