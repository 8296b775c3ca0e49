import MarketDag.Proofs.Dag.Metadata

/-!
# The identifier of a root commits to the metadata

Equal metadata are assembled into the same blocks (`Metadata.assemble_eq_of_same`).  Conversely,
the identifier of a root fixes the bytes of the root as long as no two blocks share a digest; these
fix the identifiers and the schemas of the documents, and these in turn the documents
(`Metadata.Assembled.same`).
-/

namespace MarketDag

/-! ## Blocks -/

/-- Blocks with the digests of their identifiers are equal if their identifiers are. -/
theorem CollisionFree.block_eq {datas : List (List UInt8)} (h : CollisionFree datas) {x y : Block}
    (hx : x.data ∈ datas) (hy : y.data ∈ datas) (hverify : x.cid.verify x.data = .ok ())
    (hverify' : y.cid.verify y.data = .ok ()) (hcid : x.cid = y.cid) : x = y := by
  obtain ⟨cid, data⟩ := x
  cases hcid
  cases h.eq_of_verify hx hy hverify hverify'
  rfl

/-- Roots with one block are equal. -/
theorem Root.eq_of_encode_eq {r s : Root} {b : Block} (hr : Block.encode r = .ok b)
    (hs : Block.encode s = .ok b) (hsize : b.Addressable) : r = s := by
  have hread := Block.decode_encode hr hsize
  rw [Block.decode_encode hs hsize, normal_eq, normal_eq] at hread
  exact (Except.ok.inj hread).symm

/-- Documents of one kind with one block are the same. -/
theorem Document.same_of_encode_eq {d e : Document} {b : Block} (hkind : d.kind = e.kind)
    (hd : d.encode = .ok b) (he : e.encode = .ok b) (hsize : b.Addressable) : d.Same e := by
  have hread := decodeRaw_encode hd hsize
  rw [hkind, decodeRaw_encode he hsize] at hread
  exact (same_iff d e).mpr (Except.ok.inj hread).symm

namespace Metadata

/-! ## Equal metadata -/

/-- Metadata that are the same are assembled into the same blocks. -/
theorem assemble_eq_of_same {registry : Registry} {m n : Metadata} (h : m.Same n) :
    m.assemble registry = n.assemble registry := by
  have hlinks : m.mapM (fun _ d => link registry d.1) = n.mapM fun _ d => link registry d.1 := by
    refine Slots.mapM_congr fun f => ?_
    rw [link, link, (h f).kind_eq, Document.encode_eq_of_same (h f)]
  rw [assemble, assemble, hlinks]

/-! ## Equal roots -/

/-- Metadata whose roots have one identifier are the same. -/
theorem Assembled.same {registry registry' : Registry} {m n : Metadata} {top top' : Block}
    {parts parts' : Slots fun _ => Block} {datas : List (List UInt8)} (hfree : CollisionFree datas)
    (h : m.Assembled registry top parts) (h' : n.Assembled registry' top' parts')
    (hmem : ∀ b ∈ top :: parts.toList, b.data ∈ datas ∧ b.Addressable)
    (hmem' : ∀ b ∈ top' :: parts'.toList, b.data ∈ datas) (hcid : top.cid = top'.cid) :
    m.Same n := by
  have htop := List.mem_cons_self (a := top) (l := parts.toList)
  have htop' := List.mem_cons_self (a := top') (l := parts'.toList)
  have hblock : top = top' := hfree.block_eq (hmem _ htop).1 (hmem' _ htop') (h.verify _ htop)
    (h'.verify _ htop') hcid
  -- from the identifier to the block, from it to the root, and from the links to the documents
  have hroot : m.rootOf parts = n.rootOf parts' :=
    Root.eq_of_encode_eq h.top_encode (hblock ▸ h'.top_encode) (hmem _ htop).2
  intro f
  have hlink := congrArg (Slots.get · f) hroot
  simp only [rootOf, Slots.get_ofFn, ComponentLink.mk.injEq] at hlink
  have hpart := part_mem top parts f
  have hpart' := part_mem top' parts' f
  have hdata : parts.get f = parts'.get f := hfree.block_eq (hmem _ hpart).1 (hmem' _ hpart')
    (h.verify _ hpart) (h'.verify _ hpart') hlink.1
  exact Document.same_of_encode_eq (Kind.schema_injective hlink.2) (h.part_encode f)
    (hdata ▸ h'.part_encode f) (hmem _ hpart).2

/-- The identifier of the root commits to the documents and their kinds, and only to them: metadata
that are the same are assembled into the same five blocks, and metadata whose roots have one
identifier are the same. -/
theorem root_cid_eq_iff_same {m₁ m₂ : Metadata} {bs₁ bs₂ : List Block}
    (h₁ : m₁.assemble .full = .ok bs₁) (h₂ : m₂.assemble .full = .ok bs₂) :
    ∃ top₁ parts₁ top₂ parts₂, bs₁ = top₁ :: parts₁ ∧ bs₂ = top₂ :: parts₂ ∧
      parts₁.length = 4 ∧ parts₂.length = 4 ∧ (m₁.Same m₂ → bs₁ = bs₂) ∧
      (CollisionFree ((bs₁ ++ bs₂).map Block.data) → (∀ b ∈ bs₁ ++ bs₂, b.Addressable) →
        (top₁.cid = top₂.cid ↔ m₁.Same m₂)) := by
  obtain ⟨top₁, parts₁, hbs₁, hassembled₁⟩ := assemble_eq_ok.mp h₁
  obtain ⟨top₂, parts₂, hbs₂, hassembled₂⟩ := assemble_eq_ok.mp h₂
  have hblocks : m₁.Same m₂ → bs₁ = bs₂ := by
    intro hsame
    rw [assemble_eq_of_same hsame, h₂] at h₁
    exact (Except.ok.inj h₁).symm
  refine ⟨top₁, parts₁.toList, top₂, parts₂.toList, hbs₁, hbs₂, rfl, rfl, hblocks, ?_⟩
  intro hfree hsize
  constructor
  · intro hcid
    refine hassembled₁.same hfree hassembled₂ (fun b hb => ?_) (fun b hb => ?_) hcid
    · rw [← hbs₁] at hb
      have hmem := List.mem_append_left bs₂ hb
      exact ⟨List.mem_map_of_mem hmem, hsize b hmem⟩
    · rw [← hbs₂] at hb
      exact List.mem_map_of_mem (List.mem_append_right bs₁ hb)
  · intro hsame
    have hcons : top₁ :: parts₁.toList = top₂ :: parts₂.toList := by
      rw [← hbs₁, ← hbs₂, hblocks hsame]
    rw [(List.cons.inj hcons).1]

/-- The numbers 1 and 1.0 are the same, and lead to one root. -/
theorem root_cid_sample : ∃ top₁ parts₁ top₂ parts₂,
    (sample .one).assemble .full = .ok (top₁ :: parts₁) ∧
    (sample ⟨false, 10, 1, by decide, by decide⟩).assemble .full = .ok (top₂ :: parts₂) ∧
    (sample .one).Same (sample ⟨false, 10, 1, by decide, by decide⟩) ∧
    (top₁.cid = top₂.cid ↔
      (sample .one).Same (sample ⟨false, 10, 1, by decide, by decide⟩)) := by
  obtain ⟨top, parts, hpublished, -, hfree⟩ := sample_published
  have hsame : (sample .one).Same (sample ⟨false, 10, 1, by decide, by decide⟩) := by
    intro f
    cases f with
    | oracleFallback => exact .mk ((Fallback.same_iff _ _).mpr ⟨rfl, by decide⟩)
    | _ => exact (Document.same_iff _ _).mpr rfl
  have h₁ := assemble_eq_ok.mpr ⟨top, parts, rfl, hpublished.assembled⟩
  have h₂ := assemble_eq_of_same hsame ▸ h₁
  have hsub : ((top :: parts.toList) ++ (top :: parts.toList)).map Block.data ⊆
      (top :: parts.toList).map Block.data := by
    rw [List.map_append]
    exact List.append_subset.mpr ⟨List.Subset.refl _, List.Subset.refl _⟩
  have hsize : ∀ b ∈ (top :: parts.toList) ++ (top :: parts.toList), b.Addressable :=
    fun b hb => hpublished.addressable b ((List.mem_append.mp hb).elim id id)
  obtain ⟨top₁, parts₁, top₂, parts₂, hbs₁, hbs₂, -, -, -, hiff⟩ := root_cid_eq_iff_same h₁ h₂
  exact ⟨top₁, parts₁, top₂, parts₂, hbs₁ ▸ h₁, hbs₂ ▸ h₂, hsame,
    hiff (hfree.mono hsub) hsize⟩

end Metadata

end MarketDag
