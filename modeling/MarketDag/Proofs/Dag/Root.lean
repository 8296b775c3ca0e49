import MarketDag.Proofs.Dag.Metadata
import MarketDag.Proofs.Shape.Total

/-!
# Roots as blocks

A value without instants always has a block (`Block.exists_encode`).  The block of a root holds
nothing but four short names and eight identifiers, so that it is never too long to be read back
(`Root.addressable_of_encode`, `Root.decode_encode`).
-/

namespace MarketDag

/-! ## Blocks that are always there -/

/-- A value has a block when it has a tree. -/
theorem Block.exists_encode_iff {α : Type} [Shaped α] [Recoverable α] (a : α) :
    (∃ b, encode a = .ok b) ↔ ∃ t, layout a = .ok t := by
  constructor
  · rintro ⟨b, hb⟩
    obtain ⟨t, ht, -⟩ := encode_eq_ok.mp hb
    exact ⟨t, ht⟩
  · rintro ⟨t, ht⟩
    have hfinite := Shape.isFinite_layout Recoverable.sound ht
    exact ⟨⟨.ofData Cid.dagCbor _, _⟩, encode_eq_ok.mpr ⟨t, ht, hfinite, rfl, rfl⟩⟩

theorem Block.exists_encode {α : Type} [Shaped α] [Recoverable α]
    (h : (Shaped.shape α).instantFree = true) (a : α) : ∃ b, encode a = .ok b :=
  (exists_encode_iff a).mpr (Shape.exists_layout _ h _)

/-! ## Lengths -/

namespace Cbor

theorem length_flatMap_le {α : Type} {f : α → List UInt8} {n : Nat} {as : List α}
    (h : ∀ a ∈ as, (f a).length ≤ n) : (as.flatMap f).length ≤ as.length * n := by
  induction as with
  | nil => exact Nat.zero_le _
  | cons a as ih =>
    obtain ⟨ha, has⟩ := List.forall_mem_cons.mp h
    have hrest := ih has
    rw [List.flatMap_cons, List.length_append, List.length_cons, Nat.add_mul]
    omega

/-- The bytes of a canonical map are a head and those of its entries, in whatever order. -/
theorem length_write_canonical_map (entries : List (String × Ipld)) :
    (write (Ipld.map entries).canonical).length = (writeHead .map entries.length).length +
      (entries.flatMap fun e => writeEntry (e.1, e.2.canonical)).length := by
  obtain ⟨sorted, hsorted, hperm⟩ := Ipld.canonical_map entries
  rw [hsorted, length_write_map, (hperm.flatMap_right writeEntry).length_eq, hperm.length_eq,
    List.length_map, List.flatMap_map]

/-- The bytes of a canonical map are at most a head and so many for each entry. -/
theorem length_write_canonical_map_le (entries : List (String × Ipld)) {n : Nat}
    (h : ∀ e ∈ entries, (writeEntry (e.1, e.2.canonical)).length ≤ n) :
    (write (Ipld.map entries).canonical).length ≤ 9 + entries.length * n := by
  have hhead := length_writeHead_le .map entries.length
  have hsum := length_flatMap_le h
  rw [length_write_canonical_map]
  omega

theorem length_writeText_le (s : String) :
    (writeText s).length ≤ 9 + (Utf8.encode s).length := by
  have hhead := length_writeHead_le .text (Utf8.encode s).length
  rw [writeText, List.length_append]
  omega

theorem length_writeEntry_le {t : Ipld} {n : Nat} (key : String)
    (h : (write t.canonical).length ≤ n) :
    (writeEntry (key, t.canonical)).length ≤ 9 + (Utf8.encode key).length + n := by
  have hkey := length_writeText_le key
  have hentry : (writeEntry (key, t.canonical)).length =
      (writeText key).length + (write t.canonical).length := List.length_append
  omega

theorem length_writeLink_le (cid : Cid) : (writeLink cid).length ≤ 119 := by
  have htag := length_writeHead_le .tag linkTag
  have hhead := length_writeHead_le .bytes (cid.toBytes.length + 1)
  have hcid := cid.length_toBytes_le
  rw [writeLink, writeBytes, List.length_append, List.length_append, List.length_cons]
  omega

end Cbor

/-! ## Roots -/

namespace Root

open Cbor

theorem length_write_link {l : ComponentLink} {t : Ipld} (h : layout l = .ok t) :
    (write t.canonical).length ≤ 279 := by
  cases h
  have hlink (cid : Cid) : (write (Ipld.link cid).canonical).length ≤ 119 :=
    length_writeLink_le cid
  have hsum : (write (Ipld.map _).canonical).length ≤ 9 + 2 * 135 :=
    length_write_canonical_map_le [("data", .link l.data), ("schema", .link l.schema)]
      fun e he => ?_
  · exact hsum
  simp only [List.mem_cons, List.not_mem_nil, or_false] at he
  rcases he with rfl | rfl
  · exact Nat.le_trans (length_writeEntry_le "data" (hlink _)) (by decide +kernel)
  · exact Nat.le_trans (length_writeEntry_le "schema" (hlink _)) (by decide +kernel)

theorem length_name_le (f : Family) : (Utf8.encode f.name).length ≤ 15 := by
  cases f <;> decide +kernel

/-- The tree of a root has the trees of its links under the names of their slots. -/
theorem layout_eq_ok {r : Root} {t : Ipld} (h : layout r = .ok t) :
    ∃ entries, t = .map entries ∧ entries.length = 4 ∧
      ∀ e ∈ entries, ∃ f, e.1 = Family.name f ∧ layout (r.get f) = .ok e.2 := by
  cases h
  refine ⟨_, rfl, rfl, fun e he => ?_⟩
  simp only [List.mem_cons, List.not_mem_nil, or_false] at he
  rcases he with rfl | rfl | rfl | rfl
  exacts [⟨.outcomeSpace, rfl, rfl⟩, ⟨.outcomePoint, rfl, rfl⟩, ⟨.oracleConfig, rfl, rfl⟩,
    ⟨.oracleFallback, rfl, rfl⟩]

theorem length_write {r : Root} {t : Ipld} (h : layout r = .ok t) :
    (write t.canonical).length ≤ 1221 := by
  obtain ⟨entries, rfl, hlength, hentries⟩ := layout_eq_ok h
  have hsum := length_write_canonical_map_le (n := 303) entries fun e he => by
    obtain ⟨f, hname, hlink⟩ := hentries e he
    have hentry := length_writeEntry_le e.1 (length_write_link hlink)
    have hshort := length_name_le f
    rw [hname] at hentry ⊢
    omega
  rwa [hlength] at hsum

variable {r : Root} {b : Block}

theorem exists_encode (r : Root) : ∃ b, Block.encode r = .ok b :=
  Block.exists_encode (by decide) r

/-- The block of a root is short. -/
theorem length_data_of_encode (h : Block.encode r = .ok b) : b.data.length ≤ 1221 := by
  obtain ⟨t, ht, -, hdata, -⟩ := Block.encode_eq_ok.mp h
  rw [hdata]
  exact length_write ht

theorem addressable_of_encode (h : Block.encode r = .ok b) : b.Addressable :=
  Nat.lt_of_le_of_lt (length_data_of_encode h) (by decide)

/-- A root is read back from its block. -/
theorem decode_encode (h : Block.encode r = .ok b) : Block.decode Root b.cid b.data = .ok r := by
  rw [Block.decode_encode h (addressable_of_encode h), normal_eq]

end Root

end MarketDag
