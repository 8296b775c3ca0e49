import MarketDag.Proofs.Cbor.Faithful

/-!
# Trees in binary form

A tree for which the budget of the reader suffices is read back as it was written
(`decodeTree_write`).  The entries of a map come sorted by the length of their keys and each is put
into its place, so that they end up in ascending order whatever the order in which they come
(`readEntries_flatMap`).
-/

namespace MarketDag.Cbor

variable {depth : Nat}

/-! ## Items -/

theorem readItem_negative {n : Nat} (h : n < UInt64.size) (rest : List UInt8) :
    readItem depth (writeHead .negative n ++ rest) = .ok (.integer (-1 - n), rest) := by
  obtain ⟨b, hpeek, hmajor, hinfo, -⟩ := peek_writeHead .negative n rest
  rw [readItem, read_bind hpeek, if_neg hinfo, hmajor]
  exact read_map ((read_bind (readHead_writeHead .negative h rest)).trans rfl)

theorem readItem_integer {n : Int} (hlow : -0x10000000000000000 ≤ n)
    (hhigh : n < 0x10000000000000000) (rest : List UInt8) :
    readItem depth (writeInteger n ++ rest) = .ok (.integer n, rest) := by
  rw [writeInteger]
  split
  · rename_i hn
    have hsmall : n.toNat < UInt64.size := by
      simp only [UInt64.size]
      omega
    rw [readItem_unsigned depth hsmall rest, Int.toNat_of_nonneg hn]
  · rename_i hn
    have hsmall : (-1 - n).toNat < UInt64.size := by
      simp only [UInt64.size]
      omega
    rw [readItem_negative hsmall rest, Int.toNat_of_nonneg (by omega), Int.sub_sub_self]

theorem readItem_bytes {b : List UInt8} (h : (writeBytes b).length < UInt64.size)
    (rest : List UInt8) : readItem depth (writeBytes b ++ rest) = .ok (.bytes b, rest) := by
  have hlength : b.length < UInt64.size := by
    rw [writeBytes, List.length_append] at h
    omega
  obtain ⟨first, hpeek, hmajor, hinfo, -⟩ := peek_writeHead .bytes b.length (b ++ rest)
  rw [writeBytes, List.append_assoc, readItem, read_bind hpeek, if_neg hinfo, hmajor]
  simp only [Major.code]
  rw [read_bind (readHead_writeHead .bytes hlength _), read_bind (take_append b rest)]
  rfl

theorem readItem_link {cid : Cid} (h : (writeLink cid).length < UInt64.size) (rest : List UInt8) :
    readItem depth (writeLink cid ++ rest) = .ok (.link cid, rest) := by
  obtain ⟨first, hpeek, hmajor, hinfo, -⟩ :=
    peek_writeHead .tag linkTag (writeBytes (0 :: cid.toBytes) ++ rest)
  rw [← List.append_assoc, ← writeLink] at hpeek
  rw [readItem, read_bind hpeek, if_neg hinfo, hmajor]
  exact read_map (readLink_writeLink depth h rest)

theorem readItem_bool (b : Bool) (rest : List UInt8) :
    readItem depth ((if b then 0xF5 else 0xF4) :: rest) = .ok (.bool b, rest) := by
  cases b <;> rfl

theorem readItem_float (x : Binary64) (rest : List UInt8) :
    readItem depth (0xFB :: (x.toBytes ++ rest)) = .ok (.float x, rest) := by
  have htake : take 8 (x.toBytes ++ rest) = .ok (x.toBytes, rest) :=
    (BigEndian.length_encode 8 x.bits.toNat) ▸ take_append x.toBytes rest
  change ((Item.float ∘ Binary64.ofBytes) <$> take 8) (x.toBytes ++ rest) = _
  rw [read_map htake, Function.comp, Binary64.ofBytes_toBytes]

/-! ## Entries of maps -/

theorem hasKey_eq_false {α : Type} {entries : List (String × α)} {key : String}
    (h : key ∉ entries.map Prod.fst) : hasKey entries key = false := by
  rw [hasKey, List.any_eq_false]
  exact fun e he heq => h (of_decide_eq_true heq ▸ List.mem_map_of_mem he)

/-- Entries with keys of their own are put into their places one by one. -/
theorem readEntries_flatMap {value : Scan Ipld} {es entries : List (String × Ipld)}
    (hnodup : ((es ++ entries).map Prod.fst).Nodup)
    (hsize : (es.flatMap writeEntry).length < UInt64.size)
    (hread : ∀ e ∈ es, ∀ rest, value (write e.2 ++ rest) = .ok (e.2, rest)) (rest : List UInt8) :
    readEntries depth value es.length entries (es.flatMap writeEntry ++ rest) =
      .ok (es.foldl (fun entries e => insertEntry textBefore e entries) entries, rest) := by
  induction es generalizing entries with
  | nil => rfl
  | cons e es ih =>
    rw [List.flatMap_cons, List.length_append, writeEntry, List.length_append] at hsize
    rw [List.forall_mem_cons] at hread
    -- the entry moves from those to come to those put in place, so the keys stay apart
    have hperm : (es ++ insertEntry textBefore e entries).Perm (e :: (es ++ entries)) :=
      ((insertEntry_perm textBefore e entries).append_left es).trans List.perm_middle
    have hkey : e.1 ∉ entries.map Prod.fst := by
      rw [List.cons_append, List.map_cons, List.nodup_cons, List.map_append] at hnodup
      exact fun hmem => hnodup.1 (List.mem_append_right _ hmem)
    rw [List.flatMap_cons, writeEntry, List.append_assoc, List.append_assoc, List.length_cons,
      readEntries, read_bind (readText_writeText depth (by omega) _), read_bind (hread.1 _),
      hasKey_eq_false hkey]
    exact ih ((hperm.map Prod.fst).nodup_iff.mpr hnodup) (by omega) hread.2

/-! ## Readable trees -/

/-- A tree with the keys of every map in ascending order and all integers within 65 bits, for which
a budget suffices: one for every item, and in a list or a map one more for what is in it. -/
def Readable : (budget : Nat) → Ipld → Prop
  | 0, _ => False
  | _ + 1, .integer n => -0x10000000000000000 ≤ n ∧ n < 0x10000000000000000
  | 1, .list _ => False
  | 1, .map _ => False
  | budget + 2, .list items => ∀ t ∈ items, Readable budget t
  | budget + 2, .map entries => Ascending entries ∧ ∀ e ∈ entries, Readable budget e.2
  | _ + 1, _ => True

theorem readable_integer {budget : Nat} {n : Int} : Readable (budget + 1) (.integer n) ↔
    -0x10000000000000000 ≤ n ∧ n < 0x10000000000000000 := by
  cases budget <;> exact Iff.rfl

/-- A budget suffices for a regular tree that is nested half as deep. -/
theorem readable_of_regularWithin {h budget : Nat} {t : Ipld} (ht : t.RegularWithin h)
    (hbudget : 2 * h + 1 ≤ budget) : Readable budget t := by
  induction h generalizing budget t with
  | zero =>
    obtain ⟨k, rfl⟩ := Nat.exists_eq_add_of_le' hbudget
    cases t with
    | integer n => exact readable_integer.mpr (Ipld.regularWithin_integer.mp ht)
    | list items => exact ht.elim
    | map entries => exact ht.elim
    | _ => cases k <;> exact trivial
  | succ h ih =>
    -- one of the budget is for the list or the map, one for what stands in it
    obtain ⟨k, rfl⟩ : ∃ k, budget = k + 2 := ⟨budget - 2, by omega⟩
    cases t with
    | integer n => exact readable_integer.mpr (Ipld.regularWithin_integer.mp ht)
    | list items => exact fun t hmem => ih (ht t hmem) (by omega)
    | map entries => exact ⟨ht.1, fun e hmem => ih (ht.2 e hmem) (by omega)⟩
    | _ => exact trivial

/-- A readable tree is canonical. -/
theorem Readable.canonical_eq {budget : Nat} {t : Ipld} (ht : Readable budget t) :
    t.canonical = t := by
  induction budget using Nat.strongRecOn generalizing t with
  | ind budget ih =>
    cases t with
    | list items =>
      match budget, ht with
      | budget + 2, ht =>
        exact Ipld.canonical_list_of_forall fun t hmem => ih budget (by omega) (ht t hmem)
    | map entries =>
      match budget, ht with
      | budget + 2, ⟨hascending, ht⟩ =>
        exact Ipld.canonical_map_of_ascending hascending fun e hmem =>
          ih budget (by omega) (ht e hmem)
    | _ => rfl

/-! ## Trees -/

/-- A readable tree is read back in front of any rest. -/
theorem readTree_write {budget : Nat} {t : Ipld} (ht : Readable budget t)
    (hsize : (write t).length < UInt64.size) (rest : List UInt8) :
    readTree budget (write t ++ rest) = .ok (t, rest) := by
  -- the induction is on the budget: a list and a map leave two less of it to what they hold
  induction budget using Nat.strongRecOn generalizing t rest with
  | ind budget ih =>
    rcases budget with _ | k
    · exact ht.elim
    cases t with
    | null =>
      rw [write, List.singleton_append, readTree, read_bind (readItem_null k rest)]
      rfl
    | bool b =>
      rw [write, List.singleton_append, readTree, read_bind (readItem_bool b rest)]
      rfl
    | integer n =>
      obtain ⟨hlow, hhigh⟩ := readable_integer.mp ht
      rw [write, readTree, read_bind (readItem_integer hlow hhigh rest)]
      rfl
    | float x =>
      rw [write, List.cons_append, readTree, read_bind (readItem_float x rest)]
      rfl
    | text s =>
      rw [write] at hsize ⊢
      rw [readTree, read_bind (readItem_text k hsize rest)]
      rfl
    | bytes b =>
      rw [write] at hsize ⊢
      rw [readTree, read_bind (readItem_bytes hsize rest)]
      rfl
    | link cid =>
      rw [write] at hsize ⊢
      rw [readTree, read_bind (readItem_link hsize rest)]
      rfl
    | list items =>
      cases k with
      | zero => exact ht.elim
      | succ j =>
        -- every item takes a byte, so the number of items has a head as well
        obtain ⟨hcount, hsizes⟩ := sizes_of_write_list hsize
        have hitem : ∀ t ∈ items, ∀ rest, readTree j (write t ++ rest) = .ok (t, rest) :=
          fun t hmem => ih j (by omega) (ht t hmem) (hsizes t hmem)
        rw [write_list, List.append_assoc, readTree, read_bind (readItem_list _ hcount _)]
        exact read_map (readMany_flatMap (List.forall₂_same.mpr hitem) rest)
    | map entries =>
      cases k with
      | zero => exact ht.elim
      | succ j =>
        obtain ⟨hascending, hentries⟩ := ht
        -- the shortest keys come first in the bytes; reading puts the order of the texts back
        obtain ⟨entries', hperm, hwrite, hcount, hsmall, hsizes⟩ := sizes_of_write_map hsize
        have hentry : ∀ e ∈ entries', ∀ rest, readTree j (write e.2 ++ rest) = .ok (e.2, rest) :=
          fun e hmem => ih j (by omega) (hentries e (hperm.mem_iff.mp hmem))
            (length_write_lt_of_entry (hsizes e hmem))
        have hnodup : ((entries' ++ []).map Prod.fst).Nodup := by
          rw [List.append_nil]
          exact (hperm.map Prod.fst).nodup_iff.mpr (Ascending.nodup hascending)
        have hsorted : entries'.foldl (fun entries e => insertEntry textBefore e entries) [] =
            entries := by
          rw [foldl_insertEntry]
          exact sortEntries_eq_of_perm (entries'.reverse_perm.trans hperm) hascending
        rw [hwrite, List.append_assoc, readTree, read_bind (readItem_map _ hcount _)]
        exact read_map (hsorted ▸ readEntries_flatMap hnodup hsmall hentry rest)

/-- The tree of a byte string that was written from a readable one. -/
theorem decodeTree_write {t : Ipld} (ht : Readable maxDepth t)
    (hsize : (write t).length < UInt64.size) : decodeTree (write t) = .ok t := by
  have hread := readTree_write ht hsize []
  rw [List.append_nil] at hread
  rw [decodeTree, readAll]
  exact bind_eq_ok.mpr ⟨_, hread, rfl⟩

end MarketDag.Cbor
