import Mathlib.Data.List.Nodup
import Mathlib.Data.String.Basic
import MarketDag.Ipld.Basic

/-!
# Canonical trees

Sorting only rearranges entries (`sortEntries_perm`), so that the canonical tree of a map has the
entries of the map, each with its canonical tree.  Entries with keys of their own have one ascending
order (`sortEntries_eq_of_perm`).
-/

namespace MarketDag

/-! ## Sorting -/

section

variable {α β : Type} (before : String → String → Bool)

theorem insertEntry_perm (entry : String × α) (es : List (String × α)) :
    (insertEntry before entry es).Perm (entry :: es) := by
  induction es with
  | nil => exact .refl _
  | cons e es ih =>
    rw [insertEntry]
    split
    · exact (ih.cons e).trans (.swap entry e es)
    · exact .refl _

theorem forall_mem_insertEntry {P : String × α → Prop} {entry : String × α}
    {es : List (String × α)} (hentry : P entry) (hes : ∀ e ∈ es, P e) :
    ∀ e ∈ insertEntry before entry es, P e := fun e he =>
  List.forall_mem_cons.mpr ⟨hentry, hes⟩ e ((insertEntry_perm before entry es).mem_iff.mp he)

theorem sortEntries_perm (es : List (String × α)) : (sortEntries before es).Perm es := by
  induction es with
  | nil => exact .refl _
  | cons e es ih => exact (insertEntry_perm before e _).trans (ih.cons e)

/-- Putting entries into their places one by one sorts them. -/
theorem foldl_insertEntry (es : List (String × α)) :
    es.foldl (fun entries e => insertEntry before e entries) [] =
      sortEntries before es.reverse := by
  rw [← List.foldr_reverse]
  induction es.reverse with
  | nil => rfl
  | cons e es ih => rw [List.foldr_cons, ih, sortEntries]

/-- What is in the order of a changed list comes from the list in that order. -/
theorem exists_perm_of_perm_map {f : α → β} {as : List α} {bs : List β}
    (h : bs.Perm (as.map f)) : ∃ as' : List α, as'.Perm as ∧ bs = as'.map f := by
  generalize hmap : as.map f = bs' at h
  induction h generalizing as with
  | nil => exact ⟨as, .refl _, hmap.symm⟩
  | cons b _ ih =>
    obtain ⟨a, as, rfl, rfl, htail⟩ := List.map_eq_cons_iff.mp hmap
    obtain ⟨as', hperm, rfl⟩ := ih htail
    exact ⟨a :: as', hperm.cons a, rfl⟩
  | swap b b' bs =>
    obtain ⟨a, as, rfl, rfl, htail⟩ := List.map_eq_cons_iff.mp hmap
    obtain ⟨a', as, rfl, rfl, rfl⟩ := List.map_eq_cons_iff.mp htail
    exact ⟨a' :: a :: as, .swap a a' as, rfl⟩
  | trans _ _ ih₁ ih₂ =>
    obtain ⟨as', hperm, hbs⟩ := ih₂ hmap
    obtain ⟨as'', hperm', hbs'⟩ := ih₁ hbs.symm
    exact ⟨as'', hperm'.trans hperm, hbs'⟩

/-- Only the keys decide where an entry goes. -/
theorem insertEntry_map (f : α → β) (entry : String × α) (es : List (String × α)) :
    insertEntry before (entry.1, f entry.2) (es.map fun e => (e.1, f e.2)) =
      (insertEntry before entry es).map fun e => (e.1, f e.2) := by
  induction es with
  | nil => rfl
  | cons e es ih =>
    rw [List.map_cons, insertEntry, insertEntry, ih]
    split <;> rfl

theorem sortEntries_map (f : α → β) (es : List (String × α)) :
    sortEntries before (es.map fun e => (e.1, f e.2)) =
      (sortEntries before es).map fun e => (e.1, f e.2) := by
  induction es with
  | nil => rfl
  | cons e es ih => rw [List.map_cons, sortEntries, ih, insertEntry_map, sortEntries]

end

/-! ## Ascending keys -/

/-- Are the keys of entries in ascending order, none of them twice? -/
def Ascending {α : Type} (es : List (String × α)) : Prop := es.Pairwise fun a b => a.1 < b.1

instance {α : Type} (es : List (String × α)) : Decidable (Ascending es) :=
  inferInstanceAs (Decidable (es.Pairwise fun a b => a.1 < b.1))

section

variable {α : Type}

theorem Ascending.nodup {es : List (String × α)} (h : Ascending es) : (es.map Prod.fst).Nodup :=
  List.Pairwise.map _ (fun _ _ hab heq => String.lt_irrefl _ (heq ▸ hab)) h

theorem Ascending.eq_of_perm {as bs : List (String × α)} (ha : Ascending as) (hb : Ascending bs)
    (h : as.Perm bs) : as = bs :=
  h.eq_of_pairwise (fun _ _ _ _ hab hba => absurd (String.lt_trans hab hba) (String.lt_irrefl _))
    ha hb

theorem not_mem_keys {key : String} {es : List (String × α)}
    (h : (es.any fun e => e.1 = key) = false) : key ∉ es.map Prod.fst := by
  rw [List.any_eq_false] at h
  intro hmem
  obtain ⟨e, he, rfl⟩ := List.mem_map.mp hmem
  exact h e he (decide_eq_true rfl)

/-- An entry of a new key comes to its place. -/
theorem ascending_insertEntry {entry : String × α} {es : List (String × α)} (h : Ascending es)
    (hnew : entry.1 ∉ es.map Prod.fst) : Ascending (insertEntry textBefore entry es) := by
  induction es with
  | nil => exact List.pairwise_singleton _ _
  | cons e es ih =>
    obtain ⟨hfirst, hrest⟩ := List.pairwise_cons.mp h
    rw [List.map_cons, List.mem_cons, not_or] at hnew
    rw [insertEntry]
    split
    · rename_i hbefore
      refine List.pairwise_cons.mpr ⟨fun x hx => ?_, ih hrest hnew.2⟩
      rcases List.mem_cons.mp ((insertEntry_perm textBefore entry es).mem_iff.mp hx) with rfl | hx
      · exact of_decide_eq_true hbefore
      · exact hfirst x hx
    · rename_i hafter
      -- no key is met twice, so not being before means being behind
      have hle : ¬ e.1 < entry.1 := fun hlt => hafter (decide_eq_true hlt)
      have hlt : entry.1 < e.1 := lt_of_le_of_ne (not_lt.mp hle) hnew.1
      refine List.pairwise_cons.mpr ⟨fun x hx => ?_, h⟩
      rcases List.mem_cons.mp hx with rfl | hx
      · exact hlt
      · exact String.lt_trans hlt (hfirst x hx)

theorem ascending_sortEntries {es : List (String × α)} (h : (es.map Prod.fst).Nodup) :
    Ascending (sortEntries textBefore es) := by
  induction es with
  | nil => exact .nil
  | cons e es ih =>
    obtain ⟨hnew, hrest⟩ := List.nodup_cons.mp h
    have hkeys := ((sortEntries_perm textBefore es).map Prod.fst).mem_iff (a := e.1)
    exact ascending_insertEntry (ih hrest) (mt hkeys.mp hnew)

/-- Entries with keys of their own have one ascending order. -/
theorem sortEntries_eq_of_perm {es sorted : List (String × α)} (h : es.Perm sorted)
    (hsorted : Ascending sorted) : sortEntries textBefore es = sorted :=
  (ascending_sortEntries ((h.map Prod.fst).nodup_iff.mpr hsorted.nodup)).eq_of_perm hsorted
    ((sortEntries_perm textBefore es).trans h)

end

/-! ## Canonical trees -/

namespace Ipld

theorem canonicalItems_eq (items : List Ipld) : canonicalItems items = items.map canonical := by
  induction items with
  | nil => rfl
  | cons item items ih => rw [canonicalItems, ih, List.map_cons]

theorem canonicalEntries_eq (entries : List (String × Ipld)) :
    canonicalEntries entries = entries.map fun e => (e.1, e.2.canonical) := by
  induction entries with
  | nil => rfl
  | cons e entries ih => rw [canonicalEntries, ih, List.map_cons]

theorem canonical_list (items : List Ipld) :
    canonical (.list items) = .list (items.map canonical) := by
  rw [canonical, canonicalItems_eq]

/-- The entries of a canonical map are those of the map, each with its canonical tree. -/
theorem canonical_map (entries : List (String × Ipld)) :
    ∃ sorted, canonical (.map entries) = .map sorted ∧
      sorted.Perm (entries.map fun e => (e.1, e.2.canonical)) := by
  refine ⟨_, by rw [canonical, canonicalEntries_eq], sortEntries_perm ..⟩

/-- The entries of the canonical tree of a map with keys of their own are in ascending order. -/
theorem canonical_map_of_nodup {entries : List (String × Ipld)}
    (h : (entries.map Prod.fst).Nodup) :
    ∃ sorted, canonical (.map entries) = .map sorted ∧ Ascending sorted ∧
      sorted.Perm (entries.map fun e => (e.1, e.2.canonical)) := by
  refine ⟨_, by rw [canonical, canonicalEntries_eq], ascending_sortEntries ?_,
    sortEntries_perm ..⟩
  rwa [List.map_map]

theorem canonical_list_of_forall {items : List Ipld} (h : ∀ t ∈ items, t.canonical = t) :
    canonical (.list items) = .list items := by
  rw [canonical_list, List.map_congr_left h, List.map_id']

/-- A map with its keys in ascending order is canonical when its values are. -/
theorem canonical_map_of_ascending {entries : List (String × Ipld)} (hascending : Ascending entries)
    (h : ∀ e ∈ entries, e.2.canonical = e.2) : canonical (.map entries) = .map entries := by
  have hmap : entries.map (fun e => (e.1, e.2.canonical)) = entries := by
    have hsame : ∀ e ∈ entries, (e.1, e.2.canonical) = e := fun e he => by rw [h e he]
    rw [List.map_congr_left hsame, List.map_id']
  rw [canonical, canonicalEntries_eq, hmap, sortEntries_eq_of_perm (.refl _) hascending]

theorem canonical_eq_null_iff {t : Ipld} : t.canonical = .null ↔ t = .null := by
  cases t <;> simp [canonical]

/-! ## Properties of all parts -/

/-- A property of trees within a depth that a tree has when its parts have it. Links have it only
if there may be some. -/
structure Hereditary (links : Bool) (P : Nat → Ipld → Prop) : Prop where
  mono : ∀ {depth depth' : Nat} {t : Ipld}, P depth t → depth ≤ depth' → P depth' t
  null : P 0 .null
  integer : ∀ {n : Int}, 0 ≤ n → n < 0x10000000000000000 → P 0 (.integer n)
  text : ∀ s, P 0 (.text s)
  link : links = true → ∀ cid, P 0 (.link cid)
  list : ∀ {depth : Nat} {items : List Ipld}, (∀ t ∈ items, P depth t) →
    P (depth + 1) (.list items)
  map : ∀ {depth : Nat} {entries : List (String × Ipld)}, Ascending entries →
    (∀ e ∈ entries, P depth e.2) → P (depth + 1) (.map entries)

theorem Hereditary.withoutLinks {links : Bool} {P : Nat → Ipld → Prop} (H : Hereditary links P) :
    Hereditary false P :=
  { H with link := fun h => nomatch h }

/-! ## Plain trees -/

/-- A tree of nulls, numbers below 2 ^ 64, texts, lists and maps, nested no deeper than so. -/
def PlainWithin : Nat → Ipld → Prop
  | _, .null => True
  | _, .integer n => 0 ≤ n ∧ n < 0x10000000000000000
  | _, .text _ => True
  | depth + 1, .list items => ∀ t ∈ items, PlainWithin depth t
  | depth + 1, .map entries => ∀ e ∈ entries, PlainWithin depth e.2
  | _, _ => False

theorem plainWithin_integer {depth : Nat} {n : Int} :
    PlainWithin depth (.integer n) ↔ 0 ≤ n ∧ n < 0x10000000000000000 := by
  cases depth <;> exact Iff.rfl

theorem PlainWithin.mono {depth depth' : Nat} {t : Ipld} (h : PlainWithin depth t)
    (hle : depth ≤ depth') : PlainWithin depth' t := by
  induction depth generalizing depth' t with
  | zero => cases t <;> cases depth' <;> simp_all [PlainWithin]
  | succ depth ih =>
    obtain ⟨k, rfl⟩ : ∃ k, depth' = k + 1 := ⟨depth' - 1, by omega⟩
    cases t with
    | list items =>
      rw [PlainWithin] at h ⊢
      exact fun t ht => ih (h t ht) (by omega)
    | map entries =>
      rw [PlainWithin] at h ⊢
      exact fun e he => ih (h e he) (by omega)
    | _ => simp_all [PlainWithin]

theorem hereditary_plainWithin : Hereditary false PlainWithin where
  mono := PlainWithin.mono
  null := trivial
  integer hlow hhigh := ⟨hlow, hhigh⟩
  text _ := trivial
  link h := nomatch h
  list h := h
  map _ h := h

/-! ## Regular trees -/

/-- A tree with the keys of every map in ascending order and all integers within 65 bits, nested
no deeper than so. -/
def RegularWithin : Nat → Ipld → Prop
  | _, .integer n => -0x10000000000000000 ≤ n ∧ n < 0x10000000000000000
  | 0, .list _ => False
  | 0, .map _ => False
  | depth + 1, .list items => ∀ t ∈ items, RegularWithin depth t
  | depth + 1, .map entries => Ascending entries ∧ ∀ e ∈ entries, RegularWithin depth e.2
  | _, _ => True

theorem regularWithin_integer {depth : Nat} {n : Int} : RegularWithin depth (.integer n) ↔
    -0x10000000000000000 ≤ n ∧ n < 0x10000000000000000 := by
  cases depth <;> exact Iff.rfl

theorem RegularWithin.mono {depth depth' : Nat} {t : Ipld} (h : RegularWithin depth t)
    (hle : depth ≤ depth') : RegularWithin depth' t := by
  induction depth generalizing depth' t with
  | zero => cases t <;> cases depth' <;> simp_all [RegularWithin]
  | succ depth ih =>
    obtain ⟨k, rfl⟩ : ∃ k, depth' = k + 1 := ⟨depth' - 1, by omega⟩
    cases t with
    | list items =>
      rw [RegularWithin] at h ⊢
      exact fun t ht => ih (h t ht) (by omega)
    | map entries =>
      rw [RegularWithin] at h ⊢
      exact ⟨h.1, fun e he => ih (h.2 e he) (by omega)⟩
    | _ => simp_all [RegularWithin]

theorem hereditary_regularWithin : Hereditary true RegularWithin where
  mono := RegularWithin.mono
  null := trivial
  integer hlow hhigh := ⟨by omega, hhigh⟩
  text _ := trivial
  link _ _ := trivial
  list h := h
  map hascending h := ⟨hascending, h⟩

end Ipld

end MarketDag
