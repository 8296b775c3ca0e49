/-!
# Tables

A table has at most one value for each key; a new value takes the place of the old one
(`get?_insert`).
-/

namespace MarketDag

/-- Values by their keys. -/
structure Table (α β : Type) where
  entries : List (α × β) := []

namespace Table

variable {α β : Type} [DecidableEq α]

/-- The value of a key. -/
def get? (t : Table α β) (a : α) : Option β := t.entries.lookup a

/-- The table without a key. -/
def erase (t : Table α β) (a : α) : Table α β := ⟨t.entries.filter fun e => e.1 ≠ a⟩

/-- The value that a key has had, if any, and the table in which it has this one. -/
def insert (t : Table α β) (a : α) (b : β) : Option β × Table α β :=
  (t.get? a, ⟨(t.erase a).entries ++ [(a, b)]⟩)

/-- The keys in the order in which they got their values. -/
def keys (t : Table α β) : List α := t.entries.map Prod.fst

/-- The number of keys. -/
def size (t : Table α β) : Nat := t.entries.length

@[simp] theorem get?_erase (t : Table α β) (a x : α) :
    (t.erase a).get? x = if x = a then none else t.get? x := by
  obtain ⟨entries⟩ := t
  unfold get? erase
  induction entries with
  | nil => simp
  | cons e entries ih => by_cases h : e.1 = a <;> grind

@[simp] theorem get?_insert (t : Table α β) (a x : α) (b : β) :
    (t.insert a b).2.get? x = if x = a then some b else t.get? x := by
  have h := get?_erase t a x
  by_cases hx : x = a <;> grind [insert, get?]

theorem erase_of_new {t : Table α β} {a : α} (h : t.get? a = none) : t.erase a = t := by
  have hne : ∀ e ∈ t.entries, decide (e.1 ≠ a) = true := by
    intro e he
    have := List.lookup_eq_none_iff.mp h e he
    grind
  rw [erase, List.filter_eq_self.mpr hne]

/-- A new key comes last. -/
theorem keys_insert_of_new {t : Table α β} {a : α} (h : t.get? a = none) (b : β) :
    (t.insert a b).2.keys = t.keys ++ [a] := by
  simp [insert, keys, erase_of_new h]

theorem size_insert_of_new {t : Table α β} {a : α} (h : t.get? a = none) (b : β) :
    (t.insert a b).2.size = t.size + 1 := by
  simp [insert, size, erase_of_new h]

end Table

end MarketDag
