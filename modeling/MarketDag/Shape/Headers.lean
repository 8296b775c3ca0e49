/-!
# Headers

The texts of a request's headers by their names.  The names are in ascending order by construction,
so that equal headers are equal lists.
-/

namespace MarketDag

/-- Texts by their names, in ascending order of the names. -/
structure Headers where
  entries : List (String × String)
  ascending : entries.Pairwise fun a b => a.1 < b.1
deriving DecidableEq

namespace Headers

/-- No headers. -/
def empty : Headers := ⟨[], .nil⟩

/-- Puts an entry in its place, instead of an earlier one of its name. -/
def place (entry : String × String) : List (String × String) → List (String × String)
  | [] => [entry]
  | e :: es =>
    if e.1 < entry.1 then e :: place entry es
    else if e.1 = entry.1 then entry :: es
    else entry :: e :: es

theorem eq_or_mem_of_mem_place {entry x : String × String} {es : List (String × String)}
    (h : x ∈ place entry es) : x = entry ∨ x ∈ es := by
  induction es with
  | nil => simpa [place] using h
  | cons e es ih => grind [place]

theorem pairwise_place (entry : String × String) {es : List (String × String)}
    (h : es.Pairwise fun a b => a.1 < b.1) :
    (place entry es).Pairwise fun a b => a.1 < b.1 := by
  induction es with
  | nil => simp [place]
  | cons e es ih =>
    rw [List.pairwise_cons] at h
    unfold place
    split
    · rename_i hlt
      refine List.pairwise_cons.mpr ⟨fun x hx => ?_, ih h.2⟩
      rcases eq_or_mem_of_mem_place hx with rfl | hx
      · exact hlt
      · exact h.1 x hx
    · split
      · rename_i heq
        exact List.pairwise_cons.mpr ⟨fun x hx => heq ▸ h.1 x hx, h.2⟩
      · rename_i hlt hne
        have hgt : entry.1 < e.1 := Decidable.byContradiction fun h =>
          hne (String.le_antisymm (String.not_lt.mp h) (String.not_lt.mp hlt))
        refine List.pairwise_cons.mpr ⟨fun x hx => ?_, List.pairwise_cons.mpr h⟩
        rcases List.mem_cons.mp hx with rfl | hx
        · exact hgt
        · exact String.lt_trans hgt (h.1 x hx)

/-- Headers with one more, which replaces an earlier one of its name. -/
def insert (hs : Headers) (name text : String) : Headers :=
  ⟨place (name, text) hs.entries, pairwise_place _ hs.ascending⟩

end Headers

end MarketDag
