import MarketDag.Proofs.Shape.Written

/-!
# Values that always have a tree

Only an instant may have no canonical form: a value of a shape without instants always has a tree
(`Shape.exists_layout`).  There is no floating-point number in the tree of a value, so that all
numbers of the tree are finite (`Shape.isFinite_layout`).
-/

namespace MarketDag

/-! ## Shapes without instants -/

/-- Has a leaf no instants? -/
def Leaf.instantFree : Leaf → Bool
  | .instant => false
  | .optional inner => inner.instantFree
  | _ => true

mutual

/-- Has a shape no instants? -/
def Shape.instantFree : Shape → Bool
  | .leaf leaf => leaf.instantFree
  | .list item => item.instantFree
  | .record _ fields => fields.instantFree
  | .either _ first second => first.instantFree && second.instantFree

/-- Have fields no instants? -/
def Fields.instantFree : Fields → Bool
  | .nil => true
  | .required _ shape rest => shape.instantFree && rest.instantFree
  | .optional _ shape rest => shape.instantFree && rest.instantFree
  | .defaulted _ leaf _ rest => leaf.instantFree && rest.instantFree

end

theorem Leaf.exists_layout : (leaf : Leaf) → leaf.instantFree = true → (v : leaf.Value) →
    ∃ t, leaf.layout v = .ok t
  | .text, _, _ | .decimal, _, _ | .date, _, _ | .link, _, _ | .count, _, _ | .headers, _, _
  | .choice _, _, _ => ⟨_, rfl⟩
  | .optional _, _, none => ⟨.null, rfl⟩
  | .optional inner, h, some v => inner.exists_layout h v

mutual

/-- Without instants every value has a tree. -/
theorem Shape.exists_layout : (shape : Shape) → shape.instantFree = true → (v : shape.Value) →
    ∃ t, shape.layout v = .ok t
  | .leaf leaf, h, v => leaf.exists_layout h v
  | .list item, h, vs => by
    obtain ⟨ts, hts⟩ := exists_forall₂ fun v (_ : v ∈ vs) => item.exists_layout h v
    exact ⟨.list ts, map_eq_ok.mpr ⟨ts, mapM_eq_ok_of_forall₂ hts, rfl⟩⟩
  | .record _ fields, h, v => by
    obtain ⟨es, hes⟩ := fields.exists_layout h v
    exact ⟨.map es, map_eq_ok.mpr ⟨es, hes, rfl⟩⟩
  | .either _ first _, h, .inl v => first.exists_layout (Bool.and_eq_true_iff.mp h).1 v
  | .either _ _ second, h, .inr v => second.exists_layout (Bool.and_eq_true_iff.mp h).2 v

theorem Fields.exists_layout : (fields : Fields) → fields.instantFree = true →
    (v : fields.Value) → ∃ es, fields.layout v = .ok es
  | .nil, _, _ => ⟨[], rfl⟩
  | .required key shape rest, h, (v, vs) => by
    obtain ⟨hshape, hrest⟩ := Bool.and_eq_true_iff.mp h
    obtain ⟨t, ht⟩ := shape.exists_layout hshape v
    obtain ⟨es, hes⟩ := rest.exists_layout hrest vs
    exact ⟨(key, t) :: es, bind_eq_ok.mpr ⟨t, ht, bind_eq_ok.mpr ⟨es, hes, rfl⟩⟩⟩
  | .optional key shape rest, h, (v, vs) => by
    obtain ⟨hshape, hrest⟩ := Bool.and_eq_true_iff.mp h
    obtain ⟨es, hes⟩ := rest.exists_layout hrest vs
    cases v with
    | none => exact ⟨(key, .null) :: es, bind_eq_ok.mpr ⟨_, rfl, bind_eq_ok.mpr ⟨es, hes, rfl⟩⟩⟩
    | some v =>
      obtain ⟨t, ht⟩ := shape.exists_layout hshape v
      exact ⟨(key, t) :: es, bind_eq_ok.mpr ⟨t, ht, bind_eq_ok.mpr ⟨es, hes, rfl⟩⟩⟩
  | .defaulted key leaf _ rest, h, (v, vs) => by
    obtain ⟨hleaf, hrest⟩ := Bool.and_eq_true_iff.mp h
    obtain ⟨t, ht⟩ := leaf.exists_layout hleaf v
    obtain ⟨es, hes⟩ := rest.exists_layout hrest vs
    exact ⟨(key, t) :: es, bind_eq_ok.mpr ⟨t, ht, bind_eq_ok.mpr ⟨es, hes, rfl⟩⟩⟩

end

/-! ## Finite numbers -/

namespace Ipld

theorem finiteItems_iff {items : List Ipld} :
    finiteItems items = true ↔ ∀ t ∈ items, t.isFinite = true := by
  induction items with
  | nil => simp [finiteItems]
  | cons t items ih => rw [finiteItems, Bool.and_eq_true, ih, List.forall_mem_cons]

theorem finiteEntries_iff {entries : List (String × Ipld)} :
    finiteEntries entries = true ↔ ∀ e ∈ entries, e.2.isFinite = true := by
  induction entries with
  | nil => simp [finiteEntries]
  | cons e entries ih => rw [finiteEntries, Bool.and_eq_true, ih, List.forall_mem_cons]

theorem hereditary_isFinite : Hereditary true fun _ t => t.isFinite = true where
  mono h _ := h
  null := rfl
  integer _ _ := rfl
  text _ := rfl
  link _ _ := rfl
  list h := finiteItems_iff.mpr h
  map _ h := finiteEntries_iff.mpr h

end Ipld

/-- All numbers of a tree that stands for a value are finite. -/
theorem Shape.isFinite_of_writes {shape : Shape} {v : shape.Value} {t : Ipld}
    (hshape : shape.Sound true = true) (h : shape.Writes v t) : t.isFinite = true :=
  shape.hereditary_of_writes Ipld.hereditary_isFinite hshape h

/-- All numbers of the canonical tree of a value are finite. -/
theorem Shape.isFinite_layout {shape : Shape} {v : shape.Value} {t : Ipld}
    (hshape : shape.Sound true = true) (h : shape.layout v = .ok t) :
    t.canonical.isFinite = true :=
  shape.isFinite_of_writes hshape (shape.writes_canonical hshape h)

end MarketDag
