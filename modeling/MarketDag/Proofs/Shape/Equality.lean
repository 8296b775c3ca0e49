import Mathlib.Data.List.Forall2
import MarketDag.Proofs.Number.Decimal
import MarketDag.Shape.Basic

/-!
# Equality along a shape

Two values of a shape are the same when they agree part by part, decimals by the numbers that they
denote.  Each value has a normal one, and two are the same exactly when their normal values are
equal (`Shape.same_iff`); the tree of a value is that of its normal value (`Shape.layout_normal`).
-/

namespace MarketDag

/-! ## The same values -/

/-- Do two values of a leaf agree? -/
def Leaf.Same : (leaf : Leaf) → leaf.Value → leaf.Value → Prop
  | .decimal => Decimal.SameValue
  | .optional inner => Option.Rel inner.Same
  | .text => Eq
  | .date => Eq
  | .instant => Eq
  | .link => Eq
  | .count => Eq
  | .headers => Eq
  | .choice _ => Eq

mutual

/-- Do two values of a shape agree part by part? -/
def Shape.Same : (shape : Shape) → shape.Value → shape.Value → Prop
  | .leaf leaf => leaf.Same
  | .list item => List.Forall₂ item.Same
  | .record _ fields => fields.Same
  | .either _ first second => Sum.LiftRel first.Same second.Same

/-- Do the fields of two records agree one by one? -/
def Fields.Same : (fields : Fields) → fields.Value → fields.Value → Prop
  | .nil => fun _ _ => True
  | .required _ shape rest => fun a b => shape.Same a.1 b.1 ∧ rest.Same a.2 b.2
  | .optional _ shape rest => fun a b => Option.Rel shape.Same a.1 b.1 ∧ rest.Same a.2 b.2
  | .defaulted _ leaf _ rest => fun a b => leaf.Same a.1 b.1 ∧ rest.Same a.2 b.2

end

/-! ## Normal values -/

/-- The value of a leaf with its decimal in canonical form. -/
def Leaf.normal : (leaf : Leaf) → leaf.Value → leaf.Value
  | .decimal => Decimal.normalize
  | .optional inner => Option.map inner.normal
  | .text => id
  | .date => id
  | .instant => id
  | .link => id
  | .count => id
  | .headers => id
  | .choice _ => id

mutual

/-- The value with all its decimals in canonical form. -/
def Shape.normal : (shape : Shape) → shape.Value → shape.Value
  | .leaf leaf => leaf.normal
  | .list item => List.map item.normal
  | .record _ fields => fields.normal
  | .either _ first second => Sum.map first.normal second.normal

/-- The fields with all their decimals in canonical form. -/
def Fields.normal : (fields : Fields) → fields.Value → fields.Value
  | .nil => id
  | .required _ shape rest => fun v => (shape.normal v.1, rest.normal v.2)
  | .optional _ shape rest => fun v => (v.1.map shape.normal, rest.normal v.2)
  | .defaulted _ leaf _ rest => fun v => (leaf.normal v.1, rest.normal v.2)

end

theorem optionRel_iff_map_eq {α β : Type} {f : α → β} {r : α → α → Prop}
    (h : ∀ a b, r a b ↔ f a = f b) (a b : Option α) :
    Option.Rel r a b ↔ a.map f = b.map f := by
  cases a <;> cases b <;> simp [h]

theorem forall₂_iff_map_eq {α β : Type} {f : α → β} {r : α → α → Prop}
    (h : ∀ a b, r a b ↔ f a = f b) (as bs : List α) :
    List.Forall₂ r as bs ↔ as.map f = bs.map f := by
  induction as generalizing bs with
  | nil => cases bs <;> simp
  | cons a as ih => cases bs <;> simp [h, ih]

theorem Leaf.same_iff (leaf : Leaf) (a b : leaf.Value) :
    leaf.Same a b ↔ leaf.normal a = leaf.normal b := by
  cases leaf with
  | decimal => exact Decimal.normalize_eq_iff.symm
  | optional inner => exact optionRel_iff_map_eq (same_iff inner) a b
  | _ => exact Iff.rfl

mutual

/-- Two values are the same exactly when their normal values are equal. -/
theorem Shape.same_iff : (shape : Shape) → (a b : shape.Value) →
    (shape.Same a b ↔ shape.normal a = shape.normal b)
  | .leaf leaf, a, b => leaf.same_iff a b
  | .list item, a, b => forall₂_iff_map_eq item.same_iff a b
  | .record _ fields, a, b => fields.same_iff a b
  | .either _ first _, .inl a, .inl b => by
    simpa [Shape.Same, Shape.normal] using first.same_iff a b
  | .either _ _ second, .inr a, .inr b => by
    simpa [Shape.Same, Shape.normal] using second.same_iff a b
  | .either _ _ _, .inl _, .inr _ => by simp [Shape.Same, Shape.normal]
  | .either _ _ _, .inr _, .inl _ => by simp [Shape.Same, Shape.normal]

theorem Fields.same_iff : (fields : Fields) → (a b : fields.Value) →
    (fields.Same a b ↔ fields.normal a = fields.normal b)
  | .nil, _, _ => by simp [Fields.Same]
  | .required _ shape rest, a, b => by
    simp [Fields.Same, Fields.normal, shape.same_iff, rest.same_iff]
  | .optional _ shape rest, a, b => by
    simp [Fields.Same, Fields.normal, optionRel_iff_map_eq shape.same_iff, rest.same_iff]
  | .defaulted _ leaf _ rest, a, b => by
    simp [Fields.Same, Fields.normal, leaf.same_iff, rest.same_iff]

end

theorem Leaf.normal_normal (leaf : Leaf) (v : leaf.Value) :
    leaf.normal (leaf.normal v) = leaf.normal v := by
  cases leaf with
  | decimal => exact Decimal.normalize_normalize v
  | optional inner =>
    cases v with
    | none => rfl
    | some v => exact congrArg some (normal_normal inner v)
  | _ => rfl

mutual

theorem Shape.normal_normal : (shape : Shape) → (v : shape.Value) →
    shape.normal (shape.normal v) = shape.normal v
  | .leaf leaf, v => leaf.normal_normal v
  | .list item, vs => by
    have hitem : item.normal ∘ item.normal = item.normal := funext item.normal_normal
    simp [Shape.normal, hitem]
  | .record _ fields, v => fields.normal_normal v
  | .either _ first _, .inl v => congrArg Sum.inl (first.normal_normal v)
  | .either _ _ second, .inr v => congrArg Sum.inr (second.normal_normal v)

theorem Fields.normal_normal : (fields : Fields) → (v : fields.Value) →
    fields.normal (fields.normal v) = fields.normal v
  | .nil, _ => rfl
  | .required _ shape rest, (v, vs) => by
    simp [Fields.normal, shape.normal_normal v, rest.normal_normal vs]
  | .optional _ shape rest, (v, vs) => by
    have hshape : shape.normal ∘ shape.normal = shape.normal := funext shape.normal_normal
    simp [Fields.normal, hshape, rest.normal_normal vs]
  | .defaulted _ leaf _ rest, (v, vs) => by
    simp [Fields.normal, leaf.normal_normal v, rest.normal_normal vs]

end

/-- The normal value of a value is the same as the value. -/
theorem Shape.same_normal (shape : Shape) (v : shape.Value) : shape.Same (shape.normal v) v :=
  (shape.same_iff _ _).mpr (shape.normal_normal v)

/-! ## Layout -/

theorem Leaf.layout_normal (leaf : Leaf) (v : leaf.Value) :
    leaf.layout (leaf.normal v) = leaf.layout v := by
  cases leaf with
  | decimal => exact congrArg (Except.ok ∘ Ipld.text) (Decimal.canonicalText_normalize v)
  | optional inner =>
    cases v with
    | none => rfl
    | some v => exact layout_normal inner v
  | _ => rfl

mutual

/-- The tree of a value is that of its normal value. -/
theorem Shape.layout_normal : (shape : Shape) → (v : shape.Value) →
    shape.layout (shape.normal v) = shape.layout v
  | .leaf leaf, v => leaf.layout_normal v
  | .list item, vs => by
    have hitem : item.layout ∘ item.normal = item.layout := funext item.layout_normal
    simp [Shape.layout, Shape.normal, List.mapM_map, hitem]
  | .record _ fields, v => by
    rw [Shape.layout, Shape.layout, Shape.normal, fields.layout_normal v]
  | .either _ first _, .inl v => first.layout_normal v
  | .either _ _ second, .inr v => second.layout_normal v

theorem Fields.layout_normal : (fields : Fields) → (v : fields.Value) →
    fields.layout (fields.normal v) = fields.layout v
  | .nil, _ => rfl
  | .required key shape rest, (v, vs) => by
    simp only [Fields.layout, Fields.normal, shape.layout_normal v, rest.layout_normal vs]
  | .optional key shape rest, (v, vs) => by
    cases v <;> simp only [Fields.layout, Fields.normal, Option.map_none, Option.map_some,
      shape.layout_normal, rest.layout_normal vs]
  | .defaulted key leaf _ rest, (v, vs) => by
    simp only [Fields.layout, Fields.normal, leaf.layout_normal v, rest.layout_normal vs]

end

/-- Values that are the same have the same tree. -/
theorem Shape.layout_eq_of_same {shape : Shape} {a b : shape.Value} (h : shape.Same a b) :
    shape.layout a = shape.layout b := by
  rw [← shape.layout_normal a, (shape.same_iff a b).mp h, shape.layout_normal b]

end MarketDag
