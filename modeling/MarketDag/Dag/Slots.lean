import MarketDag.Document.Kind

/-!
# Slots

One value for each family, in a fixed order: the four parts of a product's metadata, or of anything
that is made from them part by part.
-/

namespace MarketDag

/-- A value for each family. -/
structure Slots (α : Family → Type) where
  outcomeSpace : α .outcomeSpace
  outcomePoint : α .outcomePoint
  oracleConfig : α .oracleConfig
  oracleFallback : α .oracleFallback

namespace Slots

variable {α β : Family → Type}

/-- The value of a family. -/
def get (s : Slots α) : (f : Family) → α f
  | .outcomeSpace => s.outcomeSpace
  | .outcomePoint => s.outcomePoint
  | .oracleConfig => s.oracleConfig
  | .oracleFallback => s.oracleFallback

@[ext] theorem ext_get {s t : Slots α} (h : ∀ f, s.get f = t.get f) : s = t := by
  cases s
  cases t
  have h1 := h .outcomeSpace
  have h2 := h .outcomePoint
  have h3 := h .oracleConfig
  have h4 := h .oracleFallback
  simp_all [get]

/-- The slots with given values. -/
def ofFn (g : (f : Family) → α f) : Slots α := ⟨g _, g _, g _, g _⟩

@[simp] theorem get_ofFn (g : (f : Family) → α f) (f : Family) : (ofFn g).get f = g f := by
  cases f <;> rfl

/-- Changes every value. -/
def map (g : (f : Family) → α f → β f) (s : Slots α) : Slots β := ofFn fun f => g f (s.get f)

@[simp] theorem get_map (g : (f : Family) → α f → β f) (s : Slots α) (f : Family) :
    (s.map g).get f = g f (s.get f) := get_ofFn _ f

/-- Changes every value in order, as far as that goes well. -/
def mapM {m : Type → Type} [Monad m] (g : (f : Family) → α f → m (β f)) (s : Slots α) :
    m (Slots β) := do
  let outcomeSpace ← g _ s.outcomeSpace
  let outcomePoint ← g _ s.outcomePoint
  let oracleConfig ← g _ s.oracleConfig
  let oracleFallback ← g _ s.oracleFallback
  return ⟨outcomeSpace, outcomePoint, oracleConfig, oracleFallback⟩

/-- The values in order. -/
def toList {γ : Type} (s : Slots fun _ => γ) : List γ :=
  [s.outcomeSpace, s.outcomePoint, s.oracleConfig, s.oracleFallback]

end Slots

end MarketDag
