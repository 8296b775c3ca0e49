import MarketDag.Ipld.Basic
import MarketDag.Number.Decimal
import MarketDag.Shape.Headers
import MarketDag.Time.Instant

/-!
# Shapes

A shape is the form that a document has in a block, as data: leaves, lists, records of named
fields, and a choice between two shapes.  `Shape.Value` is the type of the values of a shape, and
a type with a form of its own (`Shaped`) is tied to the values of its shape.  A type whose values
have names (`Choice`) has the form of these names.
-/

namespace MarketDag

/-! ## Leaves -/

/-- The form of a value without parts. -/
inductive Leaf where
  | text
  | decimal
  | date
  | instant
  | link
  /-- A whole number below 2 ^ 32. -/
  | count
  | headers
  /-- One of several names. -/
  | choice (names : List String)
  /-- Null, or a value of another form. -/
  | optional (inner : Leaf)

/-- The values of a leaf. -/
@[reducible] def Leaf.Value : Leaf → Type
  | .text => String
  | .decimal => Decimal
  | .date => Date
  | .instant => Instant
  | .link => Cid
  | .count => Fin UInt32.size
  | .headers => Headers
  | .choice names => Fin names.length
  | .optional inner => Option inner.Value

/-! ## Shapes -/

mutual

/-- The form of a value in a block. -/
inductive Shape where
  | leaf (leaf : Leaf)
  | list (item : Shape)
  /-- Named fields; the name is the one that messages give. -/
  | record (name : String) (fields : Fields)
  /-- The first of two shapes that fits. -/
  | either (name : String) (first second : Shape)

/-- The fields of a record in their order. -/
inductive Fields where
  | nil
  | required (key : String) (shape : Shape) (rest : Fields)
  /-- A field that may be null or missing. -/
  | optional (key : String) (shape : Shape) (rest : Fields)
  /-- A field with a value for when it is missing. -/
  | defaulted (key : String) (leaf : Leaf) (value : leaf.Value) (rest : Fields)

end

mutual

/-- The values of a shape. -/
@[reducible] def Shape.Value : Shape → Type
  | .leaf leaf => leaf.Value
  | .list item => List item.Value
  | .record _ fields => fields.Value
  | .either _ first second => first.Value ⊕ second.Value

/-- The values of the fields of a record. -/
@[reducible] def Fields.Value : Fields → Type
  | .nil => Unit
  | .required _ shape rest => shape.Value × rest.Value
  | .optional _ shape rest => Option shape.Value × rest.Value
  | .defaulted _ leaf _ rest => leaf.Value × rest.Value

end

/-- The keys of the fields of a record. -/
def Fields.keys : Fields → List String
  | .nil => []
  | .required key _ rest => key :: rest.keys
  | .optional key _ rest => key :: rest.keys
  | .defaulted key _ _ rest => key :: rest.keys

/-! ## Types with a shape -/

/-- A type whose values are written in a shape. -/
class Shaped (α : Type) where
  shape : Shape
  toValue : α → shape.Value
  ofValue : shape.Value → α
  ofValue_toValue : ∀ a, ofValue (toValue a) = a := by intro a; rfl

/-! ## Layout -/

/-- Why a value has no tree. -/
inductive LayoutFault where
  /-- An instant without a canonical form. -/
  | noCanonicalForm (t : Instant)

/-- The wording of a fault. -/
def LayoutFault.message : LayoutFault → String
  | .noCanonicalForm t => s!"{t} has no YYYY-MM-DDTHH:MM:SSZ form"

/-- The tree of a leaf. -/
def Leaf.layout : (leaf : Leaf) → leaf.Value → Except LayoutFault Ipld
  | .text, s => .ok (.text s)
  | .decimal, d => .ok (.text d.canonicalText)
  | .date, d => .ok (.text d.toText)
  | .instant, t =>
    match t.canonical? with
    | some s => .ok (.text s)
    | none => .error (.noCanonicalForm t)
  | .link, cid => .ok (.link cid)
  | .count, n => .ok (.integer n.val)
  | .headers, hs => .ok (.map (hs.entries.map fun h => (h.1, .text h.2)))
  | .choice names, i => .ok (.text (names.get i))
  | .optional _, none => .ok .null
  | .optional inner, some v => inner.layout v

mutual

/-- The tree of a value, the fields of records in their own order. -/
def Shape.layout : (shape : Shape) → shape.Value → Except LayoutFault Ipld
  | .leaf leaf, v => leaf.layout v
  | .list item, vs => .list <$> vs.mapM item.layout
  | .record _ fields, v => .map <$> fields.layout v
  | .either _ first _, .inl v => first.layout v
  | .either _ _ second, .inr v => second.layout v

/-- The entries of the fields of a record. -/
def Fields.layout : (fields : Fields) → fields.Value → Except LayoutFault (List (String × Ipld))
  | .nil, _ => .ok []
  | .required key shape rest, (v, vs) => do
    let tree ← shape.layout v
    return (key, tree) :: (← rest.layout vs)
  | .optional key shape rest, (v, vs) => do
    let tree ← match v with
      | none => pure Ipld.null
      | some v => shape.layout v
    return (key, tree) :: (← rest.layout vs)
  | .defaulted key leaf _ rest, (v, vs) => do
    let tree ← leaf.layout v
    return (key, tree) :: (← rest.layout vs)

end

/-- The tree of a value of a type with a shape. -/
def layout {α : Type} [Shaped α] (a : α) : Except LayoutFault Ipld :=
  (Shaped.shape α).layout (Shaped.toValue a)

/-! ## Choices -/

/-- A type whose values have names. -/
class Choice (α : Type) where
  names : List String
  index : α → Fin names.length
  ofIndex : Fin names.length → α
  ofIndex_index : ∀ a, ofIndex (index a) = a

namespace Choice

variable {α : Type} [Choice α]

/-- The name of a value. -/
def name (a : α) : String := (names α).get (index a)

/-- The value of a name. -/
def ofName? (s : String) : Option α := ((names α).finIdxOf? s).map ofIndex

/-- The form of a type whose values have names. -/
abbrev leaf (α : Type) [Choice α] : Leaf := .choice (names α)

end Choice

end MarketDag
