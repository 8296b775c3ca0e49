import MarketDag.Shape.Basic
import MarketDag.Shape.Fault

/-!
# Sources

A source tells how a format gives leaves, lists and records; `Shape.read`, in
`MarketDag.Shape.Reader`, puts them together along a shape.  This file holds what the sources have
in common: the fields of a record that were read so far, and what becomes of them at its end.
-/

namespace MarketDag

/-- How the fields of a record arrive: under their keys, or in their order. -/
inductive Arrangement where
  | named
  | positional
deriving DecidableEq, Repr

/-- A value whose shape is not known yet, as it stood in a block. -/
inductive Buffered where
  | null
  /-- A missing value, as binary trees write it. -/
  | absent
  | bool (b : Bool)
  | integer (n : Int)
  | float (x : Binary64)
  | text (s : String)
  | bytes (b : List UInt8)
  | list (items : List Buffered)
  | map (entries : List (Buffered × Buffered))

/-- How a format is read, in a monad that stands at the place of a value. -/
structure Source (m : Type → Type) where
  leaf : (leaf : Leaf) → m leaf.Value
  list : {α : Type} → m α → m (List α)
  optional : {α : Type} → m α → m (Option α)
  /-- A record of this name with these keys. The fields read so far start from a value, a step
  reads one field by its key, and the end makes them a record. -/
  record : {σ α : Type} → (name : String) → (keys : List String) → σ → (String → σ → m σ) →
    (Arrangement → σ → Except DecodeFault α) → m α
  /-- A value of any shape. -/
  buffered : m Buffered

/-! ## Fields -/

/-- The fields of a record that were read so far. -/
@[reducible] def Fields.Slots : Fields → Type
  | .nil => Unit
  | .required _ shape rest => Option shape.Value × rest.Slots
  | .optional _ shape rest => Option (Option shape.Value) × rest.Slots
  | .defaulted _ leaf _ rest => Option leaf.Value × rest.Slots

/-- No field was read so far. -/
def Fields.empty : (fields : Fields) → fields.Slots
  | .nil => ()
  | .required _ _ rest => (none, rest.empty)
  | .optional _ _ rest => (none, rest.empty)
  | .defaulted _ _ _ rest => (none, rest.empty)

/-- The fault of a field that is missing from a record of `total` fields. -/
def Arrangement.missing (arrangement : Arrangement) (name key : String) (index total : Nat) :
    DecodeFault :=
  match arrangement with
  | .named => .missingField key
  | .positional => .shortRecord index name total

/-- The record that the fields make from the one at `index` on: a missing field takes its default
if it has one, and an optional one is null if the fields came under their keys. -/
def Fields.finish (name : String) (total : Nat) (arrangement : Arrangement) :
    (index : Nat) → (fields : Fields) → fields.Slots → Except DecodeFault fields.Value
  | _, .nil, _ => .ok ()
  | index, .required key _ rest, (slot, slots) => do
    match slot with
    | some v => return (v, ← rest.finish name total arrangement (index + 1) slots)
    | none => throw (arrangement.missing name key index total)
  | index, .optional key _ rest, (slot, slots) => do
    match slot with
    | some v => return (v, ← rest.finish name total arrangement (index + 1) slots)
    | none =>
      if arrangement = .named then
        return (none, ← rest.finish name total arrangement (index + 1) slots)
      else throw (arrangement.missing name key index total)
  | index, .defaulted _ _ value rest, (slot, slots) => do
    return (slot.getD value, ← rest.finish name total arrangement (index + 1) slots)

/-! ## Names and texts -/

/-- The choice of a name. -/
def choose (names : List String) (name : String) : Except DecodeFault (Fin names.length) :=
  match names.finIdxOf? name with
  | some i => .ok i
  | none => .error (.unknownVariant name names)

/-- The decimal of a text. -/
def readDecimal (s : String) : Except DecodeFault Decimal :=
  (Decimal.ofText s).mapError .decimal

/-- The decimal of a whole number. -/
def readDecimalInt (n : Int) : Except DecodeFault Decimal :=
  (Decimal.ofInt n).mapError .decimal

/-- The decimal of a binary number. -/
def readDecimalFloat (x : Binary64) : Except DecodeFault Decimal :=
  (Decimal.ofBinary64 x).mapError .decimal

/-- The date of a text. -/
def readDate (s : String) : Except DecodeFault Date := (Date.ofText s).mapError .calendar

/-- The instant of a text. -/
def readInstant (s : String) : Except DecodeFault Instant :=
  (Instant.ofText s).mapError .calendar

/-- A number below 2 ^ 32. -/
def readCount (n : Int) : Except DecodeFault (Fin UInt32.size) :=
  if h : 0 ≤ n ∧ n.toNat < UInt32.size then .ok ⟨n.toNat, h.2⟩ else .error (.wrongValue n .count)

end MarketDag
