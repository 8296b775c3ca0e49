import MarketDag.Shape.Buffered

/-!
# Reading along a shape

A value of a shape is read from any source.  Fields may come in any order; an unknown key and a
key that comes twice are faults before the field's value is looked at.
-/

namespace MarketDag

/-- Tries one reading of a buffered value, then another. -/
def firstOf {α β : Type} (name : String) (first : Buffered.Read α) (second : Buffered.Read β)
    (value : Buffered) : Except DecodeFault (α ⊕ β) :=
  match first.run value with
  | .ok a => .ok (.inl a)
  | .error _ =>
    match second.run value with
    | .ok b => .ok (.inr b)
    | .error _ => .error (.noAlternative name)

mutual

/-- Reads a value of a shape. -/
def Shape.read {m : Type → Type} [Monad m] [MonadExceptOf DecodeFault m] (src : Source m) :
    (shape : Shape) → m shape.Value
  | .leaf leaf => src.leaf leaf
  | .list item => src.list (item.read src)
  | .record name fields =>
    src.record name fields.keys fields.empty (fields.readField src fields.keys)
      (fun arrangement => fields.finish name fields.keys.length arrangement 0)
  | .either name first second => do
    let value ← src.buffered
    MonadExcept.ofExcept
      (firstOf name (first.read Buffered.source) (second.read Buffered.source) value)

/-- Reads the field of a key into the fields read so far. -/
def Fields.readField {m : Type → Type} [Monad m] [MonadExceptOf DecodeFault m] (src : Source m)
    (known : List String) : (fields : Fields) → (key : String) → fields.Slots → m fields.Slots
  | .nil, key, _ => throw (.unknownField key known)
  | .required key shape rest, name, (slot, slots) =>
    if name = key then
      if slot.isSome then throw (.duplicateField key)
      else do return (some (← shape.read src), slots)
    else do return (slot, ← rest.readField src known name slots)
  | .optional key shape rest, name, (slot, slots) =>
    if name = key then
      if slot.isSome then throw (.duplicateField key)
      else do return (some (← src.optional (shape.read src)), slots)
    else do return (slot, ← rest.readField src known name slots)
  | .defaulted key leaf _ rest, name, (slot, slots) =>
    if name = key then
      if slot.isSome then throw (.duplicateField key)
      else do return (some (← src.leaf leaf), slots)
    else do return (slot, ← rest.readField src known name slots)

end

end MarketDag
