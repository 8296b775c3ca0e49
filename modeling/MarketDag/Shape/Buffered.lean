import MarketDag.Shape.Source
import MarketDag.Text.Utf8

/-!
# Buffered values as a source

Where a value may have one of two shapes it is buffered and tried against each of them.  A
buffered record may be a map, whose keys are texts, their bytes or the positions of the fields, or
a list of its fields in their order.  What keeps a value from having a shape is not told apart:
the next shape is tried.
-/

namespace MarketDag.Buffered

/-- The source's monad: a buffered value is looked at. -/
abbrev Read := ReaderT Buffered (Except DecodeFault)

/-- The value does not have the shape. -/
def mismatch {α : Type} : Except DecodeFault α := .error .malformed

/-- A text, or the bytes of one. -/
def text? : Buffered → Option String
  | .text s => some s
  | .bytes b => Utf8.decode? b
  | _ => none

/-- The name of something that has one of several: a text, its bytes, or its position. -/
def name? (names : List String) : Buffered → Option String
  | .integer n => if 0 ≤ n then names[n.toNat]? else none
  | key => key.text?

/-- A choice: its name, or a map from its name to null. -/
def choice (names : List String) (value : Buffered) : Except DecodeFault (Fin names.length) :=
  match value with
  | .text s => choose names s
  | .map [(key, .null)] =>
    match name? names key with
    | some s => choose names s
    | none => mismatch
  | _ => mismatch

/-- Headers: a map from texts to texts. -/
def headers (value : Buffered) : Except DecodeFault Headers :=
  match value with
  | .map entries =>
    entries.foldlM (fun hs e =>
      match e.1.text?, e.2.text? with
      | some k, some v => .ok (hs.insert k v)
      | _, _ => mismatch) .empty
  | _ => mismatch

/-- A decimal: a text or a number. -/
def decimal (value : Buffered) : Except DecodeFault Decimal :=
  match value with
  | .text s => readDecimal s
  | .integer n => readDecimalInt n
  | .float x => readDecimalFloat x
  | _ => mismatch

/-- Is a value missing? -/
def isNull : Buffered → Bool
  | .null => true
  | .absent => true
  | _ => false

/-- A value as a leaf. -/
def leaf : (leaf : Leaf) → Buffered → Except DecodeFault leaf.Value
  | .text, value => (value.text?.map .ok).getD mismatch
  | .decimal, value => value.decimal
  | .date, value => match value with
    | .text s => readDate s
    | _ => mismatch
  | .instant, value => (value.text?.map readInstant).getD mismatch
  | .link, _ => mismatch
  | .count, value => match value with
    | .integer n => readCount n
    | _ => mismatch
  | .headers, value => value.headers
  | .choice names, value => value.choice names
  | .optional inner, value => if value.isNull then .ok none else some <$> leaf inner value

/-- The fields of a record that is a map. -/
def namedFields {σ : Type} (keys : List String) (step : String → σ → Read σ) (start : σ)
    (entries : List (Buffered × Buffered)) : Except DecodeFault σ :=
  entries.foldlM (fun slots e =>
    match name? keys e.1 with
    | some key => (step key slots).run e.2
    | none => mismatch) start

/-- The fields of a record that is a list. -/
def positionalFields {σ : Type} (step : String → σ → Read σ) :
    List String → σ → List Buffered → Except DecodeFault σ
  | _, slots, [] => .ok slots
  | [], _, _ :: _ => mismatch
  | key :: keys, slots, item :: items => do
    positionalFields step keys (← (step key slots).run item) items

/-- Buffered values as a source. -/
def source : Source Read where
  leaf l := fun value => leaf l value
  list item := fun value => match value with
    | .list items => items.mapM item.run
    | _ => mismatch
  optional inner := fun value => if value.isNull then .ok none else some <$> inner.run value
  record _ keys start step finish := fun value => match value with
    | .map entries => do finish .named (← namedFields keys step start entries)
    | .list items => do finish .positional (← positionalFields step keys start items)
    | _ => mismatch
  buffered := fun value => .ok value

end MarketDag.Buffered
