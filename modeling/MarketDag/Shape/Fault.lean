import MarketDag.Address.Cid
import MarketDag.Number.Binary64
import MarketDag.Number.Decimal.Reader
import MarketDag.Text.Character
import MarketDag.Time.Instant

/-!
# Faults of decoding

Why bytes are no value of an expected form.  Bytes that are not even well-formed (`malformed`)
have no wording; every other cause has one.
-/

namespace MarketDag

/-- What was found where something else was expected. -/
inductive Found where
  | null
  /-- A missing value, as binary trees write it. -/
  | absent
  | boolean (b : Bool)
  | integer (n : Int)
  /-- An integer beyond sixty-four bits. -/
  | wideInteger (n : Int)
  | float (x : Binary64)
  | text (s : String)
  | bytes
  | sequence
  | map
  | link

/-- The wording of what was found. -/
def Found.message : Found → String
  | .null => "null"
  | .absent => "Option value"
  | .boolean b => s!"boolean `{b}`"
  | .integer n => s!"integer `{n}`"
  | .wideInteger n => s!"integer `{n}` as i128"
  | .float x => s!"floating point `{x.toText}`"
  | .text s => s!"string {quoted s}"
  | .bytes => "byte array"
  | .sequence => "sequence"
  | .map => "map"
  | .link => "newtype struct"

/-- What was expected. -/
inductive Expected where
  | text
  | sequence
  | record (name : String)
  | decimal
  | date
  | unit
  | variant
  | count
  | map
  | anything

/-- The wording of what was expected. -/
def Expected.message : Expected → String
  | .text => "a string"
  | .sequence => "a sequence"
  | .record name => s!"struct {name}"
  | .decimal => "a decimal string or number"
  | .date => "a formatted date string"
  | .unit => "unit"
  | .variant => "variant identifier"
  | .count => "u32"
  | .map => "a map"
  | .anything => "any value"

/-- Why bytes are no value of an expected form. -/
inductive DecodeFault where
  /-- The bytes are not well-formed. -/
  | malformed
  /-- More bytes follow a complete value. -/
  | trailing
  | missingField (key : String)
  | unknownField (key : String) (known : List String)
  | duplicateField (key : String)
  | unknownVariant (name : String) (known : List String)
  | wrongType (found : Found) (expected : Expected)
  /-- Too few elements for a record of so many fields. -/
  | shortRecord (size : Nat) (name : String) (fields : Nat)
  /-- An integer outside the range that is expected. -/
  | wrongValue (n : Int) (expected : Expected)
  | duplicateKey
  /-- None of the alternatives of a name fits. -/
  | noAlternative (name : String)
  | decimal (fault : Decimal.Fault)
  | calendar (fault : Calendar.Fault)
  /-- Bytes in place of a link that cannot hold one. -/
  | notALink
  /-- A text in place of a link that names none. -/
  | badLinkText (text : String)
  | badLinkBytes (fault : Cid.Fault)
  /-- A text that is no base 64. -/
  | badBase (text : String)
  /-- A link where only plain values are kept. -/
  | strayLink

/-- Names between accents, as messages list them. -/
def listNames (names : List String) : String :=
  match names with
  | [] => "there are no fields"
  | [a] => s!"expected `{a}`"
  | [a, b] => s!"expected `{a}` or `{b}`"
  | names => "expected one of " ++ ", ".intercalate (names.map fun n => s!"`{n}`")

/-- The wording of a fault, if it has one. -/
def DecodeFault.message : DecodeFault → Option String
  | .malformed => none
  | .trailing => "trailing data"
  | .missingField key => s!"missing field `{key}`"
  | .unknownField key known => s!"unknown field `{key}`, {listNames known}"
  | .duplicateField key => s!"duplicate field `{key}`"
  | .unknownVariant name known => s!"unknown variant `{name}`, {listNames known}"
  | .wrongType found expected => s!"invalid type: {found.message}, expected {expected.message}"
  | .shortRecord size name fields =>
    s!"invalid length {size}, expected struct {name} with {fields} element" ++
      (if fields = 1 then "" else "s")
  | .wrongValue n expected => s!"invalid value: integer `{n}`, expected {expected.message}"
  | .duplicateKey => "Duplicate map key"
  | .noAlternative name => s!"data did not match any variant of untagged enum {name}"
  | .decimal fault => fault.message
  | .calendar fault => fault.message
  | .notALink => "Invalid CID"
  | .badLinkText text => s!"Invalid CID `{text}`"
  | .badLinkBytes fault => s!"Failed to deserialize CID: {fault.message}"
  | .badBase text => s!"Cannot base decode bytes `{text}`"
  | .strayLink => "Only bytes can be deserialized into a CID"

end MarketDag
