import MarketDag.Http.Exchange
import MarketDag.Json.Reader
import MarketDag.Text.Character

/-!
# Replies to imports

A store answers an import with lines of JSON, of which the first one that is not blank names the
imported root.  Members that are not known do not matter, and of a member that comes twice the last
one counts; a record may also be a list of its members.
-/

namespace MarketDag.ImportReply

/-! ## Lines -/

/-- The characters of the first line that is not blank, without blanks at its ends. -/
def firstLine? (text : String) : Option (List Char) :=
  ((text.toList.splitOn '\n').map trimBoth).find? (· ≠ [])

/-- The JSON value of a line. -/
def parseLine (line : List Char) : Except DecodeFault Json :=
  match Json.parse (line.flatMap Utf8.encodeChar) with
  | (value, some rest) =>
    if value.isWhole ∧ (Json.skip rest).isEmpty then .ok value else .error .malformed
  | (_, none) => .error .malformed

/-! ## Records -/

/-- The values of a record's members by their keys, as far as they are there. -/
structure Members where
  /-- Did the members come as a list? -/
  listed : Bool
  /-- How many there are. -/
  count : Nat
  get? : Nat → Option Json

/-- The members of a record, with these keys in this order. -/
def membersOf (name : String) (keys : List String) : Json → Except DecodeFault Members
  | .object entries _ =>
    .ok ⟨false, entries.length, fun i => do entries.reverse.lookup (← keys[i]?)⟩
  | .list items _ => .ok ⟨true, items.length, fun i => items[i]?⟩
  | value => .error (Json.unexpected (.record name) value)

/-- The fault of a member that is missing. -/
def missing (name : String) (keys : List String) (members : Members) (index : Nat) : DecodeFault :=
  if members.listed then .shortRecord index name keys.length
  else .missingField (keys[index]?.getD "")

/-- A list has no more items than a record has members. -/
def checkCount (keys : List String) (members : Members) : Except DecodeFault Unit :=
  if members.listed ∧ keys.length < members.count then .error .malformed else .ok ()

/-- The text under the key of a link. -/
def linkText (value : Json) : Except DecodeFault String := do
  let keys := ["/"]
  let members ← membersOf "Link" keys value
  match members.get? 0 with
  | none => throw (missing "Link" keys members 0)
  | some text =>
    let text ← Json.asText .text text
    checkCount keys members
    return text

/-- The root's text and the message about its pin, which may be missing. -/
def rootOf (value : Json) : Except DecodeFault (String × String) := do
  let keys := ["Cid", "PinErrorMsg"]
  let members ← membersOf "ImportedRoot" keys value
  let link ← (members.get? 0).mapM linkText
  -- a list ends at its first missing item; an object is read on to its end
  if members.listed ∧ link.isNone then throw (missing "ImportedRoot" keys members 0)
  let pin ← (members.get? 1).mapM (Json.asText .text)
  match link with
  | none => throw (missing "ImportedRoot" keys members 0)
  | some link =>
    checkCount keys members
    return (link, pin.getD "")

/-- The root's text and the message about its pin, in a reply. -/
def replyOf (value : Json) : Except DecodeFault (String × String) := do
  let keys := ["Root"]
  let members ← membersOf "ImportResponse" keys value
  match members.get? 0 with
  | none => throw (missing "ImportResponse" keys members 0)
  | some root =>
    let parts ← rootOf root
    checkCount keys members
    return parts

/-! ## Replies -/

/-- The root that a reply's body names. -/
def parse (body : List UInt8) (status : Status) (path : String) : Except Error Cid := do
  match Utf8.decode? body with
  | none =>
    let fault := (Utf8.fault? body).getD ⟨0, none⟩
    throw (.unexpectedResponse (.badText fault))
  | some text =>
    match firstLine? text with
    | none => throw (.unexpectedResponse .empty)
    | some line =>
      let value ← (parseLine line).mapError .badResponseJson
      let (root, pin) ← (replyOf value).mapError .badResponseJson
      if ¬ pin.isEmpty then
        throw (.refused status .post path s!"failed to pin root: {pin}")
      match Cid.ofText root with
      | .ok cid => return cid
      | .error fault => throw (.unexpectedResponse (.badRoot root fault))

end MarketDag.ImportReply
