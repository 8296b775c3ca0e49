import MarketDag.Ipld.Basic
import MarketDag.Number.Binary64
import MarketDag.Text.Hex

/-!
# Writing trees as JSON

A tree is written without blanks, the entries of a map in the order in which they stand.  A link
is an object with the key `/` and the link's text, a byte string one with the key `/` and an object
with its base 64.
-/

namespace MarketDag.Json

/-- A character inside a string. -/
def escapeChar (c : Char) : List Char :=
  if c = '"' then ['\\', '"']
  else if c = '\\' then ['\\', '\\']
  else if c = '\x08' then ['\\', 'b']
  else if c = '\x0C' then ['\\', 'f']
  else if c = '\n' then ['\\', 'n']
  else if c = '\r' then ['\\', 'r']
  else if c = '\t' then ['\\', 't']
  else if c.toNat < 0x20 then
    ['\\', 'u', '0', '0', Hex.digit (c.toNat / 16), Hex.digit (c.toNat % 16)]
  else [c]

/-- A string between its quotes. -/
def writeString (s : String) : List Char := '"' :: s.toList.flatMap escapeChar ++ ['"']

/-- The characters of a whole number. -/
def writeInteger (n : Int) : List Char :=
  (if n < 0 then ['-'] else []) ++ Nat.toDigits 10 n.natAbs

/-- An object with one entry. -/
def singleton (key : String) (value : List Char) : List Char :=
  '\x7b' :: writeString key ++ ':' :: value ++ ['\x7d']

mutual

/-- The characters of a tree. -/
def write : Ipld → List Char
  | .null => "null".toList
  | .bool b => if b then "true".toList else "false".toList
  | .integer n => writeInteger n
  | .float x => x.toChars
  | .text s => writeString s
  | .bytes b =>
    singleton "/" (singleton "bytes"
      (writeString (String.ofList (Multibase.base64Plain.encodeGroups 6 b))))
  | .list items => '[' :: writeItems items ++ [']']
  | .map entries => '\x7b' :: writeEntries entries ++ ['\x7d']
  | .link cid => singleton "/" (writeString cid.toText)

/-- The items of a list, between commas. -/
def writeItems : List Ipld → List Char
  | [] => []
  | [item] => write item
  | item :: items => write item ++ ',' :: writeItems items

/-- The entries of a map, between commas. -/
def writeEntries : List (String × Ipld) → List Char
  | [] => []
  | [(key, value)] => writeString key ++ ':' :: write value
  | (key, value) :: entries => writeString key ++ ':' :: write value ++ ',' :: writeEntries entries

end

/-- The text of a tree; none where it holds a number that is not finite. -/
def writeTree (tree : Ipld) : Option String :=
  if tree.isFinite then some (String.ofList (write tree)) else none

end MarketDag.Json
