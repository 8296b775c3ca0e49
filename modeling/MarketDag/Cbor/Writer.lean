import MarketDag.Cbor.Head
import MarketDag.Ipld.Basic
import MarketDag.Text.Utf8

/-!
# Writing binary trees

Every tree has one written form: heads are as short as they can be, floating-point numbers take
eight bytes, and the entries of a map are sorted by the length of their keys and then by their
bytes.
-/

namespace MarketDag.Cbor

/-- A text with its head. -/
def writeText (s : String) : List UInt8 :=
  let bytes := Utf8.encode s
  writeHead .text bytes.length ++ bytes

/-- A byte string with its head. -/
def writeBytes (b : List UInt8) : List UInt8 := writeHead .bytes b.length ++ b

/-- A whole number. -/
def writeInteger (n : Int) : List UInt8 :=
  if 0 ≤ n then writeHead .unsigned n.toNat else writeHead .negative (-1 - n).toNat

/-- A link: the tag of links and the binary identifier after a zero byte. -/
def writeLink (cid : Cid) : List UInt8 :=
  writeHead .tag linkTag ++ writeBytes (0 :: cid.toBytes)

mutual

/-- The bytes of a tree. -/
def write : Ipld → List UInt8
  | .null => [nullByte]
  | .bool b => [if b then 0xF5 else 0xF4]
  | .integer n => writeInteger n
  | .float x => 0xFB :: x.toBytes
  | .text s => writeText s
  | .bytes b => writeBytes b
  | .list items => writeHead .list items.length ++ writeItems items
  | .map entries =>
    writeHead .map entries.length ++
      (sortEntries shorterBefore (writeEntries entries)).flatMap fun e => writeText e.1 ++ e.2
  | .link cid => writeLink cid

/-- The bytes of the items of a list. -/
def writeItems : List Ipld → List UInt8
  | [] => []
  | item :: items => write item ++ writeItems items

/-- The keys of a map with the bytes of their values. -/
def writeEntries : List (String × Ipld) → List (String × List UInt8)
  | [] => []
  | (key, value) :: entries => (key, write value) :: writeEntries entries

end

end MarketDag.Cbor
