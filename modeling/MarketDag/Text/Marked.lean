import MarketDag.Text.Utf8

/-!
# Texts with a mark

Bytes of a text are UTF-8, unless a byte order mark at their front tells that they are UTF-16.  The
mark is no part of the text, and what is no character is replaced.
-/

namespace MarketDag

namespace Utf16

/-- Is a unit the first half of a character? -/
def isLead (unit : Nat) : Bool := 0xD800 ≤ unit ∧ unit ≤ 0xDBFF

/-- Is a unit the second half of a character? -/
def isTrail (unit : Nat) : Bool := 0xDC00 ≤ unit ∧ unit ≤ 0xDFFF

/-- The character of two halves. -/
def join (lead trail : Nat) : Char :=
  Char.ofNat (0x10000 + (lead - 0xD800) * 0x400 + (trail - 0xDC00))

/-- The units that bytes are, two bytes each, and whether one byte is left over. -/
def units (bigEndian : Bool) : List UInt8 → List Nat × Bool
  | [] => ([], false)
  | [_] => ([], true)
  | a :: b :: bytes =>
    let unit := if bigEndian then a.toNat * 256 + b.toNat else b.toNat * 256 + a.toNat
    let rest := units bigEndian bytes
    (unit :: rest.1, rest.2)

/-- The characters of units, each half without the other one replaced. A byte that is left over at
the end is replaced as well, together with a first half before it. -/
def decodeUnitsLossy (odd : Bool) : List Nat → List Char
  | [] => if odd then [Utf8.replacement] else []
  | [unit] =>
    if isLead unit then [Utf8.replacement]
    else
      (if isTrail unit then Utf8.replacement else Char.ofNat unit) :: decodeUnitsLossy odd []
  | unit :: next :: rest =>
    if isLead unit then
      if isTrail next then join unit next :: decodeUnitsLossy odd rest
      else Utf8.replacement :: decodeUnitsLossy odd (next :: rest)
    else
      (if isTrail unit then Utf8.replacement else Char.ofNat unit) ::
        decodeUnitsLossy odd (next :: rest)

/-- The characters of bytes. -/
def decodeCharsLossy (bigEndian : Bool) (bytes : List UInt8) : List Char :=
  let read := units bigEndian bytes
  decodeUnitsLossy read.2 read.1

end Utf16

/-- A form in which bytes hold a text. -/
inductive TextForm where
  | utf8
  | utf16 (bigEndian : Bool)
deriving DecidableEq

namespace TextForm

/-- The bytes that tell a form. -/
def mark : TextForm → List UInt8
  | .utf8 => [0xEF, 0xBB, 0xBF]
  | .utf16 true => [0xFE, 0xFF]
  | .utf16 false => [0xFF, 0xFE]

/-- The forms that have marks. -/
def all : List TextForm := [.utf8, .utf16 true, .utf16 false]

/-- The characters of bytes in a form. -/
def decodeCharsLossy : TextForm → List UInt8 → List Char
  | .utf8 => Utf8.decodeCharsLossy
  | .utf16 bigEndian => Utf16.decodeCharsLossy bigEndian

/-- The form that a mark tells, and the bytes behind the mark. -/
def ofMarked (bytes : List UInt8) : TextForm × List UInt8 :=
  match all.find? fun form => form.mark.isPrefixOf bytes with
  | some form => (form, bytes.drop form.mark.length)
  | none => (.utf8, bytes)

end TextForm

/-- The text of bytes that may have a mark at their front. -/
def textOfMarked (bytes : List UInt8) : String :=
  let (form, rest) := TextForm.ofMarked bytes
  String.ofList (form.decodeCharsLossy rest)

end MarketDag
