import MarketDag.Text.Hex
import MarketDag.Text.Utf8

/-!
# Percent-encoding

A character that a part of an address cannot hold is written as the bytes of its encoding, each as
a percent sign and two capital digits.  Which characters those are depends on the part: `Set` is
the type of such choices, and the sets below grow from one another.
-/

namespace MarketDag.Percent

/-! ## Sets -/

/-- The characters that a part of an address encodes. -/
abbrev Set := Char → Bool

/-- Controls, and all beyond ASCII. -/
def controls : Set := fun c => c.toNat < 0x20 ∨ 0x7E < c.toNat

/-- A set and some more characters. -/
def Set.with (set : Set) (more : List Char) : Set := fun c => set c || more.contains c

/-- What a fragment encodes. -/
def inFragment : Set := controls.with [' ', '"', '<', '>', '\x60']

/-- What a query encodes. -/
def inQuery : Set := controls.with [' ', '"', '#', '<', '>']

/-- What a query of a special scheme encodes. -/
def inSpecialQuery : Set := inQuery.with ['\'']

/-- What a path encodes. -/
def inPath : Set := inFragment.with ['#', '?', '\x7b', '\x7d']

/-- What a user name or a password encodes. -/
def inUserinfo : Set := inPath.with ['/', ':', ';', '=', '@', '[', '\\', ']', '^', '|']

/-! ## Encoding and decoding -/

/-- A byte as a percent sign and two capital digits. -/
def encodeByte (b : UInt8) : List Char :=
  ['%', (Hex.digit (b.toNat / 16)).toUpper, (Hex.digit (b.toNat % 16)).toUpper]

/-- A text with the characters of a set encoded. -/
def encode (set : Set) (cs : List Char) : List Char :=
  cs.flatMap fun c => if set c then (Utf8.encodeChar c).flatMap encodeByte else [c]

/-- The bytes of a text, two digits after a percent sign being one byte. -/
def decode : List Char → List UInt8
  | '%' :: a :: b :: cs =>
    match Hex.value? a, Hex.value? b with
    | some x, some y => (x * 16 + y).toUInt8 :: decode cs
    | _, _ => 0x25 :: decode (a :: b :: cs)
  | c :: cs => Utf8.encodeChar c ++ decode cs
  | [] => []

end MarketDag.Percent
