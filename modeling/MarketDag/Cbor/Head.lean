import MarketDag.Number.Binary64

/-!
# Heads of binary items

An item of a binary tree starts with a head: a major type in the three highest bits of a byte, and
a number in the lower five bits or in the one, two, four or eight bytes that follow.
-/

namespace MarketDag.Cbor

/-- The major types. -/
inductive Major where
  | unsigned
  | negative
  | bytes
  | text
  | list
  | map
  | tag
  | simple
deriving DecidableEq, Repr

/-- The number of a major type. -/
def Major.code : Major → Nat
  | .unsigned => 0
  | .negative => 1
  | .bytes => 2
  | .text => 3
  | .list => 4
  | .map => 5
  | .tag => 6
  | .simple => 7

/-- The low bits of a head whose item has no length. -/
def openLength : Nat := 31

/-- The byte that ends an item without a length. -/
def breakByte : UInt8 := 0xFF

/-- The byte of the missing value. -/
def nullByte : UInt8 := 0xF6

/-- The tag of links. -/
def linkTag : Nat := 42

/-- The shortest head of a major type with a number below 2 ^ 64. -/
def writeHead (major : Major) (n : Nat) : List UInt8 :=
  let first (info : Nat) : UInt8 := (major.code * 32 + info).toUInt8
  if n < 24 then [first n]
  else if n < UInt8.size then first 24 :: BigEndian.encode 1 n
  else if n < UInt16.size then first 25 :: BigEndian.encode 2 n
  else if n < UInt32.size then first 26 :: BigEndian.encode 4 n
  else first 27 :: BigEndian.encode 8 n

/-- The major type's number of a first byte. -/
def majorCode (b : UInt8) : Nat := b.toNat / 32

/-- The low five bits of a first byte. -/
def info (b : UInt8) : Nat := b.toNat % 32

/-- How many bytes of the number follow a first byte with these low bits. -/
def followers? (info : Nat) : Option Nat :=
  if info < 24 then some 0
  else if info = 24 then some 1
  else if info = 25 then some 2
  else if info = 26 then some 4
  else if info = 27 then some 8
  else none

end MarketDag.Cbor
