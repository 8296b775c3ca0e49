/-!
# Hexadecimal

Bytes as pairs of hexadecimal digits, and numbers as hexadecimal numerals, both with lower-case
digits.
-/

namespace MarketDag.Hex

/-- The digit of a number below sixteen. -/
def digit (n : Nat) : Char :=
  if n < 10 then Char.ofNat (48 + n) else Char.ofNat (87 + n)

/-- The value of a digit in either case. -/
def value? (c : Char) : Option Nat :=
  if '0' ≤ c ∧ c ≤ '9' then some (c.toNat - 48)
  else if 'a' ≤ c ∧ c ≤ 'f' then some (c.toNat - 87)
  else if 'A' ≤ c ∧ c ≤ 'F' then some (c.toNat - 55)
  else none

/-- Two digits for each byte. -/
def encode (bytes : List UInt8) : String :=
  String.ofList (bytes.flatMap fun b => [digit (b.toNat / 16), digit (b.toNat % 16)])

/-- The bytes that pairs of digits stand for. -/
def decodeChars? : List Char → Option (List UInt8)
  | [] => some []
  | [_] => none
  | high :: low :: rest => do
    let h ← value? high
    let l ← value? low
    let bytes ← decodeChars? rest
    some ((h * 16 + l).toUInt8 :: bytes)

/-- The bytes of a text of digit pairs. -/
def decode? (s : String) : Option (List UInt8) := decodeChars? s.toList

/-- A number without leading zeros. -/
def numeral (n : Nat) : String := String.ofList (Nat.toDigits 16 n)

end MarketDag.Hex
