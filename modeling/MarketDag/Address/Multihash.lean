import MarketDag.Address.Sha256

/-!
# Multihashes

A digest with the code of the function that made it.  Its binary form is the code, the size and
the digest; a digest has at most sixty-four bytes.

The two numbers are unsigned varints: bytes of seven bits each, lowest first, every byte but the
last with its high bit set.  Reading takes at most ten bytes, refuses a form that is longer than
needed, and keeps sixty-four bits: of a tenth byte only the lowest bit counts.
-/

namespace MarketDag

/-! ## Unsigned varints -/

namespace Varint

/-- The bytes of a number. -/
def encode (n : Nat) : List UInt8 :=
  if n < 128 then [n.toUInt8] else (n % 128 + 128).toUInt8 :: encode (n / 128)
termination_by n
decreasing_by omega

/-- Why no number stands at the front. -/
inductive Fault where
  /-- The bytes end inside the number. -/
  | ended
  /-- A last byte of zero, which a shorter form leaves out. -/
  | notMinimal
  /-- Ten bytes that all ask for one more. -/
  | overlong
deriving DecidableEq, Repr

/-- The most bytes a number takes. -/
def maxSize : Nat := 10

/-- Reads on where `seen` bytes have given `value`, with room for `left` more. -/
def decodeFrom (value : UInt64) (seen : Nat) :
    (left : Nat) → List UInt8 → Except Fault (UInt64 × List UInt8)
  | 0, _ => .error .overlong
  | _ + 1, [] => .error .ended
  | left + 1, b :: rest =>
    let value := value ||| ((b &&& 0x7F).toUInt64 <<< (7 * seen).toUInt64)
    if b < 0x80 then
      if b = 0 ∧ 0 < seen then .error .notMinimal else .ok (value, rest)
    else decodeFrom value (seen + 1) left rest

/-- The number at the front, and the bytes after it. -/
def decode (bytes : List UInt8) : Except Fault (UInt64 × List UInt8) :=
  decodeFrom 0 0 maxSize bytes

end Varint

/-! ## Multihashes -/

/-- The most bytes a digest has. -/
def Multihash.maxSize : Nat := 64

/-- A digest and the code of its hash function. -/
structure Multihash where
  code : UInt64
  digest : List UInt8
  length_le : digest.length ≤ Multihash.maxSize
deriving DecidableEq

namespace Multihash

/-- The code of SHA-256. -/
def sha256Code : UInt64 := 0x12

/-- The SHA-256 multihash of a byte string. -/
def sha256 (data : List UInt8) : Multihash :=
  ⟨sha256Code, Sha256.digest data, by simp [maxSize]⟩

/-- The binary form. -/
def toBytes (h : Multihash) : List UInt8 :=
  Varint.encode h.code.toNat ++ Varint.encode h.digest.length ++ h.digest

/-- Takes `n` bytes off the front, if there are so many. -/
def takeExactly (n : Nat) (bytes : List UInt8) :
    Option ({ front : List UInt8 // front.length = n } × List UInt8) :=
  if h : (bytes.take n).length = n then some (⟨bytes.take n, h⟩, bytes.drop n) else none

/-- The multihash at the front, and the bytes after it. -/
def decode? (bytes : List UInt8) : Option (Multihash × List UInt8) := do
  let (code, bytes) ← (Varint.decode bytes).toOption
  let (size, bytes) ← (Varint.decode bytes).toOption
  if h : size.toNat ≤ maxSize then
    let (digest, bytes) ← takeExactly size.toNat bytes
    some (⟨code, digest.1, by rw [digest.2]; exact h⟩, bytes)
  else none

end Multihash

end MarketDag
