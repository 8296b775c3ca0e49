/-!
# Decimal numbers

A number of at most ninety-six bits with up to twenty-eight decimal places.  Its canonical text
has no zeros at the end of its places and no negative zero, so that equal numbers have equal
texts.
-/

namespace MarketDag

/-- The first mantissa that does not fit, `2 ^ 96`. -/
def Decimal.mantissaLimit : Nat := 0x1000000000000000000000000

/-- The most decimal places. -/
def Decimal.maxScale : Nat := 28

/-- The number `± mantissa / 10 ^ scale`. -/
structure Decimal where
  negative : Bool
  mantissa : Nat
  scale : Nat
  mantissa_lt : mantissa < Decimal.mantissaLimit
  scale_le : scale ≤ Decimal.maxScale
deriving DecidableEq

namespace Decimal

/-! ## Values -/

/-- The number with these parts, if they fit. -/
def ofParts? (negative : Bool) (mantissa scale : Nat) : Option Decimal :=
  if h : mantissa < mantissaLimit ∧ scale ≤ maxScale then
    some ⟨negative, mantissa, scale, h.1, h.2⟩
  else none

/-- Zero, which may carry a sign. -/
def zero (negative : Bool) : Decimal := ⟨negative, 0, 0, by decide, by decide⟩

/-- One. -/
def one : Decimal := ⟨false, 1, 0, by decide, by decide⟩

/-- A whole number, if it fits. -/
def ofInt? (n : Int) : Option Decimal := ofParts? (n < 0) n.natAbs 0

/-- The mantissa with its sign. -/
def signed (d : Decimal) : Int := if d.negative then -(d.mantissa : Int) else d.mantissa

/-- Do two decimals denote the same number? -/
def SameValue (a b : Decimal) : Prop :=
  a.signed * Nat.pow 10 b.scale = b.signed * Nat.pow 10 a.scale

instance (a b : Decimal) : Decidable (SameValue a b) := inferInstanceAs (Decidable (_ = _))

/-- Is a decimal less than another one? -/
def Less (a b : Decimal) : Prop :=
  a.signed * Nat.pow 10 b.scale < b.signed * Nat.pow 10 a.scale

instance (a b : Decimal) : Decidable (Less a b) := inferInstanceAs (Decidable (_ < _))

/-! ## Canonical form -/

/-- Drops zeros at the end of at most `scale` places. -/
def dropZeros (mantissa : Nat) : (scale : Nat) → Nat × Nat
  | 0 => (mantissa, 0)
  | scale + 1 =>
    if mantissa % 10 = 0 then dropZeros (mantissa / 10) scale else (mantissa, scale + 1)

theorem dropZeros_le (mantissa scale : Nat) :
    (dropZeros mantissa scale).1 ≤ mantissa ∧ (dropZeros mantissa scale).2 ≤ scale := by
  induction scale generalizing mantissa with
  | zero => simp [dropZeros]
  | succ scale ih =>
    simp only [dropZeros]
    split
    · have := ih (mantissa / 10)
      have := Nat.div_le_self mantissa 10
      omega
    · simp

/-- The same number without zeros at the end of its places and without the sign of zero. -/
def normalize (d : Decimal) : Decimal :=
  let p := dropZeros d.mantissa d.scale
  ⟨d.negative && p.1 ≠ 0, p.1, p.2,
    Nat.lt_of_le_of_lt (dropZeros_le d.mantissa d.scale).1 d.mantissa_lt,
    Nat.le_trans (dropZeros_le d.mantissa d.scale).2 d.scale_le⟩

/-! ## Text -/

/-- At least `width` digits of a number, zeros in front. -/
def padded (width n : Nat) : List Char :=
  let ds := Nat.toDigits 10 n
  List.replicate (width - ds.length) '0' ++ ds

/-- The digits before and after the point. -/
def toChars (d : Decimal) : List Char :=
  let sign := if d.negative then ['-'] else []
  let whole := Nat.toDigits 10 (d.mantissa / Nat.pow 10 d.scale)
  let places :=
    if d.scale = 0 then [] else '.' :: padded d.scale (d.mantissa % Nat.pow 10 d.scale)
  sign ++ whole ++ places

/-- The text with all places. -/
def toText (d : Decimal) : String := String.ofList d.toChars

/-- The canonical text: equal numbers have the same. -/
def canonicalText (d : Decimal) : String := d.normalize.toText

end Decimal

end MarketDag
