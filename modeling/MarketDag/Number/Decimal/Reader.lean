import MarketDag.Number.Binary64
import MarketDag.Number.Decimal

/-!
# Reading decimals

A decimal is written as a numeral, with an optional exponent, or as a binary number.  A numeral
that has more places than fit is rounded half up at the first digit that does not; one whose whole
part does not fit is refused.  An exponent that asks for more places than fit rounds half up too;
one that moves the point by more places than a decimal has is refused, whatever the numeral is.
-/

namespace MarketDag.Decimal

/-! ## Faults -/

/-- Why something is no decimal. -/
inductive Fault where
  | empty
  | noDigits
  | leadingSeparator
  | secondPoint
  | unknownCharacter
  | tooManyDigits
  | roundedTooFar
  /-- An exponent that is no number, or a numeral that ends at its exponent mark. -/
  | badExponent
  /-- More places than fit. -/
  | scaleTooLarge (scale : Nat)
  /-- A number beyond the largest one. -/
  | tooLarge
  /-- A binary number that is not finite or too large. -/
  | notConvertible
deriving DecidableEq, Repr

/-- The wording of a fault. -/
def Fault.message : Fault → String
  | .empty => "Invalid decimal: empty"
  | .noDigits => "Invalid decimal: no digits found"
  | .leadingSeparator => "Invalid decimal: must start lead with a number"
  | .secondPoint => "Invalid decimal: two decimal points"
  | .unknownCharacter => "Invalid decimal: unknown character"
  | .tooManyDigits => "Invalid decimal: overflow from too many digits"
  | .roundedTooFar => "Invalid decimal: overflow from mantissa after rounding"
  | .badExponent => "Failed to parse"
  | .scaleTooLarge scale =>
    s!"Scale exceeds the maximum precision allowed: {scale} > {maxScale}"
  | .tooLarge => "Number exceeds maximum value that can be represented."
  | .notConvertible => "Error while converting to Decimal"

/-- The value of a decimal digit. -/
def digit? (c : Char) : Option Nat := if c.isDigit then some (c.toNat - 48) else none

/-- The fault of a character that may not stand where it does. -/
def misplaced (c : Char) : Fault :=
  if c = '.' then .secondPoint else if c = '_' then .leadingSeparator else .unknownCharacter

/-- The number with these parts, zero without a sign. -/
def ofReading (negative : Bool) (mantissa scale : Nat) : Except Fault Decimal :=
  match ofParts? (negative && mantissa ≠ 0) mantissa scale with
  | some d => .ok d
  | none => .error .tooLarge

/-! ## Numerals -/

/-- The parts read so far: whether a point and a digit were seen, the mantissa and the scale. -/
structure Progress where
  pointed : Bool
  started : Bool
  mantissa : Nat
  scale : Nat

/-- Nothing read so far. -/
def Progress.start : Progress := ⟨false, false, 0, 0⟩

/-- Ends a numeral before the places that no longer fit. These are digits and separators, and the
first digit among them rounds what is before it half up. -/
def roundAt (negative : Bool) (mantissa scale : Nat) (rest : List Char) : Except Fault Decimal :=
  match rest.find? fun c => ¬ (c.isDigit ∨ c = '_') with
  | some c => .error (misplaced c)
  | none =>
    let up := (rest.findSome? digit?).any (5 ≤ ·)
    let rounded := if up then mantissa + 1 else mantissa
    if rounded < mantissaLimit then ofReading negative rounded scale
    else if scale = 0 then .error .roundedTooFar
    -- the carry makes one digit more, so the last place is given up
    else ofReading negative ((rounded + 4) / 10) (scale - 1)

/-- Reads the digits, the point and the separators of a numeral. -/
def readDigits (negative : Bool) (p : Progress) : List Char → Except Fault Decimal
  | [] => if p.started then ofReading negative p.mantissa p.scale else .error .noDigits
  | c :: cs =>
    -- no place is left: all that may follow are digits and separators
    if p.pointed ∧ p.started ∧ maxScale ≤ p.scale then
      roundAt negative p.mantissa p.scale (c :: cs)
    else match digit? c with
      | some d =>
        let mantissa := p.mantissa * 10 + d
        if mantissa < mantissaLimit then
          readDigits negative
            ⟨p.pointed, true, mantissa, if p.pointed then p.scale + 1 else 0⟩ cs
        else if p.pointed then roundAt negative p.mantissa p.scale (c :: cs)
        else .error .tooManyDigits
      | none =>
        if c = '.' ∧ ¬ p.pointed then readDigits negative { p with pointed := true } cs
        else if c = '_' ∧ p.started then readDigits negative p cs
        else .error (misplaced c)

/-- Reads a numeral without an exponent. -/
def readNumeral : List Char → Except Fault Decimal
  | [] => .error .empty
  | '-' :: cs => readDigits true .start cs
  | '+' :: cs => readDigits false .start cs
  | cs => readDigits false .start cs

/-! ## Exponents -/

/-- A whole number of thirty-two bits, with an optional plus sign. -/
def readExponent? (cs : List Char) : Option Nat :=
  let ds := match cs with
    | '+' :: rest => rest
    | cs => cs
  if ds.isEmpty then none
  else do
    let n ← ds.foldlM (fun n c => (n * 10 + ·) <$> digit? c) 0
    if n < UInt32.size then some n else none

/-- The quotient of two numbers, rounded half up. -/
def roundedQuotient (m n : Nat) : Nat := (2 * m + n) / (2 * n)

theorem roundedQuotient_le {m n : Nat} (h : 0 < n) : roundedQuotient m n ≤ m := by
  have hm : m ≤ n * m := Nat.le_mul_of_pos_left m h
  apply Nat.le_of_lt_succ
  apply Nat.div_lt_of_lt_mul
  rw [Nat.succ_eq_add_one, Nat.mul_add, Nat.mul_one, Nat.mul_assoc]
  omega

/-- Moves the point so many places to the left, no more than a decimal has, and rounds off the
places that no longer fit. -/
def shiftLeft (d : Decimal) (places : Nat) : Except Fault Decimal :=
  if maxScale < places then .error (.scaleTooLarge places)
  else
    let excess := d.scale + places - maxScale
    .ok ⟨d.negative, roundedQuotient d.mantissa (Nat.pow 10 excess), d.scale + places - excess,
      Nat.lt_of_le_of_lt (roundedQuotient_le (Nat.pow_pos (by decide))) d.mantissa_lt,
      by have := d.scale_le; omega⟩

/-- Moves the point so many places to the right. -/
def shiftRight (d : Decimal) (places : Nat) : Except Fault Decimal :=
  if places ≤ d.scale then
    .ok ⟨d.negative, d.mantissa, d.scale - places, d.mantissa_lt,
      Nat.le_trans (Nat.sub_le d.scale places) d.scale_le⟩
  else if maxScale < places then .error (.scaleTooLarge places)
  else ofReading d.negative (d.mantissa * Nat.pow 10 (places - d.scale)) 0

/-- Moves the point by an exponent. -/
def move (d : Decimal) (exponent : List Char) : Except Fault Decimal :=
  match exponent with
  | '-' :: digits =>
    match readExponent? digits with
    | some places => d.shiftLeft places
    | none => .error .badExponent
  | digits =>
    match readExponent? digits with
    | some places => d.shiftRight places
    | none => .error .badExponent

/-- Does a character mark an exponent? -/
def isExponentMark (c : Char) : Bool := c = 'e' ∨ c = 'E'

/-- Reads a numeral with an optional exponent. -/
def ofText (s : String) : Except Fault Decimal :=
  let cs := s.toList
  match cs.dropWhile (! isExponentMark ·) with
  | [] => readNumeral cs
  | _ :: exponent => do
    let d ← readNumeral (cs.takeWhile (! isExponentMark ·))
    d.move exponent

/-- Reads a whole number. -/
def ofInt (n : Int) : Except Fault Decimal :=
  match ofInt? n with
  | some d => .ok d
  | none => .error .tooLarge

/-! ## Binary numbers -/

/-- `m / 2 ^ halvings` as digits and a scale, which starts as the number of halvings: halves
while that is exact, else multiplies by five while that fits, else halves and loses the last bit. -/
def halve : (halvings : Nat) → (m scale : Nat) → Nat × Nat
  | 0, m, scale => (m, scale)
  | halvings + 1, m, scale =>
    if m % 2 = 1 ∧ m * 5 < mantissaLimit then halve halvings (m * 5) scale
    else halve halvings (m / 2) (scale - 1)

/-- Drops places until at most twenty-eight are left; a number that vanishes has none. -/
def limitScale : (excess : Nat) → (m scale : Nat) → Nat × Nat
  | 0, m, scale => (m, scale)
  | excess + 1, m, scale =>
    if m / 10 = 0 then (0, 0) else limitScale excess (roundedQuotient m 10) (scale - 1)

/-- Drops places until the digits are no more than a binary number can tell apart. -/
def limitPrecision (m : Nat) : (scale : Nat) → Nat × Nat
  | 0 => (m, 0)
  | scale + 1 =>
    if Binary64.fractionLimit ≤ m then limitPrecision (roundedQuotient m 10) scale
    else (m, scale + 1)

/-- The digits and the scale that stand for `m / 2 ^ halvings`. -/
def partsOfHalves (m halvings : Nat) : Nat × Nat :=
  let (m, scale) := halve halvings m halvings
  let (m, scale) := limitScale (scale - maxScale) m scale
  let (m, scale) := limitPrecision m scale
  dropZeros m scale

/-- Reads a binary number: a multiple of one keeps its value, of any other number as many places
are kept as it can tell apart. -/
def ofBinary64 (x : Binary64) : Except Fault Decimal :=
  if ¬ x.isFinite then .error .notConvertible
  else if x.isZero then .ok (zero x.negative)
  else
    let (m, scale) :=
      if x.exponent < 0 then partsOfHalves x.significand (-x.exponent).toNat
      else (x.significand <<< x.exponent.toNat, 0)
    match ofParts? x.negative m scale with
    | some d => .ok d
    | none => .error .notConvertible

end MarketDag.Decimal
