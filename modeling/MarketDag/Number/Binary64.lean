/-!
# Binary numbers

A whole number is written as a fixed count of bytes, the highest first.  Bits for which there is no
room are dropped, so a number that fits is read back (`BigEndian.decode_encode`).

A floating-point number of sixty-four bits is kept as its bits and read as `m · 2 ^ q` in exact
integers.  `ofRatio` rounds a quotient to the nearest such number, a tie going to the even
significand; `shortest` finds the fewest decimal digits that read back as a given number, and of
those the nearest.  The text of a number is made of these digits, with a point when the exponent of
the first one is small and with an exponent mark otherwise.
-/

namespace MarketDag

/-! ## Big-endian bytes -/

theorem toNat_toUInt8 {n : Nat} (h : n < 256) : n.toUInt8.toNat = n := by
  simpa using h

namespace BigEndian

/-- The lowest `size` bytes of a number. -/
def encode : (size : Nat) → Nat → List UInt8
  | 0, _ => []
  | size + 1, n => encode size (n / 256) ++ [(n % 256).toUInt8]

/-- The number of a byte string. -/
def decode (bytes : List UInt8) : Nat := bytes.foldl (fun n b => n * 256 + b.toNat) 0

@[simp] theorem length_encode (size n : Nat) : (encode size n).length = size := by
  induction size generalizing n with
  | zero => rfl
  | succ size ih => simp [encode, ih]

@[simp] theorem decode_concat (bytes : List UInt8) (b : UInt8) :
    decode (bytes ++ [b]) = decode bytes * 256 + b.toNat := by
  simp [decode]

theorem decode_encode {size n : Nat} (h : n < Nat.pow 256 size) : decode (encode size n) = n := by
  induction size generalizing n with
  | zero =>
    have : n = 0 := by simpa using h
    subst this
    rfl
  | succ size ih =>
    have hn : n / 256 < Nat.pow 256 size := Nat.div_lt_of_lt_mul (by rwa [Nat.mul_comm])
    have hb : (n % 256).toUInt8.toNat = n % 256 := toNat_toUInt8 (Nat.mod_lt n (by decide))
    rw [encode, decode_concat, ih hn, hb]
    omega

end BigEndian

/-! ## Floating-point numbers -/

/-- A floating-point number as its sixty-four bits. -/
structure Binary64 where
  bits : UInt64
deriving DecidableEq, Repr

namespace Binary64

/-! ## Parts -/

/-- The place of the sign bit, `2 ^ 63`. -/
def signPlace : Nat := 0x8000000000000000

/-- The first number that is too large for the bits of the fraction, `2 ^ 52`. -/
def fractionLimit : Nat := 0x10000000000000

/-- Is the sign bit set? -/
def negative (x : Binary64) : Bool := decide (signPlace ≤ x.bits.toNat)

/-- The eleven bits of the exponent. -/
def exponentField (x : Binary64) : Nat := x.bits.toNat / fractionLimit % 2048

/-- The fifty-two bits of the fraction. -/
def fraction (x : Binary64) : Nat := x.bits.toNat % fractionLimit

/-- Neither infinite nor a NaN. -/
def isFinite (x : Binary64) : Bool := x.exponentField ≠ 2047

/-- No number at all. -/
def isNaN (x : Binary64) : Bool := x.exponentField = 2047 ∧ x.fraction ≠ 0

/-- Zero of either sign. -/
def isZero (x : Binary64) : Bool := x.exponentField = 0 ∧ x.fraction = 0

/-- The significand: the size of a finite number is `x.significand * 2 ^ x.exponent`. -/
def significand (x : Binary64) : Nat :=
  if x.exponentField = 0 then x.fraction else fractionLimit + x.fraction

/-- The exponent of two that goes with the significand. -/
def exponent (x : Binary64) : Int :=
  if x.exponentField = 0 then -1074 else (x.exponentField : Int) - 1075

/-- The number with the given sign bit and the given lower sixty-three bits. -/
def ofParts (negative : Bool) (size : Nat) : Binary64 :=
  ⟨((if negative then signPlace else 0) + size % signPlace).toUInt64⟩

/-- The lower sixty-three bits of infinity. -/
def infinitySize : Nat := 2047 * fractionLimit

/-! ## Bytes -/

/-- The eight big-endian bytes. -/
def toBytes (x : Binary64) : List UInt8 := BigEndian.encode 8 x.bits.toNat

/-- The number of eight big-endian bytes. -/
def ofBytes (bytes : List UInt8) : Binary64 := ⟨(BigEndian.decode bytes).toUInt64⟩

@[simp] theorem ofBytes_toBytes (x : Binary64) : ofBytes x.toBytes = x := by
  have hfit : x.bits.toNat < Nat.pow 256 8 := x.bits.toNat_lt
  rw [ofBytes, toBytes, BigEndian.decode_encode hfit]
  simp

/-- A number of thirty-two bits, widened without loss. -/
def ofBinary32 (bits : Nat) : Binary64 :=
  let negative := decide (0x80000000 ≤ bits)
  let field := bits / 0x800000 % 256
  let fraction := bits % 0x800000
  let size :=
    if field = 255 then infinitySize + (fraction <<< 29)
    else if field ≠ 0 then (field + 896) * fractionLimit + (fraction <<< 29)
    else if fraction = 0 then 0
    else
      let high := fraction.log2
      (high + 874) * fractionLimit + ((fraction <<< (52 - high)) - fractionLimit)
  ofParts negative size

/-! ## Rounding -/

/-- A quotient rounded to the nearest whole number, a tie to the even one. -/
def roundHalfEven (num den : Nat) : Nat :=
  let q := num / den
  let twice := 2 * (num % den)
  if twice < den then q else if den < twice then q + 1 else q + q % 2

/-- The lower sixty-three bits of the number nearest to `num / den`. -/
def nearestSize (num den : Nat) : Nat :=
  if num = 0 then 0
  else
    let guess : Int := num.log2 - den.log2
    let below := if 0 ≤ guess then decide (num < den <<< guess.toNat)
      else decide (num <<< (-guess).toNat < den)
    let lead : Int := if below then guess - 1 else guess
    let unit : Int := max (lead - 52) (-1074)
    let rounded :=
      if 0 ≤ unit then roundHalfEven num (den <<< unit.toNat)
      else roundHalfEven (num <<< (-unit).toNat) den
    if rounded < fractionLimit then rounded
    else min ((unit + 1075).toNat * fractionLimit + (rounded - fractionLimit)) infinitySize

/-- The number nearest to `± num / den`; infinite when it is too large. -/
def ofRatio (negative : Bool) (num den : Nat) : Binary64 := ofParts negative (nearestSize num den)

/-- The number nearest to `± digits · 10 ^ exponent`; infinite when it is too large. Exponents
out of all proportion are settled without computing the power. -/
def ofDecimal (negative : Bool) (digits : Nat) (exponent : Int) : Binary64 :=
  let top : Int := exponent + (Nat.toDigits 10 digits).length
  if digits = 0 then ofParts negative 0
  else if 400 < top then ofParts negative infinitySize
  else if top < -400 then ofParts negative 0
  else if 0 ≤ exponent then ofRatio negative (digits * Nat.pow 10 exponent.toNat) 1
  else ofRatio negative digits (Nat.pow 10 (-exponent).toNat)

/-! ## Shortest digits -/

/-- A positive decimal number `digits · 10 ^ exponent`. -/
structure Digits where
  digits : Nat
  exponent : Int
deriving DecidableEq, Repr

/-- The exponent of the first digit of a positive quotient. -/
def firstDigitExponent (num den : Nat) : Int :=
  if den ≤ num then (Nat.toDigits 10 (num / den)).length - 1
  else -((Nat.toDigits 10 ((den - 1) / num)).length : Int)

/-- The nearest of the two neighbours of `mid` on the grid of `10 ^ grid` that lies between `low`
and `high`, all three in units of `2 ^ unit`; the ends count when `closed`. -/
def onGrid (low mid high : Nat) (unit : Int) (closed : Bool) (grid : Int) : Option Digits :=
  let up := Nat.pow 10 (-grid).toNat <<< unit.toNat
  let step := Nat.pow 10 grid.toNat <<< (-unit).toNat
  let inside (d : Nat) : Bool :=
    if closed then low * up ≤ d * step ∧ d * step ≤ high * up
    else low * up < d * step ∧ d * step < high * up
  let floor := mid * up / step
  let left := mid * up - floor * step
  let right := (floor + 1) * step - mid * up
  let floorFirst := left < right ∨ (left = right ∧ floor % 2 = 0)
  match inside floor, inside (floor + 1) with
  | false, false => none
  | true, false => some ⟨floor, grid⟩
  | false, true => some ⟨floor + 1, grid⟩
  | true, true => some ⟨if floorFirst then floor else floor + 1, grid⟩

/-- The fewest digits that read back as a finite number other than zero, the sign apart. The search
begins one place above the first digit, where `9.99…` may round up to one. -/
def shortest (x : Binary64) : Digits :=
  let m := x.significand
  let unit := x.exponent - 2
  let low := if x.fraction = 0 ∧ 1 < x.exponentField then 4 * m - 1 else 4 * m - 2
  let first :=
    if 0 ≤ unit then firstDigitExponent ((4 * m) <<< unit.toNat) 1
    else firstDigitExponent (4 * m) (1 <<< (-unit).toNat)
  let grids := (List.range 18).map fun (i : Nat) => first + 1 - i
  (grids.findSome? (onGrid low (4 * m) (4 * m + 2) unit (m % 2 = 0))).getD ⟨0, 0⟩

/-! ## Text -/

/-- The exponents of the first digit that are written with a point, lowest and highest. -/
def pointedExponents : Int × Int := (-5, 15)

/-- Digits with a point somewhere among them or zeros around them; a whole number keeps `.0`. -/
def pointed (ds : List Char) (first : Int) : List Char :=
  if first < 0 then '0' :: '.' :: List.replicate (-first - 1).toNat '0' ++ ds
  else
    let whole := first.toNat + 1
    let front := ds.take whole ++ List.replicate (whole - ds.length) '0'
    let back := ds.drop whole
    front ++ '.' :: if back.isEmpty then ['0'] else back

/-- Digits with a point after the first and an exponent with its sign. -/
def scientific (ds : List Char) (first : Int) : List Char :=
  let front := match ds with
    | [] => []
    | [d] => [d]
    | d :: rest => d :: '.' :: rest
  front ++ 'e' :: (if first < 0 then '-' else '+') :: Nat.toDigits 10 first.natAbs

/-- The characters of a finite number. -/
def toChars (x : Binary64) : List Char :=
  let sign := if x.negative then ['-'] else []
  if x.isZero then sign ++ ['0', '.', '0']
  else
    let short := x.shortest
    let ds := Nat.toDigits 10 short.digits
    let first : Int := short.exponent + ds.length - 1
    sign ++ if pointedExponents.1 ≤ first ∧ first ≤ pointedExponents.2 then pointed ds first
      else scientific ds first

/-- The text of a finite number. -/
def toText (x : Binary64) : String := String.ofList x.toChars

end Binary64

end MarketDag
