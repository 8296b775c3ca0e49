import Mathlib.Algebra.Order.Floor.Semifield
import Mathlib.Data.Rat.Floor
import MarketDag.Proofs.Except
import MarketDag.Proofs.Number.Decimal

/-!
# Rounding to decimals

A number that is read as a decimal is kept as far as it fits: the places that do not fit are rounded
half away from zero (`Decimal.RoundsTo`).  Nothing is lost of a number that fits
(`RoundsTo.value_eq`), and a number that is too large fits nowhere (`RoundsTo.abs_lt`).
-/

namespace MarketDag.Decimal

/-- Is a decimal a number as far as it fits? Its mantissa is the number in units of its last place,
a half of them rounded up, and unless nothing is lost one place more would not fit. -/
structure RoundsTo (x : ℚ) (d : Decimal) : Prop where
  mantissa : d.mantissa = ⌊|x| * 10 ^ d.scale + 1 / 2⌋₊
  negative : d.mantissa ≠ 0 → (d.negative = true ↔ x < 0)
  full : d.value = x ∨ d.scale = maxScale ∨
    (mantissaLimit : ℚ) ≤ |x| * 10 ^ (d.scale + 1) + 1 / 2

section

variable {x : ℚ} {d : Decimal}

theorem ten_pow_pos (n : ℕ) : (0 : ℚ) < 10 ^ n := by positivity

theorem abs_value (d : Decimal) : |d.value| = d.mantissa / 10 ^ d.scale := by
  rw [value, abs_div, abs_of_pos (ten_pow_pos d.scale), ← Int.cast_abs, Int.abs_eq_natAbs,
    natAbs_signed, Int.cast_natCast]

theorem value_neg_iff {d : Decimal} : d.value < 0 ↔ d.negative = true ∧ d.mantissa ≠ 0 := by
  rw [value, div_neg_iff]
  have hpos := ten_pow_pos d.scale
  simp only [hpos, hpos.not_gt, and_false, and_true, false_or, Int.cast_lt_zero]
  unfold signed
  cases d.negative <;> simp [Nat.pos_iff_ne_zero]

theorem floor_add_half (n : ℕ) : ⌊(n : ℚ) + 1 / 2⌋₊ = n := by
  rw [Nat.floor_eq_iff (by positivity)]
  constructor <;> norm_num

/-- A number that a decimal denotes rounds to it. -/
theorem roundsTo_value (d : Decimal) : RoundsTo d.value d where
  mantissa := by
    rw [abs_value, div_mul_cancel₀ _ (ten_pow_pos d.scale).ne', floor_add_half]
  negative h := by simp [value_neg_iff, h]
  full := .inl rfl

/-- A decimal has the value whose size and sign it has. -/
theorem value_eq_of_abs (hsize : (d.mantissa : ℚ) = |x| * 10 ^ d.scale)
    (hsign : d.mantissa ≠ 0 → (d.negative = true ↔ x < 0)) : d.value = x := by
  have habs : |d.value| = |x| := by
    rw [abs_value, hsize, mul_div_cancel_right₀ _ (ten_pow_pos d.scale).ne']
  by_cases hzero : d.mantissa = 0
  · have hvalue : |d.value| = 0 := by rw [abs_value, hzero, Nat.cast_zero, zero_div]
    rw [abs_eq_zero.mp hvalue, abs_eq_zero.mp (habs.symm.trans hvalue)]
  · have hneg : d.value < 0 ↔ x < 0 := by
      rw [value_neg_iff, ← hsign hzero]
      exact and_iff_left hzero
    by_cases hx : x < 0
    · rw [abs_of_neg hx, abs_of_neg (hneg.mpr hx)] at habs
      exact neg_injective habs
    · rwa [abs_of_nonneg (not_lt.mp hx), abs_of_nonneg (not_lt.mp (mt hneg.mp hx))] at habs

/-- When something is lost, there is no room for more places. -/
theorem RoundsTo.scale_le {c : Decimal} (hc : RoundsTo x c) (hd : RoundsTo x d)
    (hlost : c.value ≠ x) : d.scale ≤ c.scale := by
  rcases hc.full with hvalue | hscale | hfull
  · exact absurd hvalue hlost
  · exact hscale ▸ d.scale_le
  · -- with one place more the mantissa of `d` would be too large
    by_contra hlt
    have hmono : |x| * 10 ^ (c.scale + 1) ≤ |x| * 10 ^ d.scale :=
      mul_le_mul_of_nonneg_left (pow_le_pow_right₀ (by norm_num) (by omega)) (abs_nonneg x)
    have hlimit : mantissaLimit ≤ d.mantissa := by
      rw [hd.mantissa]
      exact Nat.le_floor (by linarith)
    exact absurd d.mantissa_lt (by omega)

/-- Nothing is lost of a number that fits. -/
theorem RoundsTo.value_eq (h : RoundsTo x d) {c : Decimal} (hc : c.value = x) : d.value = x := by
  by_contra hlost
  have hscale : c.scale ≤ d.scale := h.scale_le (hc ▸ roundsTo_value c) hlost
  have hsize : |x| * 10 ^ c.scale = c.mantissa := by
    rw [← hc, abs_value, div_mul_cancel₀ _ (ten_pow_pos c.scale).ne']
  have hwhole : |x| * 10 ^ d.scale = (c.mantissa * 10 ^ (d.scale - c.scale) : ℕ) := by
    rw [Nat.cast_mul, ← hsize, mul_assoc, Nat.cast_pow, Nat.cast_ofNat, ← pow_add,
      Nat.add_sub_cancel' hscale]
  refine hlost (value_eq_of_abs ?_ h.negative)
  rw [hwhole, h.mantissa, hwhole, floor_add_half]

/-- What a number rounds to is one number. -/
theorem RoundsTo.value_unique {c : Decimal} (hc : RoundsTo x c) (hd : RoundsTo x d) :
    c.value = d.value := by
  by_cases hcx : c.value = x
  · rw [hcx, hd.value_eq hcx]
  by_cases hdx : d.value = x
  · rw [hdx, hc.value_eq hdx]
  have hscale : c.scale = d.scale := Nat.le_antisymm (hd.scale_le hc hdx) (hc.scale_le hd hcx)
  have hmantissa : c.mantissa = d.mantissa := by rw [hc.mantissa, hd.mantissa, hscale]
  refine value_eq_of_abs ?_ fun hne => ?_
  · rw [abs_value, hmantissa, hscale, div_mul_cancel₀ _ (ten_pow_pos d.scale).ne']
  · rw [value_neg_iff, hc.negative hne, ← hd.negative (hmantissa ▸ hne)]
    exact (and_iff_left (hmantissa ▸ hne)).symm

/-- What is too large for the mantissa does not round to a decimal. -/
theorem RoundsTo.abs_lt (h : RoundsTo x d) : |x| + 1 / 2 < mantissaLimit := by
  have hfloor : ⌊|x| * 10 ^ d.scale + 1 / 2⌋₊ < mantissaLimit := h.mantissa ▸ d.mantissa_lt
  have hsize := (Nat.floor_lt (by positivity)).mp hfloor
  have hone : |x| ≤ |x| * 10 ^ d.scale :=
    le_mul_of_one_le_right (abs_nonneg x) (one_le_pow₀ (by norm_num))
  linarith

end

/-! ## Readings -/

/-- A number with a sign. -/
def withSign (negative : Bool) (x : ℚ) : ℚ := if negative then -x else x

theorem abs_withSign {negative : Bool} {y : ℚ} (hy : 0 ≤ y) : |withSign negative y| = y := by
  cases negative <;> simp [withSign, abs_of_nonneg hy]

theorem value_eq_withSign (d : Decimal) :
    d.value = withSign d.negative (d.mantissa / 10 ^ d.scale) := by
  rw [value, signed, withSign]
  split <;> simp [neg_div]

/-- A reading has the parts it is made of; only zero has no sign. -/
theorem parts_of_ofReading {negative : Bool} {m s : ℕ} {d : Decimal}
    (h : ofReading negative m s = .ok d) :
    d.mantissa = m ∧ d.scale = s ∧ (m ≠ 0 → d.negative = negative) := by
  unfold ofReading ofParts? at h
  split_ifs at h
  cases h
  exact ⟨rfl, rfl, fun hm => by simp [hm]⟩

/-- A reading is the number whose size it has in units of its last place, a half rounded up. -/
theorem roundsTo_of_ofReading {negative : Bool} {m s : ℕ} {y : ℚ} {d : Decimal} (hy : 0 ≤ y)
    (hm : m = ⌊y * 10 ^ s + 1 / 2⌋₊)
    (hfull : (m : ℚ) = y * 10 ^ s ∨ s = maxScale ∨
      (mantissaLimit : ℚ) ≤ y * 10 ^ (s + 1) + 1 / 2)
    (h : ofReading negative m s = .ok d) : RoundsTo (withSign negative y) d := by
  obtain ⟨hmantissa, hscale, hnegative⟩ := parts_of_ofReading h
  have habs : |withSign negative y| = y := abs_withSign hy
  -- zero has no sign, so the sign is known only where a digit is left
  have hsign : d.mantissa ≠ 0 → (d.negative = true ↔ withSign negative y < 0) := by
    intro hne
    rw [hmantissa] at hne
    have hpos : 0 < y := by
      rcases hy.eq_or_lt with rfl | hpos
      · rw [zero_mul, zero_add] at hm
        exact absurd (hm.trans (by norm_num)) hne
      · exact hpos
    rw [hnegative hne]
    cases negative <;> simp [withSign, hpos, hy]
  rw [← hmantissa, ← hscale] at hfull
  refine ⟨by rw [habs, hmantissa, hscale, hm], hsign, ?_⟩
  rw [habs]
  exact hfull.imp_left fun hexact => value_eq_of_abs (by rwa [habs]) hsign

/-! ## Rounded quotients -/

theorem floor_div_add_half (n : ℕ) {k : ℕ} (hk : 0 < k) :
    ⌊(n : ℚ) / k + 1 / 2⌋₊ = roundedQuotient n k := by
  have hne : (k : ℚ) ≠ 0 := by exact_mod_cast hk.ne'
  have hsum : (n : ℚ) / k + 1 / 2 = (2 * n + k : ℕ) / (2 * k : ℕ) := by
    push_cast
    field_simp
  rw [hsum, Nat.floor_div_eq_div, roundedQuotient]

theorem roundedQuotient_one (n : ℕ) : roundedQuotient n 1 = n := by
  unfold roundedQuotient
  omega

/-- Rounding up to the first mantissa that does not fit is rounding at one place less. -/
theorem roundedQuotient_carry {n unit : ℕ} (hunit : 0 < unit)
    (h : roundedQuotient n unit = mantissaLimit) :
    roundedQuotient n (unit * 10) = (mantissaLimit + 4) / 10 := by
  have hlimit : mantissaLimit = 79228162514264337593543950336 := rfl
  have hquot : (mantissaLimit + 4) / 10 = 7922816251426433759354395034 := rfl
  rw [roundedQuotient, Nat.div_eq_iff (by omega), hlimit] at h
  rw [roundedQuotient, Nat.div_eq_iff (by omega), hquot]
  omega

/-! ## Moving the point -/

/-- Moving the point to the left rounds the places that no longer fit. -/
theorem roundsTo_of_shiftLeft {d d' : Decimal} {places : ℕ} (h : d.shiftLeft places = .ok d') :
    RoundsTo (d.value / 10 ^ places) d' := by
  unfold shiftLeft at h
  split_ifs at h
  dsimp only at h
  cases h
  -- the places that there are too many of, cut off with the last digit rounded
  set excess := d.scale + places - maxScale with hexcess
  have habs : |d.value / 10 ^ places| = d.mantissa / 10 ^ (d.scale + places) := by
    rw [abs_div, abs_value, abs_of_pos (ten_pow_pos places), div_div, pow_add]
  have hunits : |d.value / 10 ^ places| * 10 ^ (d.scale + places - excess) =
      d.mantissa / (10 ^ excess : ℕ) := by
    have hsplit : (10 : ℚ) ^ (d.scale + places) =
        10 ^ excess * 10 ^ (d.scale + places - excess) := by
      rw [← pow_add]
      congr 1
      omega
    rw [habs, hsplit, ← div_div, div_mul_cancel₀ _ (ten_pow_pos _).ne', Nat.cast_pow,
      Nat.cast_ofNat]
  have hsign : roundedQuotient d.mantissa (Nat.pow 10 excess) ≠ 0 →
      (d.negative = true ↔ d.value / 10 ^ places < 0) := by
    intro hrounded
    have hne : d.mantissa ≠ 0 := by
      have := roundedQuotient_le (m := d.mantissa) (n := Nat.pow 10 excess)
        (Nat.pow_pos (by decide))
      omega
    rw [div_neg_iff]
    simp [(ten_pow_pos places).not_gt, value_neg_iff, hne]
  refine ⟨?_, hsign, ?_⟩
  · dsimp only
    rw [hunits, floor_div_add_half _ (Nat.pow_pos (by decide))]
    rfl
  · -- either nothing is cut off, or no place is left unused
    by_cases hroom : excess = 0
    · refine .inl (value_eq_of_abs ?_ hsign)
      dsimp only
      rw [hunits, hroom, Nat.pow_zero, Nat.cast_one, div_one]
      change ((roundedQuotient d.mantissa (Nat.pow 10 excess) : ℕ) : ℚ) = _
      rw [hroom]
      exact congrArg _ (roundedQuotient_one d.mantissa)
    · refine .inr (.inl ?_)
      dsimp only
      omega

/-- Moving the point to the right loses nothing. -/
theorem value_of_shiftRight {d d' : Decimal} {places : ℕ} (h : d.shiftRight places = .ok d') :
    d'.value = d.value * 10 ^ places := by
  have habs : |d.value * 10 ^ places| = d.mantissa / 10 ^ d.scale * 10 ^ places := by
    rw [abs_mul, abs_value, abs_of_pos (ten_pow_pos places)]
  have hsign : d.mantissa ≠ 0 → (d.negative = true ↔ d.value * 10 ^ places < 0) := by
    intro hne
    rw [mul_neg_iff]
    simp [(ten_pow_pos places).not_gt, value_neg_iff, hne]
  unfold shiftRight at h
  split_ifs at h with hplaces
  · cases h
    refine value_eq_of_abs ?_ hsign
    have hsplit : (10 : ℚ) ^ d.scale = 10 ^ places * 10 ^ (d.scale - places) := by
      rw [← pow_add, Nat.add_sub_cancel' hplaces]
    dsimp only
    rw [habs, hsplit]
    field_simp
  · obtain ⟨hmantissa, hscale, hnegative⟩ := parts_of_ofReading h
    rw [Nat.pow_eq] at hmantissa hnegative
    have hsplit : (10 : ℚ) ^ places = 10 ^ d.scale * 10 ^ (places - d.scale) := by
      rw [← pow_add, Nat.add_sub_cancel' (Nat.le_of_not_le hplaces)]
    refine value_eq_of_abs ?_ fun hne => ?_
    · rw [habs, hmantissa, hscale, hsplit]
      push_cast
      field_simp
    · have hne' := hmantissa ▸ hne
      rw [hnegative hne']
      exact hsign (Nat.ne_zero_of_mul_ne_zero_left hne')

/-! ## Whole numbers -/

/-- A whole number that is read is kept as it is. -/
theorem value_of_ofInt {n : ℤ} {d : Decimal} (h : ofInt n = .ok d) : d.value = n := by
  unfold ofInt at h
  split at h
  · rename_i hparts
    cases h
    unfold ofInt? ofParts? at hparts
    split_ifs at hparts
    cases hparts
    have hsigned : (if n < 0 then -(n.natAbs : ℤ) else n.natAbs) = n := by
      split <;> omega
    rw [value, pow_zero, div_one, signed]
    simpa using congrArg (Int.cast (R := ℚ)) hsigned
  · cases h

theorem exists_ofInt_iff {n : ℤ} : (∃ d, ofInt n = .ok d) ↔ n.natAbs < mantissaLimit := by
  unfold ofInt ofInt? ofParts?
  split
  · rename_i hparts
    split at hparts
    · exact iff_of_true ⟨_, rfl⟩ ‹_ ∧ _›.1
    · cases hparts
  · rename_i hparts
    split at hparts
    · cases hparts
    · rename_i hlarge
      exact iff_of_false not_exists_error_eq_ok fun h => hlarge ⟨h, Nat.zero_le _⟩

end MarketDag.Decimal
