import Mathlib.Algebra.Field.Rat
import Mathlib.Algebra.Order.Field.Basic
import Mathlib.Algebra.Order.Ring.Rat
import Mathlib.Tactic.Positivity
import MarketDag.Number.Decimal.Reader

/-!
# Decimals: canonical form

Two decimals denote the same number exactly when they have the same canonical form
(`normalize_eq_iff`).  That number is a fraction (`Decimal.value`).
-/

namespace MarketDag.Decimal

/-! ## Dropping zeros -/

theorem dropZeros_value (mantissa scale : Nat) :
    (dropZeros mantissa scale).1 * 10 ^ scale = mantissa * 10 ^ (dropZeros mantissa scale).2 := by
  induction scale generalizing mantissa with
  | zero => simp [dropZeros]
  | succ scale ih =>
    rw [dropZeros]
    split
    · rename_i h
      have hm : mantissa = 10 * (mantissa / 10) := by omega
      rw [Nat.pow_succ, ← Nat.mul_assoc, ih, Nat.mul_right_comm, Nat.mul_comm _ 10, ← hm]
    · rfl

theorem dropZeros_minimal (mantissa scale : Nat) :
    (dropZeros mantissa scale).2 = 0 ∨ (dropZeros mantissa scale).1 % 10 ≠ 0 := by
  induction scale generalizing mantissa with
  | zero => simp [dropZeros]
  | succ scale ih =>
    rw [dropZeros]
    split
    · exact ih _
    · rename_i h
      exact .inr h

theorem scale_le_of_minimal {m n s t : Nat} (hn : t = 0 ∨ n % 10 ≠ 0)
    (h : m * 10 ^ t = n * 10 ^ s) : t ≤ s := by
  rcases Nat.lt_or_ge s t with hst | hst
  · obtain ⟨k, rfl⟩ := Nat.exists_eq_add_of_lt hst
    have hsplit : m * 10 ^ (s + k + 1) = m * 10 ^ k * 10 * 10 ^ s := by
      rw [show s + k + 1 = (k + 1) + s by omega, Nat.pow_add, Nat.pow_succ, ← Nat.mul_assoc,
        ← Nat.mul_assoc]
    have hcancel : m * 10 ^ k * 10 = n :=
      Nat.eq_of_mul_eq_mul_right (Nat.pow_pos (by decide)) (hsplit ▸ h)
    omega
  · exact hst

/-- A fraction without zeros at the end of its places is determined by its value. -/
theorem parts_unique {m n s t : Nat} (hm : s = 0 ∨ m % 10 ≠ 0) (hn : t = 0 ∨ n % 10 ≠ 0)
    (h : m * 10 ^ t = n * 10 ^ s) : m = n ∧ s = t := by
  have hst : s = t :=
    Nat.le_antisymm (scale_le_of_minimal hm h.symm) (scale_le_of_minimal hn h)
  subst hst
  exact ⟨Nat.eq_of_mul_eq_mul_right (Nat.pow_pos (by decide)) h, rfl⟩

/-! ## The same number -/

theorem pow_ten_pos (n : Nat) : (0 : Int) < (10 ^ n : Nat) :=
  Int.natCast_pos.mpr (Nat.pow_pos (by decide))

theorem sameValue_iff {a b : Decimal} :
    a.SameValue b ↔ a.signed * (10 ^ b.scale : Nat) = b.signed * (10 ^ a.scale : Nat) := Iff.rfl

theorem less_iff {a b : Decimal} :
    a.Less b ↔ a.signed * (10 ^ b.scale : Nat) < b.signed * (10 ^ a.scale : Nat) := Iff.rfl

theorem SameValue.refl (a : Decimal) : a.SameValue a := rfl

theorem SameValue.symm {a b : Decimal} (h : a.SameValue b) : b.SameValue a := Eq.symm h

theorem SameValue.trans {a b c : Decimal} (hab : a.SameValue b) (hbc : b.SameValue c) :
    a.SameValue c := by
  rw [sameValue_iff] at *
  apply Int.eq_of_mul_eq_mul_right (Int.ne_of_gt (pow_ten_pos b.scale))
  calc a.signed * (10 ^ c.scale : Nat) * (10 ^ b.scale : Nat)
      = a.signed * (10 ^ b.scale : Nat) * (10 ^ c.scale : Nat) := Int.mul_right_comm ..
    _ = b.signed * (10 ^ c.scale : Nat) * (10 ^ a.scale : Nat) := by
        rw [hab, Int.mul_right_comm]
    _ = c.signed * (10 ^ a.scale : Nat) * (10 ^ b.scale : Nat) := by
        rw [hbc, Int.mul_right_comm]

/-- Equal numbers are equally far below a third. -/
theorem SameValue.less_iff_less {a b : Decimal} (h : a.SameValue b) (c : Decimal) :
    a.Less c ↔ b.Less c := by
  rw [sameValue_iff] at h
  rw [less_iff, less_iff]
  have hleft : a.signed * (10 ^ c.scale : Nat) * (10 ^ b.scale : Nat) =
      b.signed * (10 ^ c.scale : Nat) * (10 ^ a.scale : Nat) := by
    rw [Int.mul_right_comm, h, Int.mul_right_comm]
  have hright : c.signed * (10 ^ a.scale : Nat) * (10 ^ b.scale : Nat) =
      c.signed * (10 ^ b.scale : Nat) * (10 ^ a.scale : Nat) := Int.mul_right_comm ..
  rw [← Int.mul_lt_mul_right (pow_ten_pos b.scale), hleft, hright,
    Int.mul_lt_mul_right (pow_ten_pos a.scale)]

/-! ## Canonical form -/

/-- The canonical form denotes the same number. -/
theorem sameValue_normalize (d : Decimal) : d.SameValue d.normalize := by
  have hvalue := dropZeros_value d.mantissa d.scale
  have hsigned : d.normalize.signed =
      if d.negative then -((dropZeros d.mantissa d.scale).1 : Int)
      else (dropZeros d.mantissa d.scale).1 := by
    simp only [normalize, signed]
    by_cases h : (dropZeros d.mantissa d.scale).1 = 0 <;> simp [h]
  have hcast : ((dropZeros d.mantissa d.scale).1 : Int) * (10 ^ d.scale : Nat) =
      d.mantissa * (10 ^ (dropZeros d.mantissa d.scale).2 : Nat) := by
    exact_mod_cast hvalue
  rw [sameValue_iff, hsigned]
  change d.signed * (10 ^ (dropZeros d.mantissa d.scale).2 : Nat) = _
  unfold signed
  split
  · rw [Int.neg_mul, Int.neg_mul, hcast]
  · exact hcast.symm

theorem natAbs_signed (d : Decimal) : d.signed.natAbs = d.mantissa := by
  unfold signed
  split <;> simp

theorem signed_nonneg_iff {d : Decimal} (h : d.mantissa ≠ 0) :
    0 ≤ d.signed ↔ d.negative = false := by
  unfold signed
  split <;> simp_all

/-- Two canonical forms of one number are one. -/
theorem eq_of_sameValue {a b : Decimal} (h : a.SameValue b)
    (ha : a.scale = 0 ∨ a.mantissa % 10 ≠ 0) (hb : b.scale = 0 ∨ b.mantissa % 10 ≠ 0)
    (hazero : a.mantissa = 0 → a.negative = false) (hbzero : b.mantissa = 0 → b.negative = false) :
    a = b := by
  rw [sameValue_iff] at h
  have hnat : a.mantissa * 10 ^ b.scale = b.mantissa * 10 ^ a.scale := by
    have habs := congrArg Int.natAbs h
    rwa [Int.natAbs_mul, Int.natAbs_mul, natAbs_signed, natAbs_signed, Int.natAbs_natCast,
      Int.natAbs_natCast] at habs
  -- neither ends in a zero behind the point, so they have the same places
  obtain ⟨hm, hs⟩ := parts_unique ha hb hnat
  have hsign : a.negative = b.negative := by
    rw [hs] at h
    have hsigned : a.signed = b.signed :=
      Int.eq_of_mul_eq_mul_right (Int.ne_of_gt (pow_ten_pos b.scale)) h
    by_cases hz : a.mantissa = 0
    · rw [hazero hz, hbzero (hm ▸ hz)]
    · have hiff := (signed_nonneg_iff hz).symm.trans (hsigned ▸ signed_nonneg_iff (hm ▸ hz))
      cases ha : a.negative <;> cases hb : b.negative <;> simp_all
  cases a
  cases b
  simp_all

theorem normalize_minimal (d : Decimal) :
    d.normalize.scale = 0 ∨ d.normalize.mantissa % 10 ≠ 0 :=
  dropZeros_minimal d.mantissa d.scale

theorem normalize_negative_of_zero {d : Decimal} (h : d.normalize.mantissa = 0) :
    d.normalize.negative = false := by
  simp only [normalize] at h ⊢
  simp [h]

/-- Two decimals denote the same number exactly when they have the same canonical form. -/
theorem normalize_eq_iff {a b : Decimal} : a.normalize = b.normalize ↔ a.SameValue b := by
  constructor
  · intro h
    exact (sameValue_normalize a).trans (h ▸ (sameValue_normalize b).symm)
  · intro h
    have hnorm : a.normalize.SameValue b.normalize :=
      (sameValue_normalize a).symm.trans (h.trans (sameValue_normalize b))
    exact eq_of_sameValue hnorm (normalize_minimal a) (normalize_minimal b)
      normalize_negative_of_zero normalize_negative_of_zero

@[simp] theorem normalize_normalize (d : Decimal) : d.normalize.normalize = d.normalize :=
  normalize_eq_iff.mpr (sameValue_normalize d).symm

/-- Equal numbers have equal texts. -/
theorem canonicalText_normalize (d : Decimal) : d.normalize.canonicalText = d.canonicalText := by
  rw [canonicalText, normalize_normalize, canonicalText]

/-! ## The number itself -/

/-- The number that a decimal denotes. -/
def value (d : Decimal) : ℚ := d.signed / 10 ^ d.scale

/-- Decimals that are the same number denote it. -/
theorem sameValue_iff_value_eq {a b : Decimal} : a.SameValue b ↔ a.value = b.value := by
  have ha : (10 : ℚ) ^ a.scale ≠ 0 := by positivity
  have hb : (10 : ℚ) ^ b.scale ≠ 0 := by positivity
  rw [sameValue_iff, value, value, div_eq_div_iff ha hb]
  exact_mod_cast Iff.rfl

theorem not_less_one_iff {d : Decimal} : ¬ d.Less .one ↔ 1 ≤ d.value := by
  have hpos : (0 : ℚ) < 10 ^ d.scale := by positivity
  have hone : (one.signed : ℤ) = 1 ∧ one.scale = 0 := ⟨rfl, rfl⟩
  rw [less_iff, hone.1, hone.2, not_lt, value, one_le_div hpos, pow_zero, one_mul, Nat.cast_one,
    mul_one]
  exact_mod_cast Iff.rfl

end MarketDag.Decimal
