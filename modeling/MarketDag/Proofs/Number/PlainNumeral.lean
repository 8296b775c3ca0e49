import MarketDag.Proofs.Number.Digits
import MarketDag.Proofs.Number.Rounding

/-!
# Plain numerals

A plain numeral has a sign, digits and perhaps a point with more digits, and nothing that could be
left out.  Every decimal is written as one (`PlainNumeral.text_ofDecimal`), and no other plain
numeral has its number (`PlainNumeral.eq_ofDecimal`).
-/

namespace MarketDag

/-! ## Numerals -/

/-- A numeral without an exponent and without anything needless: no zero stands at its front or at
the end of its places, no point without places, and no sign before zero. -/
structure PlainNumeral where
  negative : Bool
  whole : List Char
  /-- The digits behind the point, which is there if they are. -/
  places : List Char
  whole_ne_nil : whole ≠ []
  isDigit_whole : ∀ c ∈ whole, c.isDigit = true
  isDigit_places : ∀ c ∈ places, c.isDigit = true
  head_whole : whole.head? = some '0' → whole = ['0']
  getLast_places : places.getLast? ≠ some '0'
  not_zero : negative = true → ∃ c ∈ whole ++ places, c ≠ '0'

namespace PlainNumeral

variable {n : PlainNumeral}

/-- The sign, the digits and the point. -/
def chars (n : PlainNumeral) : List Char :=
  (if n.negative then ['-'] else []) ++
    (n.whole ++ if n.places = [] then [] else '.' :: n.places)

/-- The numeral as a text. -/
def text (n : PlainNumeral) : String := String.ofList n.chars

/-- The number of all digits. -/
def mantissa (n : PlainNumeral) : ℕ := Nat.ofDigitChars 10 (n.whole ++ n.places) 0

/-- The number of the numeral: its digits in units of its last place, with the sign in front. -/
def value (n : PlainNumeral) : ℚ :=
  Decimal.withSign n.negative (n.mantissa / 10 ^ n.places.length)

theorem ext_parts {n m : PlainNumeral} (hnegative : n.negative = m.negative)
    (hwhole : n.whole = m.whole) (hplaces : n.places = m.places) : n = m := by
  cases n
  cases m
  simp_all

theorem mantissa_eq (n : PlainNumeral) :
    n.mantissa = 10 ^ n.places.length * Nat.ofDigitChars 10 n.whole 0 +
      Nat.ofDigitChars 10 n.places 0 := by
  rw [mantissa, Nat.ofDigitChars_append, Nat.ofDigitChars_eq_ofDigitChars_zero]

theorem mantissa_ne_zero (h : n.negative = true) : n.mantissa ≠ 0 := by
  intro hzero
  obtain ⟨c, hc, hne⟩ := n.not_zero h
  refine hne ((Decimal.ofDigitChars_eq_zero fun c hc => ?_).mp hzero c hc)
  exact (List.mem_append.mp hc).elim (n.isDigit_whole c) (n.isDigit_places c)

/-- The last place is not zero. -/
theorem minimal (n : PlainNumeral) : n.places.length = 0 ∨ n.mantissa % 10 ≠ 0 := by
  rcases List.eq_nil_or_concat' n.places with hnil | ⟨front, c, hplaces⟩
  · exact .inl (by rw [hnil, List.length_nil])
  refine .inr fun hzero => n.getLast_places ?_
  have hc : c.isDigit = true := n.isDigit_places c (by rw [hplaces]; simp)
  have hrange := Date.toNat_of_isDigit hc
  rw [mantissa, hplaces, ← List.append_assoc, Decimal.ofDigitChars_concat] at hzero
  have hcode : c = '0' := Char.toNat_inj.mp (by change c.toNat = 48; omega)
  rw [hplaces, hcode, List.getLast?_concat]

/-- Numerals of one mantissa with equally many places have the same digits. -/
theorem digits_unique {n m : PlainNumeral} (hmantissa : n.mantissa = m.mantissa)
    (hlength : n.places.length = m.places.length) : n.whole = m.whole ∧ n.places = m.places := by
  have hunit : 0 < 10 ^ m.places.length := Nat.pow_pos (by decide)
  have hn := Decimal.ofDigitChars_lt n.isDigit_places
  have hm := Decimal.ofDigitChars_lt m.isDigit_places
  rw [mantissa_eq, mantissa_eq, hlength] at hmantissa
  rw [hlength] at hn
  have hplaces := congrArg (· % 10 ^ m.places.length) hmantissa
  have hwhole := congrArg (· / 10 ^ m.places.length) hmantissa
  simp only [Nat.mul_add_mod, Nat.mod_eq_of_lt hn, Nat.mod_eq_of_lt hm] at hplaces
  simp only [Nat.mul_add_div hunit, Nat.div_eq_of_lt hn, Nat.div_eq_of_lt hm, Nat.add_zero]
    at hwhole
  refine ⟨?_, Decimal.eq_of_ofDigitChars_eq n.isDigit_places m.isDigit_places hlength hplaces⟩
  rw [← Decimal.toDigits_ofDigitChars n.whole_ne_nil n.isDigit_whole n.head_whole, hwhole,
    Decimal.toDigits_ofDigitChars m.whole_ne_nil m.isDigit_whole m.head_whole]

/-- A numeral has a sign if its number is below zero, and only then. -/
theorem value_neg_iff : n.value < 0 ↔ n.negative = true := by
  have hunit : (0 : ℚ) < 10 ^ n.places.length := by positivity
  unfold value Decimal.withSign
  split
  · rename_i hnegative
    have hmantissa : (0 : ℚ) < n.mantissa :=
      Nat.cast_pos.mpr (Nat.pos_of_ne_zero (mantissa_ne_zero hnegative))
    simp only [hnegative, iff_true, neg_lt_zero]
    exact div_pos hmantissa hunit
  · rename_i hnegative
    simp only [hnegative, iff_false, not_lt, Bool.false_eq_true]
    positivity

/-! ## The numeral of a decimal -/

/-- The numeral of a decimal, from its canonical form. -/
def ofDecimal (d : Decimal) : PlainNumeral where
  negative := d.normalize.negative
  whole := Nat.toDigits 10 (d.normalize.mantissa / 10 ^ d.normalize.scale)
  places := Decimal.placesOf d.normalize.mantissa d.normalize.scale
  whole_ne_nil := Nat.toDigits_ne_nil
  isDigit_whole := Decimal.isDigit_of_mem_toDigits
  isDigit_places := Decimal.isDigit_placesOf
  head_whole h := by
    rcases Nat.eq_zero_or_pos (d.normalize.mantissa / 10 ^ d.normalize.scale) with hzero | hpos
    · rw [hzero]
      rfl
    · exact absurd h (Decimal.head?_toDigits hpos)
  getLast_places h := by
    -- a zero at the end would be a last digit that the canonical form has dropped
    obtain ⟨front, hplaces⟩ := List.getLast?_eq_some_iff.mp h
    have hparts := Decimal.ofDigitChars_parts d.normalize.mantissa d.normalize.scale
    have hlength := Decimal.length_placesOf d.normalize.mantissa d.normalize.scale
    rw [hplaces, ← List.append_assoc, Decimal.ofDigitChars_concat] at hparts
    rw [hplaces, List.length_append, List.length_singleton] at hlength
    have hcode : '0'.toNat - 48 = 0 := rfl
    rcases d.normalize_minimal with hscale | hlast <;> omega
  not_zero h := by
    by_contra hall
    push Not at hall
    have hdigits := (Decimal.ofDigitChars_eq_zero fun c hc => by
      rw [hall c hc]
      rfl).mpr hall
    rw [Decimal.ofDigitChars_parts] at hdigits
    rw [Decimal.normalize_negative_of_zero hdigits] at h
    cases h

theorem mantissa_ofDecimal (d : Decimal) : (ofDecimal d).mantissa = d.normalize.mantissa :=
  Decimal.ofDigitChars_parts ..

/-- The numeral of a decimal has its number. -/
theorem value_ofDecimal (d : Decimal) : (ofDecimal d).value = d.value := by
  have hvalue : d.value = d.normalize.value :=
    Decimal.sameValue_iff_value_eq.mp (Decimal.sameValue_normalize d)
  have hlength : (ofDecimal d).places.length = d.normalize.scale := Decimal.length_placesOf ..
  rw [hvalue, Decimal.value_eq_withSign, value, mantissa_ofDecimal, hlength]
  rfl

/-- The canonical text of a decimal is its numeral. -/
theorem text_ofDecimal (d : Decimal) : (ofDecimal d).text = d.canonicalText := by
  rw [text, chars, Decimal.canonicalText, Decimal.toText, Decimal.toChars_eq,
    Decimal.unsignedChars_eq]
  rfl

/-- A decimal is written with twenty-nine digits at most in front of the point. -/
theorem length_whole_ofDecimal (d : Decimal) : (ofDecimal d).whole.length ≤ 29 := by
  have hlimit : Decimal.mantissaLimit ≤ 10 ^ 29 := by decide
  have hle := Nat.div_le_self d.normalize.mantissa (10 ^ d.normalize.scale)
  have hlt := d.normalize.mantissa_lt
  exact (Nat.length_toDigits_le_iff (by decide) (by decide)).mpr (by omega)

/-- A decimal is written with sixty characters at most. -/
theorem length_chars_ofDecimal (d : Decimal) : (ofDecimal d).chars.length ≤ 60 := by
  have hwhole := length_whole_ofDecimal d
  have hplaces : (ofDecimal d).places.length ≤ 28 :=
    (Decimal.length_placesOf ..).trans_le d.normalize.scale_le
  have hsign : (if (ofDecimal d).negative then ['-'] else []).length ≤ 1 := by split <;> simp
  have hpoint : (if (ofDecimal d).places = [] then [] else '.' :: (ofDecimal d).places).length ≤
      29 := by
    split
    · simp
    · rw [List.length_cons]
      omega
  rw [chars, List.length_append, List.length_append]
  omega

/-- A number has one plain numeral at most, so that any other way to write a decimal has something
needless. -/
theorem eq_ofDecimal {d : Decimal} (h : n.value = d.value) : n = ofDecimal d := by
  rw [← value_ofDecimal] at h
  have habs (k : PlainNumeral) : |k.value| = k.mantissa / 10 ^ k.places.length :=
    Decimal.abs_withSign (by positivity)
  have hsize := congrArg abs h
  rw [habs, habs, div_eq_div_iff (by positivity) (by positivity)] at hsize
  obtain ⟨hmantissa, hlength⟩ := Decimal.parts_unique n.minimal (ofDecimal d).minimal
    (by exact_mod_cast hsize)
  obtain ⟨hwhole, hplaces⟩ := digits_unique hmantissa hlength
  refine ext_parts ?_ hwhole hplaces
  rw [Bool.eq_iff_iff, ← value_neg_iff, ← value_neg_iff, h]

end PlainNumeral

end MarketDag
