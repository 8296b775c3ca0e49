import MarketDag.Proofs.Number.Numeral

/-!
# Texts that are read as decimals

A text is read as a decimal exactly if it is a numeral, with an exponent behind it or without, whose
whole part fits, and the exponent moves the point no further than a decimal has places and not
beyond the largest number (`Decimal.exists_ofText_iff`).  So every text of this form is read whose
numeral and number fit, and nothing of it is lost (`Decimal.ofText_of_fits`).
-/

namespace MarketDag.Decimal

/-! ## Digits -/

theorem exists_ofReading (negative : Bool) {m s : ℕ} (hm : m < mantissaLimit) (hs : s ≤ maxScale) :
    ∃ d, ofReading negative m s = .ok d := by
  rw [ofReading, ofParts?, dif_pos ⟨hm, hs⟩]
  exact ⟨_, rfl⟩

theorem exists_ofReading_iff {negative : Bool} {m s : ℕ} (hs : s ≤ maxScale) :
    (∃ d, ofReading negative m s = .ok d) ↔ m < mantissaLimit := by
  refine ⟨?_, fun hm => exists_ofReading negative hm hs⟩
  rintro ⟨d, h⟩
  rw [← (parts_of_ofReading h).1]
  exact d.mantissa_lt

/-- The digits that are left make less than one in the last place. -/
theorem Progress.size_mul_pow_lt (started : Bool) (m s : ℕ) (cs : List Char) :
    Progress.size ⟨true, started, m, s⟩ cs * 10 ^ s < m + 1 := by
  have hunit : 0 < 10 ^ (digitsIn cs).length := Nat.pow_pos (by decide)
  have hdigits : ∀ c ∈ digitsIn cs, c.isDigit = true := isDigit_of_mem_digitsIn
  have hlt := ofDigitChars_lt hdigits
  rw [Progress.size_mul_pow, div_lt_iff₀ (by exact_mod_cast hunit),
    Nat.ofDigitChars_eq_ofDigitChars_zero]
  have : 10 ^ (digitsIn cs).length * m + Nat.ofDigitChars 10 (digitsIn cs) 0 <
      (m + 1) * 10 ^ (digitsIn cs).length := by
    rw [Nat.add_mul, Nat.one_mul, Nat.mul_comm m]
    omega
  exact_mod_cast this

/-- What is left of a numeral can be rounded if it is digits and separators; the carry only does not
fit if there is no place that it could take away. -/
theorem exists_roundAt_iff {negative : Bool} {m s : ℕ} {cs : List Char} (hm : m < mantissaLimit)
    (hs : s ≤ maxScale) : (∃ d, roundAt negative m s cs = .ok d) ↔
      Ending true true cs ∧ Progress.size ⟨true, true, m, s⟩ cs + 1 / 2 < mantissaLimit := by
  have hy := Progress.size_nonneg ⟨true, true, m, s⟩ cs
  have hsize := Progress.size_mul_pow true m s cs
  have hlt := Progress.size_mul_pow_lt true m s cs
  generalize Progress.size ⟨true, true, m, s⟩ cs = y at hy hsize hlt ⊢
  have hround := floor_div_add_half (Nat.ofDigitChars 10 (digitsIn cs) m)
    (Nat.pow_pos (by decide) : 0 < 10 ^ (digitsIn cs).length)
  rw [← hsize, roundedQuotient_digitsIn] at hround
  rw [ending_places]
  unfold roundAt
  split
  · rename_i c hfind
    have hc : ¬ (c.isDigit = true ∨ c = '_') := by simpa using List.find?_some hfind
    exact iff_of_false not_exists_error_eq_ok fun h => hc (h.1 c (List.mem_of_find?_eq_some hfind))
  · rename_i hnone
    have hchars : ∀ c ∈ cs, c.isDigit = true ∨ c = '_' := by
      simpa [or_iff_not_imp_left] using hnone
    rw [and_iff_right hchars]
    dsimp only
    have hle : (if (cs.findSome? digit?).any (5 ≤ ·) then m + 1 else m) ≤ m + 1 := by
      split <;> omega
    generalize (if (cs.findSome? digit?).any (5 ≤ ·) then m + 1 else m) = rounded
      at hround hle ⊢
    rcases Nat.eq_zero_or_pos s with rfl | hplaces
    · -- without a place, a carry beyond the mantissa is refused
      rw [pow_zero, mul_one] at hround
      rw [← Nat.floor_lt (by positivity), hround]
      split
      · rename_i hfits
        exact iff_of_true (exists_ofReading negative hfits hs) hfits
      · rename_i hfull
        rw [if_pos rfl]
        exact iff_of_false not_exists_error_eq_ok hfull
    · -- with a place, such a carry takes it away, and the number is too small to matter
      refine iff_of_true ?_ ?_
      · split
        · rename_i hfits
          exact exists_ofReading negative hfits hs
        · rw [if_neg hplaces.ne']
          have hlimit : (mantissaLimit + 4) / 10 < mantissaLimit := by decide
          exact exists_ofReading negative (by omega) (by omega)
      · have hten : y * 10 ≤ y * 10 ^ s :=
          mul_le_mul_of_nonneg_left (le_self_pow₀ (by norm_num) hplaces.ne') hy
        have hfits : (m : ℚ) + 1 ≤ mantissaLimit := by exact_mod_cast hm
        have hlimit : (1 : ℚ) ≤ mantissaLimit := by exact_mod_cast (by decide : 1 ≤ mantissaLimit)
        linarith

/-- Digits are read on exactly if they end a numeral whose whole part fits. -/
theorem exists_readDigits_iff {negative : Bool} {p : Progress} (hp : p.Sound) {cs : List Char} :
    (∃ d, readDigits negative p cs = .ok d) ↔
      Ending p.pointed p.started cs ∧ p.size cs + 1 / 2 < mantissaLimit := by
  induction cs generalizing p with
  | nil =>
    have hle : (p.mantissa : ℚ) / 10 ^ p.scale ≤ p.mantissa :=
      div_le_self (Nat.cast_nonneg _) (one_le_pow₀ (by norm_num))
    have hfits : (p.mantissa : ℚ) + 1 ≤ mantissaLimit := by exact_mod_cast hp.mantissa_lt
    have hsmall : (p.mantissa : ℚ) / 10 ^ p.scale + 1 / 2 < mantissaLimit := by linarith
    rw [readDigits, p.size_nil, ending_nil, and_iff_left hsmall]
    split
    · rename_i hstarted
      exact iff_of_true (exists_ofReading negative hp.mantissa_lt hp.scale_le) hstarted
    · rename_i hstarted
      exact iff_of_false not_exists_error_eq_ok hstarted
  | cons c cs ih =>
    rcases readDigits_cons_cases negative hp c cs with ⟨q, hq, hsize, hending, hread⟩ |
      ⟨hpointed, -, hending, hread⟩ | ⟨⟨e, hread⟩, hnot⟩
    · rw [hread, hending, ← hsize]
      exact ih hq
    · rw [hread, hending, exists_roundAt_iff hp.mantissa_lt hp.scale_le, ← hpointed]
      rfl
    · rw [hread]
      exact iff_of_false not_exists_error_eq_ok hnot

/-! ## Signs -/

/-- What stands in a numeral behind its sign, if there is one. -/
def unsigned : List Char → List Char
  | '-' :: cs => cs
  | '+' :: cs => cs
  | cs => cs

/-- Are these the characters of a numeral? A sign may stand in front. -/
def IsNumeral (cs : List Char) : Prop := Ending false false (unsigned cs)

theorem abs_numeral (cs : List Char) : |numeral cs| = Progress.start.size (unsigned cs) := by
  rw [numeral_eq, abs_withSign (Progress.size_nonneg ..)]
  unfold unsigned
  split
  · exact size_sign rfl (by decide) _
  · exact size_sign rfl (by decide) _
  · rfl

/-- A numeral is read exactly if its whole part fits, also when it is rounded. -/
theorem exists_readNumeral_iff {cs : List Char} :
    (∃ d, readNumeral cs = .ok d) ↔ IsNumeral cs ∧ |numeral cs| + 1 / 2 < mantissaLimit := by
  have hread (negative : Bool) (cs : List Char) :
      (∃ d, readDigits negative .start cs = .ok d) ↔
        Ending false false cs ∧ Progress.start.size cs + 1 / 2 < mantissaLimit :=
    exists_readDigits_iff Progress.sound_start
  rw [abs_numeral, IsNumeral]
  unfold readNumeral
  split
  · exact iff_of_false not_exists_error_eq_ok fun h => Bool.false_ne_true (ending_nil.mp h.1)
  · exact hread true _
  · exact hread false _
  · rename_i hminus hplus
    have hunsigned : unsigned cs = cs := by
      unfold unsigned
      split
      · exact absurd rfl (hminus _)
      · exact absurd rfl (hplus _)
      · rfl
    rw [hunsigned]
    exact hread false cs

/-! ## Exponents -/

/-- The digits of an exponent. A plus sign may stand in front of them, even behind a minus sign. -/
def exponentDigits : List Char → List Char
  | '-' :: cs => unplussed cs
  | cs => unplussed cs

/-- Are these the characters of an exponent? -/
def IsExponent (cs : List Char) : Prop :=
  exponentDigits cs ≠ [] ∧ ∀ c ∈ exponentDigits cs, c.isDigit = true

/-! ## Moving the point -/

theorem exists_shiftLeft_iff {d : Decimal} {places : ℕ} :
    (∃ d', d.shiftLeft places = .ok d') ↔ places ≤ maxScale := by
  unfold shiftLeft
  split
  · exact iff_of_false not_exists_error_eq_ok (by omega)
  · exact iff_of_true ⟨_, rfl⟩ (by omega)

theorem abs_value_lt (d : Decimal) : |d.value| < mantissaLimit := by
  have hle : (d.mantissa : ℚ) / 10 ^ d.scale ≤ d.mantissa :=
    div_le_self (Nat.cast_nonneg _) (one_le_pow₀ (by norm_num))
  have hlt : (d.mantissa : ℚ) < mantissaLimit := by exact_mod_cast d.mantissa_lt
  rw [abs_value]
  exact hle.trans_lt hlt

theorem exists_shiftRight_iff {d : Decimal} {places : ℕ} :
    (∃ d', d.shiftRight places = .ok d') ↔
      places ≤ maxScale ∧ |d.value| * 10 ^ places < mantissaLimit := by
  unfold shiftRight
  rw [abs_value]
  split
  · -- the point stays inside the places, so the number is no larger than the mantissa
    rename_i hle
    refine iff_of_true ⟨_, rfl⟩ ⟨hle.trans d.scale_le, ?_⟩
    have hsplit : (d.mantissa : ℚ) / 10 ^ d.scale * 10 ^ places =
        d.mantissa / 10 ^ (d.scale - places) := by
      have hpow : (10 : ℚ) ^ d.scale = 10 ^ (d.scale - places) * 10 ^ places := by
        rw [← pow_add, Nat.sub_add_cancel hle]
      rw [hpow]
      field_simp
    have hless : (d.mantissa : ℚ) / 10 ^ (d.scale - places) ≤ d.mantissa :=
      div_le_self (Nat.cast_nonneg _) (one_le_pow₀ (by norm_num))
    have hlt : (d.mantissa : ℚ) < mantissaLimit := by exact_mod_cast d.mantissa_lt
    rw [hsplit]
    exact hless.trans_lt hlt
  · rename_i hlt
    split
    · exact iff_of_false not_exists_error_eq_ok fun h => by omega
    · -- the point leaves the places behind it, and what is left is a whole number
      rename_i hplaces
      have hwhole : (d.mantissa : ℚ) / 10 ^ d.scale * 10 ^ places =
          (d.mantissa * Nat.pow 10 (places - d.scale) : ℕ) := by
        have hpow : (10 : ℚ) ^ places = 10 ^ d.scale * 10 ^ (places - d.scale) := by
          rw [← pow_add, Nat.add_sub_cancel' (by omega)]
        rw [hpow, Nat.pow_eq]
        push_cast
        field_simp
      rw [exists_ofReading_iff (Nat.zero_le _), hwhole, Nat.cast_lt,
        and_iff_right (Nat.le_of_not_lt hplaces)]

/-- A small exponent fits into thirty-two bits. -/
theorem readExponent?_of_le {cs : List Char}
    (h : unplussed cs ≠ [] ∧ ∀ c ∈ unplussed cs, c.isDigit = true)
    (hle : Nat.ofDigitChars 10 (digitsIn cs) 0 ≤ maxScale) :
    readExponent? cs = some (Nat.ofDigitChars 10 (digitsIn cs) 0) :=
  readExponent?_eq_some_iff.mpr ⟨h, rfl, hle.trans_lt (by decide)⟩

/-- The point is moved by an exponent that asks for no more than there can be. -/
theorem exists_move_iff {d : Decimal} {cs : List Char} :
    (∃ d', d.move cs = .ok d') ↔ IsExponent cs ∧ |exponentIn cs| ≤ maxScale ∧
      |d.value| * 10 ^ exponentIn cs < mantissaLimit := by
  unfold move
  split
  · rename_i digits
    -- to the left the number gets smaller, so that only the exponent has to fit
    have hsmall (n : ℕ) : |d.value| * (10 ^ n)⁻¹ < mantissaLimit := by
      have hinv : ((10 : ℚ) ^ n)⁻¹ ≤ 1 := inv_le_one_of_one_le₀ (one_le_pow₀ (by norm_num))
      exact (mul_le_of_le_one_right (abs_nonneg _) hinv).trans_lt d.abs_value_lt
    rw [exponentIn, abs_neg, Nat.abs_cast, Nat.cast_le, zpow_neg, zpow_natCast,
      and_iff_left (hsmall _)]
    cases hplaces : readExponent? digits with
    | none =>
      refine iff_of_false not_exists_error_eq_ok ?_
      rintro ⟨hexponent, hle⟩
      rw [readExponent?_of_le hexponent hle] at hplaces
      cases hplaces
    | some places =>
      obtain ⟨hexponent, hn, -⟩ := readExponent?_eq_some_iff.mp hplaces
      rw [hn]
      exact exists_shiftLeft_iff.trans (and_iff_right hexponent).symm
  · rename_i hminus
    have hexponent : exponentIn cs = (Nat.ofDigitChars 10 (digitsIn cs) 0 : ℕ) := by
      rw [exponentIn]
      exact hminus
    have hdigits : exponentDigits cs = unplussed cs := by
      rw [exponentDigits]
      exact hminus
    rw [hexponent, Nat.abs_cast, Nat.cast_le, zpow_natCast, IsExponent, hdigits]
    cases hplaces : readExponent? cs with
    | none =>
      refine iff_of_false not_exists_error_eq_ok ?_
      rintro ⟨hform, hle, -⟩
      rw [readExponent?_of_le hform hle] at hplaces
      cases hplaces
    | some places =>
      obtain ⟨hform, hn, -⟩ := readExponent?_eq_some_iff.mp hplaces
      rw [hn]
      exact exists_shiftRight_iff.trans (and_iff_right hform).symm

/-! ## Texts -/

/-- Is a text a numeral, with an exponent behind it or without? -/
structure Spelled (s : String) : Prop where
  numeral : IsNumeral (s.toList.takeWhile (! isExponentMark ·))
  exponent : ∀ mark cs, s.toList.dropWhile (! isExponentMark ·) = mark :: cs → IsExponent cs

/-- Is a text read as a decimal? Its numeral has to have a whole part that fits, and its exponent
moves the point of what the numeral is rounded to by no more than the places of a decimal, and not
beyond the largest number. -/
structure Readable (s : String) : Prop extends Spelled s where
  whole : |numeralOf s| + 1 / 2 < mantissaLimit
  places : |exponentOf s| ≤ maxScale
  fits : ∀ c : Decimal, RoundsTo (numeralOf s) c → |c.value| * 10 ^ exponentOf s < mantissaLimit

/-- A text is read as a decimal exactly if it is readable as one. -/
theorem exists_ofText_iff {s : String} : (∃ d, ofText s = .ok d) ↔ Readable s := by
  unfold ofText
  dsimp only
  cases hmark : s.toList.dropWhile (! isExponentMark ·) with
  | nil =>
    have hfront := takeWhile_of_dropWhile_eq_nil hmark
    have hexponent := exponentOf_of_no_mark hmark
    dsimp only
    rw [exists_readNumeral_iff]
    constructor
    · rintro ⟨hnumeral, hwhole⟩
      refine ⟨⟨hfront.symm ▸ hnumeral, fun mark cs h => ?_⟩, ?_, ?_, fun c _ => ?_⟩
      · rw [hmark] at h
        cases h
      · rw [numeralOf, hfront]
        exact hwhole
      · rw [hexponent, abs_zero]
        exact Int.natCast_nonneg _
      · rw [hexponent, zpow_zero, mul_one]
        exact c.abs_value_lt
    · intro h
      have hnumeral := h.numeral
      have hwhole := h.whole
      rw [numeralOf] at hwhole
      rw [hfront] at hnumeral hwhole
      exact ⟨hnumeral, hwhole⟩
  | cons mark cs =>
    have hexponent : exponentOf s = exponentIn cs := by
      rw [exponentOf, hmark, List.tail_cons]
    simp only [bind_eq_ok]
    rw [exists_comm]
    simp only [exists_and_left, exists_move_iff]
    constructor
    · rintro ⟨c, hc, hform, hplaces, hfits⟩
      have hnumeral := exists_readNumeral_iff.mp ⟨c, hc⟩
      refine ⟨⟨hnumeral.1, fun mark' cs' h => ?_⟩, hnumeral.2, hexponent ▸ hplaces,
        fun c' hc' => ?_⟩
      · cases hmark.symm.trans h
        exact hform
      · -- the numeral rounds to one number only, the one that was read
        rw [hexponent, hc'.value_unique (roundsTo_of_readNumeral hc)]
        exact hfits
    · intro h
      obtain ⟨c, hc⟩ := exists_readNumeral_iff.mpr ⟨h.numeral, h.whole⟩
      exact ⟨c, hc, h.exponent mark cs hmark, hexponent ▸ h.places,
        hexponent ▸ h.fits c (roundsTo_of_readNumeral hc)⟩

/-- A number that fits leaves room for rounding. -/
theorem abs_value_add_half_lt (d : Decimal) : |d.value| + 1 / 2 < mantissaLimit := by
  have hle : (d.mantissa : ℚ) / 10 ^ d.scale ≤ d.mantissa :=
    div_le_self (Nat.cast_nonneg _) (one_le_pow₀ (by norm_num))
  have hlt : (d.mantissa : ℚ) + 1 ≤ mantissaLimit := by exact_mod_cast d.mantissa_lt
  rw [abs_value]
  linarith

/-- Nothing is lost of a text whose numeral and number fit, if its exponent is no larger than the
places of a decimal are many. -/
theorem ofText_of_fits {s : String} {a b : Decimal} (hs : Spelled s)
    (hplaces : |exponentOf s| ≤ maxScale) (ha : a.value = numeralOf s)
    (hb : b.value = numeralOf s * 10 ^ exponentOf s) :
    ∃ d, ofText s = .ok d ∧ d.value = numeralOf s * 10 ^ exponentOf s := by
  have hreadable : Readable s := by
    refine ⟨hs, ha ▸ a.abs_value_add_half_lt, hplaces, fun c hc => ?_⟩
    have habs : |c.value| * 10 ^ exponentOf s = |b.value| := by
      have hpow : (0 : ℚ) < 10 ^ exponentOf s := zpow_pos (by norm_num) _
      rw [hc.value_eq ha, hb, abs_mul, abs_of_pos hpow]
    exact habs ▸ b.abs_value_lt
  obtain ⟨d, hd⟩ := exists_ofText_iff.mpr hreadable
  exact ⟨d, hd, ((readAs_of_ofText hd).lossless a b ha hb).trans hb⟩

end MarketDag.Decimal
