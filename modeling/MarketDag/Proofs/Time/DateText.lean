import Mathlib.Data.String.Basic
import MarketDag.Proofs.Time.Date

/-!
# The text of dates

The text of a date has the form `YYYY-MM-DD` exactly when its year is one of 0000 to 9999
(`Date.hasForm_iff`).  Texts of this form are in the order of their dates (`Date.toText_lt_iff`),
because their parts have fixed lengths.  A year after 9999 has a plus in front of it, so that the
text of such a date comes before that of every earlier year (`Date.toText_lt_of_long`).
-/

namespace MarketDag

/-! ## Texts with parts of fixed lengths -/

theorem append_lt_append_iff {as bs as' bs' : List Char} (h : as.length = bs.length) :
    as ++ as' < bs ++ bs' ↔ as < bs ∨ (as = bs ∧ as' < bs') := by
  induction as generalizing bs with
  | nil =>
    obtain rfl := List.eq_nil_of_length_eq_zero h.symm
    simp
  | cons a as ih =>
    cases bs with
    | nil => cases h
    | cons b bs =>
      simp only [List.cons_append, List.cons_lt_cons_iff, ih (Nat.succ.inj h), List.cons.injEq]
      tauto

namespace Date

theorem padded_inj {width a b : Nat} : padded width a = padded width b ↔ a = b := by
  constructor
  · intro h
    rw [← ofDigitChars_padded width a, h, ofDigitChars_padded]
  · exact congrArg (padded width)

theorem padded_lt_padded_iff {width a b : Nat} (hwidth : 0 < width) (ha : a < 10 ^ width)
    (hb : b < 10 ^ width) : padded width a < padded width b ↔ a < b := by
  have hlength : (padded width a).length = (padded width b).length := by
    rw [length_padded hwidth ha, length_padded hwidth hb]
  rw [Decimal.lt_iff_ofDigitChars_lt (fun _ => isDigit_of_mem_padded)
    (fun _ => isDigit_of_mem_padded) hlength, ofDigitChars_padded, ofDigitChars_padded]

/-- Numbers of one width in front of something else: the first ones decide, then the rest. -/
theorem padded_append_lt_iff {width a b : Nat} {as bs : List Char} (hwidth : 0 < width)
    (ha : a < 10 ^ width) (hb : b < 10 ^ width) :
    padded width a ++ as < padded width b ++ bs ↔ a < b ∨ (a = b ∧ as < bs) := by
  have hlength : (padded width a).length = (padded width b).length := by
    rw [length_padded hwidth ha, length_padded hwidth hb]
  rw [append_lt_append_iff hlength, padded_lt_padded_iff hwidth ha hb, padded_inj]

/-! ## The form -/

/-- Is the year of a date one of 0000 to 9999? -/
def FourDigitYear (d : Date) : Prop := 0 ≤ d.year ∧ d.year ≤ 9999

instance (d : Date) : Decidable d.FourDigitYear := inferInstanceAs (Decidable (_ ∧ _))

/-- Has a text the form `YYYY-MM-DD`: four digits, two digits and two digits, with dashes between
them? -/
def HasForm (s : String) : Prop :=
  ∃ year month day : List Char, s.toList = year ++ '-' :: (month ++ '-' :: day) ∧
    (year.length = 4 ∧ month.length = 2 ∧ day.length = 2) ∧
    ∀ c ∈ year ++ month ++ day, c.isDigit = true

theorem HasForm.length_eq {s : String} (h : HasForm s) : s.length = 10 := by
  obtain ⟨year, month, day, hs, ⟨hyear, hmonth, hday⟩, -⟩ := h
  rw [← String.length_toList, hs]
  simp only [List.length_append, List.length_cons]
  omega

theorem month_lt (d : Date) : d.month < 10 ^ 2 := by
  obtain ⟨-, hmonth, -⟩ := d.valid
  omega

theorem day_lt (d : Date) : d.day < 10 ^ 2 := by
  obtain ⟨-, -, hday⟩ := d.valid
  have hdays := daysIn_le d.year d.month
  omega

/-- The parts of a date whose year has four digits, one behind the other. -/
theorem toChars_of_fourDigitYear {d : Date} (h : d.FourDigitYear) :
    d.toChars = padded 4 d.year.toNat ++ '-' :: (padded 2 d.month ++ '-' :: padded 2 d.day) := by
  have hyear : yearChars d.year = padded 4 d.year.toNat := if_pos h
  rw [toChars, hyear]
  simp only [List.append_assoc, List.cons_append]

theorem hasForm_of_fourDigitYear {d : Date} (h : d.FourDigitYear) : HasForm d.toText := by
  have hyear : d.year.toNat < 10 ^ 4 := by
    obtain ⟨hlow, hhigh⟩ := h
    omega
  refine ⟨padded 4 d.year.toNat, padded 2 d.month, padded 2 d.day, ?_,
    ⟨length_padded (by decide) hyear, length_padded (by decide) d.month_lt,
      length_padded (by decide) d.day_lt⟩, fun c hc => ?_⟩
  · rw [toText, String.toList_ofList, toChars_of_fourDigitYear h]
  · simp only [List.mem_append] at hc
    rcases hc with (hc | hc) | hc <;> exact isDigit_of_mem_padded hc

/-- Any other year has a sign in front of its four digits or more. -/
theorem toChars_of_not_fourDigitYear {d : Date} (h : ¬ d.FourDigitYear) :
    d.toChars = (if d.year < 0 then '-' else '+') ::
      (padded 4 d.year.natAbs ++ '-' :: (padded 2 d.month ++ '-' :: padded 2 d.day)) := by
  have hyear : yearChars d.year =
      (if d.year < 0 then '-' else '+') :: padded 4 d.year.natAbs := if_neg h
  rw [toChars, hyear]
  simp only [List.append_assoc, List.cons_append]

theorem lt_length_of_not_fourDigitYear {d : Date} (h : ¬ d.FourDigitYear) :
    10 < d.toText.length := by
  have hyear := le_length_padded 4 d.year.natAbs
  have hmonth := le_length_padded 2 d.month
  have hday := le_length_padded 2 d.day
  rw [toText, String.length_ofList, toChars_of_not_fourDigitYear h]
  simp only [List.length_append, List.length_cons]
  omega

/-- Exactly the years 0000 to 9999 leave a date its form. -/
theorem hasForm_iff {d : Date} : HasForm d.toText ↔ d.FourDigitYear := by
  constructor
  · intro h
    by_contra hyear
    have hlong := lt_length_of_not_fourDigitYear hyear
    have hlength := h.length_eq
    omega
  · exact hasForm_of_fourDigitYear

theorem length_toText_eq_ten_iff {d : Date} : d.toText.length = 10 ↔ d.FourDigitYear := by
  constructor
  · intro h
    by_contra hyear
    have hlong := lt_length_of_not_fourDigitYear hyear
    omega
  · intro h
    exact (hasForm_of_fourDigitYear h).length_eq

/-! ## The order -/

/-- Texts of the form are in the order of their dates. -/
theorem toText_lt_iff {a b : Date} (ha : a.FourDigitYear) (hb : b.FourDigitYear) :
    a.toText < b.toText ↔ a.Before b := by
  obtain ⟨halow, hahigh⟩ := id ha
  obtain ⟨hblow, hbhigh⟩ := id hb
  have hlt : a.year.toNat < b.year.toNat ↔ a.year < b.year := by omega
  have heq : a.year.toNat = b.year.toNat ↔ a.year = b.year := by omega
  have hdash (as bs : List Char) : '-' :: as < '-' :: bs ↔ as < bs := by
    simp
  rw [String.lt_iff_toList_lt, toText, toText, String.toList_ofList, String.toList_ofList,
    toChars_of_fourDigitYear ha, toChars_of_fourDigitYear hb,
    padded_append_lt_iff (by decide) (by omega) (by omega), hdash,
    padded_append_lt_iff (by decide) a.month_lt b.month_lt, hdash,
    padded_lt_padded_iff (by decide) a.day_lt b.day_lt, hlt, heq]
  rfl

/-- The text of a date after the year 9999 comes before the text of every date up to this year. -/
theorem toText_lt_of_long {a b : Date} (ha : a.year ≤ 9999) (hb : 9999 < b.year) :
    b.toText < a.toText := by
  have hplus : b.toChars = '+' ::
      (padded 4 b.year.natAbs ++ '-' :: (padded 2 b.month ++ '-' :: padded 2 b.day)) := by
    rw [toChars_of_not_fourDigitYear fun h => absurd h.2 (Int.not_le.mpr hb), if_neg (by omega)]
  -- digits and the minus sign come behind the plus sign
  obtain ⟨c, cs, hfirst, hc⟩ : ∃ c cs, a.toChars = c :: cs ∧ '+' < c := by
    by_cases h : a.FourDigitYear
    · obtain ⟨c, cs, hpadded, hc⟩ := padded_eq_cons 4 a.year.toNat
      refine ⟨c, _, by rw [toChars_of_fourDigitYear h, hpadded, List.cons_append], ?_⟩
      have hrange := toNat_of_isDigit hc
      rw [Char.lt_def, UInt32.lt_iff_toNat_lt]
      exact Nat.lt_of_lt_of_le (by decide) hrange.1
    · have hneg : a.year < 0 := by
        rw [FourDigitYear] at h
        omega
      exact ⟨'-', _, by rw [toChars_of_not_fourDigitYear h, if_pos hneg], by decide⟩
  rw [String.lt_iff_toList_lt, toText, toText, String.toList_ofList, String.toList_ofList, hplus,
    hfirst, List.cons_lt_cons_iff]
  exact .inl hc

end Date

end MarketDag
