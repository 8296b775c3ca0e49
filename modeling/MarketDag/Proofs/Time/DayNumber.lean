import MarketDag.Proofs.Time.Instant

/-!
# Counting days and seconds

Days are counted over the years and the months before them (`Date.dayNumber`).  The count goes up by
one from a day to the next (`Date.exists_next`, `Date.exists_previous`), and no two days have one
number (`Date.dayNumber_inj`).  So an instant is told by its number of seconds
(`Instant.eq_of_seconds`), and moving it adds to that number (`Instant.exists_shift`).
-/

namespace MarketDag

namespace Date

/-! ## Years and months -/

/-- The days from the start of the year 0 to the start of a year. -/
def daysBeforeYear (year : Int) : Int :=
  365 * year + (year - 1) / 4 - (year - 1) / 100 + (year - 1) / 400 + 1

/-- The days of a year before a month. -/
def daysBeforeMonth (year : Int) : Nat → Nat
  | 0 => 0
  | 1 => 0
  | month + 2 => daysBeforeMonth year (month + 1) + daysIn year (month + 1)

theorem daysBeforeMonth_succ (year : Int) {month : Nat} (h : 1 ≤ month) :
    daysBeforeMonth year (month + 1) = daysBeforeMonth year month + daysIn year month := by
  obtain ⟨k, rfl⟩ := Nat.exists_eq_add_of_le' h
  rfl

theorem isLeap_iff {year : Int} :
    isLeap year = true ↔ year % 4 = 0 ∧ (year % 100 ≠ 0 ∨ year % 400 = 0) := by
  simp [isLeap]

/-- The months of a year fill it. -/
theorem daysBeforeYear_succ (year : Int) :
    daysBeforeYear (year + 1) = daysBeforeYear year + daysBeforeMonth year 13 := by
  cases h : isLeap year with
  | true =>
    have hmonths : daysBeforeMonth year 13 = 366 := by simp [daysBeforeMonth, daysIn, h]
    have hleap := isLeap_iff.mp h
    rw [hmonths, daysBeforeYear, daysBeforeYear]
    omega
  | false =>
    have hmonths : daysBeforeMonth year 13 = 365 := by simp [daysBeforeMonth, daysIn, h]
    have hcommon := mt isLeap_iff.mpr (Bool.eq_false_iff.mp h)
    rw [hmonths, daysBeforeYear, daysBeforeYear]
    omega

theorem daysBeforeYear_mono {a b : Int} (h : a ≤ b) : daysBeforeYear a ≤ daysBeforeYear b := by
  rw [daysBeforeYear, daysBeforeYear]
  omega

theorem daysBeforeMonth_mono (year : Int) {a b : Nat} (h : a ≤ b) :
    daysBeforeMonth year a ≤ daysBeforeMonth year b := by
  induction h with
  | refl => exact Nat.le_refl _
  | @step m _ ih =>
    refine Nat.le_trans ih ?_
    cases m with
    | zero => exact Nat.le_refl _
    | succ k => exact Nat.le_add_right ..

/-! ## Days -/

/-- The number of a day, the first of January of the year 0 being day one. -/
def dayNumber (d : Date) : Int := daysBeforeYear d.year + daysBeforeMonth d.year d.month + d.day

/-- A day belongs to its month. -/
theorem dayNumber_le_of_month (d : Date) :
    d.dayNumber ≤ daysBeforeYear d.year + daysBeforeMonth d.year (d.month + 1) := by
  obtain ⟨-, hmonth, hday⟩ := d.valid
  rw [dayNumber, daysBeforeMonth_succ _ hmonth.1]
  omega

/-- A later day has a greater number. -/
theorem dayNumber_lt_of_before {a b : Date} (h : a.Before b) : a.dayNumber < b.dayNumber := by
  obtain ⟨-, hmonth, -⟩ := a.valid
  obtain ⟨-, hmonth', hday'⟩ := b.valid
  rcases h with hyear | ⟨hyear, hmonths | ⟨hmonths, hday⟩⟩
  · have hlast := a.dayNumber_le_of_month
    have hfill := daysBeforeMonth_mono a.year (show a.month + 1 ≤ 13 by omega)
    have hnext := daysBeforeYear_mono (show a.year + 1 ≤ b.year by omega)
    rw [daysBeforeYear_succ] at hnext
    show a.dayNumber < daysBeforeYear b.year + daysBeforeMonth b.year b.month + b.day
    omega
  · have hlast := a.dayNumber_le_of_month
    have hnext := daysBeforeMonth_mono a.year (show a.month + 1 ≤ b.month by omega)
    show a.dayNumber < daysBeforeYear b.year + daysBeforeMonth b.year b.month + b.day
    rw [← hyear]
    omega
  · rw [dayNumber, dayNumber, hyear, hmonths]
    omega

theorem eq_or_before (a b : Date) : a = b ∨ a.Before b ∨ b.Before a := by
  obtain ⟨year, month, day, _⟩ := a
  obtain ⟨year', month', day', _⟩ := b
  simp only [Before, Date.mk.injEq]
  omega

/-- No two days have one number. -/
theorem dayNumber_inj {a b : Date} : a.dayNumber = b.dayNumber ↔ a = b := by
  constructor
  · intro h
    rcases eq_or_before a b with heq | hbefore | hbefore
    · exact heq
    · exact absurd h (Int.ne_of_lt (dayNumber_lt_of_before hbefore))
    · exact absurd h.symm (Int.ne_of_lt (dayNumber_lt_of_before hbefore))
  · exact congrArg dayNumber

/-! ## Neighbours -/

theorem ofParts?_of_valid {year : Int} {month day : Nat} (h : Valid year month day) :
    ofParts? year month day = some ⟨year, month, day, h⟩ := dif_pos h

theorem le_daysIn (year : Int) (month : Nat) : 28 ≤ daysIn year month := by
  unfold daysIn
  repeat' split
  all_goals decide

/-- The next day has the next number. -/
theorem exists_next {d : Date} (h : d.year < lastYear) :
    ∃ e, d.next? = some e ∧ e.dayNumber = d.dayNumber + 1 := by
  obtain ⟨hyear, hmonth, hday⟩ := d.valid
  unfold next?
  -- in the month, at the end of a month, or at the end of the year
  by_cases hinside : d.day < daysIn d.year d.month
  · have hvalid : Valid d.year d.month (d.day + 1) := ⟨hyear, hmonth, by omega, hinside⟩
    rw [if_pos hinside, ofParts?_of_valid hvalid]
    refine ⟨_, rfl, ?_⟩
    simp only [dayNumber]
    omega
  · have hlast : d.day = daysIn d.year d.month := by omega
    have hsucc := daysBeforeMonth_succ d.year hmonth.1
    rw [if_neg hinside]
    by_cases hmonths : d.month < 12
    · have hvalid : Valid d.year (d.month + 1) 1 :=
        ⟨hyear, by omega, by omega, Nat.le_trans (by decide) (le_daysIn ..)⟩
      rw [if_pos hmonths, ofParts?_of_valid hvalid]
      refine ⟨_, rfl, ?_⟩
      simp only [dayNumber]
      omega
    · have hmonth12 : d.month = 12 := by omega
      have hvalid : Valid (d.year + 1) 1 1 :=
        ⟨⟨by omega, by omega⟩, by decide, by decide, Nat.le_trans (by decide) (le_daysIn ..)⟩
      have hfill := daysBeforeYear_succ d.year
      have hfirst : daysBeforeMonth (d.year + 1) 1 = 0 := rfl
      rw [if_neg hmonths, ofParts?_of_valid hvalid]
      refine ⟨_, rfl, ?_⟩
      simp only [hmonth12, Nat.reduceAdd] at hsucc hlast
      simp only [dayNumber, hfirst, hmonth12]
      omega

/-- The day before has the number before. -/
theorem exists_previous {d : Date} (h : firstYear < d.year) :
    ∃ e, d.previous? = some e ∧ e.dayNumber = d.dayNumber - 1 := by
  obtain ⟨hyear, hmonth, hday⟩ := d.valid
  unfold previous?
  -- in the month, at the start of a month, or at the start of the year
  by_cases hinside : 1 < d.day
  · have hvalid : Valid d.year d.month (d.day - 1) := ⟨hyear, hmonth, by omega, by omega⟩
    rw [if_pos hinside, ofParts?_of_valid hvalid]
    refine ⟨_, rfl, ?_⟩
    simp only [dayNumber]
    omega
  · have hone : d.day = 1 := by omega
    rw [if_neg hinside]
    by_cases hmonths : 1 < d.month
    · have hvalid : Valid d.year (d.month - 1) (daysIn d.year (d.month - 1)) :=
        ⟨hyear, by omega, Nat.le_trans (by decide) (le_daysIn ..), Nat.le_refl _⟩
      have hsucc := daysBeforeMonth_succ d.year (show 1 ≤ d.month - 1 by omega)
      rw [Nat.sub_add_cancel hmonth.1] at hsucc
      rw [if_pos hmonths, ofParts?_of_valid hvalid]
      refine ⟨_, rfl, ?_⟩
      simp only [dayNumber]
      omega
    · have hmonth1 : d.month = 1 := by omega
      have hvalid : Valid (d.year - 1) 12 31 :=
        ⟨⟨by omega, by omega⟩, by decide, by decide, by simp [daysIn]⟩
      have hfill := daysBeforeYear_succ (d.year - 1)
      have hlast : daysBeforeMonth (d.year - 1) 13 = daysBeforeMonth (d.year - 1) 12 + 31 := rfl
      have hfirst : daysBeforeMonth d.year 1 = 0 := rfl
      rw [Int.sub_add_cancel] at hfill
      rw [if_neg hmonths, ofParts?_of_valid hvalid]
      refine ⟨_, rfl, ?_⟩
      simp only [dayNumber, hmonth1, hone, hfirst]
      omega

end Date

/-! ## Seconds -/

namespace Instant

/-- The number of whole seconds of an instant. -/
def seconds (t : Instant) : Int := t.date.dayNumber * 86400 + t.second

/-- An instant is told by its seconds and its fraction. -/
theorem eq_of_seconds {t u : Instant} (hseconds : t.seconds = u.seconds)
    (hnanos : t.nanos = u.nanos) : t = u := by
  have ht := t.second_lt
  have hu := u.second_lt
  simp only [seconds] at hseconds
  have hdate : t.date = u.date := Date.dayNumber_inj.mp (by omega)
  have hsecond : t.second = u.second := by
    rw [hdate] at hseconds
    omega
  cases t
  cases u
  cases hdate
  cases hsecond
  cases hnanos
  rfl

/-- An instant of a year that is neither the first nor the last is moved by any time of less than a
day. -/
theorem exists_shift {t : Instant} {seconds : Int}
    (hyear : Date.firstYear < t.date.year ∧ t.date.year < Date.lastYear)
    (hseconds : seconds.natAbs < daySeconds) :
    ∃ u, t.shift? seconds = some u ∧ u.seconds = t.seconds + seconds ∧ u.nanos = t.nanos := by
  have hday : daySeconds = 86400 := rfl
  have hsecond := t.second_lt
  rw [shift?, if_neg (by omega)]
  -- less than a day is added, so the date moves by a day at most
  by_cases hbefore : (t.second : Int) + seconds < 0
  · obtain ⟨e, he, hnumber⟩ := Date.exists_previous hyear.1
    refine ⟨⟨e, ((t.second : Int) + seconds + 86400).toNat, t.nanos, by omega, t.nanos_lt⟩,
      ?_, ?_, rfl⟩
    · rw [if_pos hbefore, he]
      exact ofParts?_of_lt e (by omega) t.nanos_lt
    · simp only [Instant.seconds, hnumber]
      omega
  · rw [if_neg hbefore]
    by_cases hafter : 86400 ≤ (t.second : Int) + seconds
    · obtain ⟨e, he, hnumber⟩ := Date.exists_next hyear.2
      refine ⟨⟨e, ((t.second : Int) + seconds - 86400).toNat, t.nanos, by omega, t.nanos_lt⟩,
        ?_, ?_, rfl⟩
      · rw [if_pos hafter, he]
        exact ofParts?_of_lt e (by omega) t.nanos_lt
      · simp only [Instant.seconds, hnumber]
        omega
    · refine ⟨⟨t.date, ((t.second : Int) + seconds).toNat, t.nanos, by omega, t.nanos_lt⟩,
        ?_, ?_, rfl⟩
      · rw [if_neg hafter]
        exact ofParts?_of_lt t.date (by omega) t.nanos_lt
      · simp only [Instant.seconds]
        omega

end Instant

end MarketDag
