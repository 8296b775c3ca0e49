import MarketDag.Proofs.Time.DayNumber

/-!
# Spellings of an instant

An instant can be written in many ways: at any offset, with a fraction that is zero, and with small
letters (`Spelling`).  Each spelling is read as the instant that it names, and as no other one
(`Spelling.ofText_eq_ok_iff`).  One spelling is canonical: the instants that have it are those of
the years 0000 to 9999 without a fraction (`Instant.exists_canonical_iff`), and it has the form
`YYYY-MM-DDTHH:MM:SSZ` (`Instant.hasForm_canonical`).
-/

namespace MarketDag

open Calendar Date

/-! ## Zones -/

/-- How an offset from universal time is written: with the letter Z, or with a sign, hours and
minutes. -/
inductive Zone where
  | universal (letter : Char) (h : letter = 'Z' ∨ letter = 'z')
  | offset (sign : Char) (h : sign = '+' ∨ sign = '-' ∨ sign = '\u2212') (hours : Fin 24)
    (minutes : Fin 60)

namespace Zone

/-- The characters of a zone. -/
def toChars : Zone → List Char
  | .universal letter _ => [letter]
  | .offset sign _ hours minutes => sign :: (padded 2 hours ++ ':' :: padded 2 minutes)

/-- The seconds that a zone is ahead of universal time. -/
def seconds : Zone → Int
  | .universal _ _ => 0
  | .offset sign _ hours minutes =>
    if sign = '+' then (hours * 3600 + minutes * 60 : Nat) else -(hours * 3600 + minutes * 60 : Nat)

theorem natAbs_seconds_lt (z : Zone) : z.seconds.natAbs < Instant.daySeconds := by
  have hday : Instant.daySeconds = 86400 := rfl
  cases z with
  | universal letter h => exact Nat.succ_pos _
  | offset sign h hours minutes =>
    rw [seconds]
    split <;> omega

theorem noDigitFirst (z : Zone) : NoDigitFirst z.toChars := by
  cases z with
  | universal letter h =>
    refine noDigitFirst_cons ?_ _
    rcases h with rfl | rfl <;> rfl
  | offset sign h hours minutes =>
    refine noDigitFirst_cons ?_ _
    rcases h with rfl | rfl | rfl <;> rfl

/-- Two digits are read as their number. -/
theorem readTwoDigits_padded {most n : Nat} (hn : n < 100) (hmost : n ≤ most) (rest : List Char) :
    Instant.readTwoDigits most (padded 2 n ++ rest) = .ok (n, rest) := by
  have hlength : (padded 2 n).length = 2 := length_padded (by decide) hn
  obtain ⟨a, b, hab⟩ := List.length_eq_two.mp hlength
  have hdigits : ∀ c ∈ [a, b], c.isDigit = true := hab ▸ fun _ => isDigit_of_mem_padded
  have hdigits : a.isDigit = true ∧ b.isDigit = true := by simpa using hdigits
  have hvalue : ofDigits [a, b] = n := by rw [← hab, ofDigits_padded]
  have hpair : Instant.readPair ([a, b] ++ rest) = .ok ((a, b), rest) := rfl
  rw [hab, Instant.readTwoDigits, read_bind hpair]
  simp only [hdigits, and_self, not_true_eq_false, if_false, hvalue, Nat.not_lt.mpr hmost]
  rfl

theorem readOffset_toChars (z : Zone) : Instant.readOffset z.toChars = .ok (z.seconds, []) := by
  cases z with
  | universal letter h => rcases h with rfl | rfl <;> rfl
  | offset sign h hours minutes =>
    have hhours (rest : List Char) : Instant.readTwoDigits 99 (padded 2 hours ++ rest) =
        .ok (↑hours, rest) := readTwoDigits_padded (by omega) (by omega) rest
    have hminutes : Instant.readTwoDigits 59 (padded 2 minutes ++ []) = .ok (↑minutes, []) :=
      readTwoDigits_padded (by omega) (by omega) []
    rw [List.append_nil] at hminutes
    have hsize : Instant.readOffsetSize (padded 2 hours ++ ':' :: padded 2 minutes) =
        .ok (hours * 3600 + minutes * 60, []) := by
      rw [Instant.readOffsetSize, read_bind (hhours _), read_bind (expect_cons ..),
        read_bind hminutes]
      rfl
    rcases h with rfl | rfl | rfl <;> exact read_bind hsize

end Zone

/-! ## Spellings -/

/-- A way to write a whole second: a day and a time of day in a zone, with any number of zeros
behind a point, or no point. -/
structure Spelling where
  date : Date
  fourDigitYear : date.FourDigitYear
  separator : Char
  separator_eq : separator = 't' ∨ separator = 'T' ∨ separator = ' '
  hour : Fin 24
  minute : Fin 60
  second : Fin 60
  zeros : Nat
  zone : Zone

namespace Spelling

/-- The zeros behind the point. -/
def fractionChars (w : Spelling) : List Char :=
  if w.zeros = 0 then [] else '.' :: List.replicate w.zeros '0'

/-- The text of a spelling. -/
def text (w : Spelling) : String :=
  .ofList (w.date.toChars ++ w.separator :: (padded 2 w.hour ++ ':' :: (padded 2 w.minute ++
    ':' :: (padded 2 w.second ++ (w.fractionChars ++ w.zone.toChars)))))

/-- The number of seconds at universal time. -/
def seconds (w : Spelling) : Int :=
  w.date.dayNumber * 86400 + (w.hour * 3600 + w.minute * 60 + w.second : Nat) - w.zone.seconds

/-- Does a spelling name an instant? -/
def Names (w : Spelling) (t : Instant) : Prop := t.nanos = 0 ∧ t.seconds = w.seconds

/-- Of the zeros behind a point nine are read as a number. -/
theorem number_zeros {n : Nat} (hn : n ≠ 0) {rest : List Char} (hrest : NoDigitFirst rest) :
    number 1 (some 9) (List.replicate n '0' ++ rest) =
      .ok (0, List.replicate (n - 9) '0' ++ rest) := by
  have hzeros : ∀ c ∈ List.replicate (min 9 n) '0', c.isDigit = true := fun c hc => by
    rw [List.eq_of_mem_replicate hc]
    rfl
  have hrest' : NoDigitFirst (rest.take (9 - n)) := by
    intro c hc
    cases hk : 9 - n with
    | zero => simp [hk] at hc
    | succ k => exact hrest c (by simpa [hk, List.head?_take] using hc)
  -- the tenth zero and those behind it are left, to be skipped as further digits
  have htake : ((List.replicate n '0' ++ rest).take 9).takeWhile Char.isDigit =
      List.replicate (min 9 n) '0' := by
    rw [List.take_append, List.take_replicate, List.length_replicate,
      takeWhile_isDigit_append hzeros hrest']
  have hvalue : ofDigits (List.replicate (min 9 n) '0') = 0 := by
    rw [ofDigits_eq, Nat.ofDigitChars_replicate_zero, Nat.mul_zero]
  simp only [Calendar.number, Option.map_some, Option.getD_some, htake, hvalue,
    List.length_replicate]
  have hleft : n - min 9 n = n - 9 := by omega
  have hnone : min 9 n - n = 0 := by omega
  rw [if_neg (by omega), if_neg (by decide), List.drop_append, List.drop_replicate,
    List.length_replicate, hleft, hnone, List.drop_zero]

/-- Zeros are no fraction, however many they are. -/
theorem readFraction_zeros {n : Nat} (hn : n ≠ 0) {rest : List Char} (hrest : NoDigitFirst rest) :
    Instant.readFraction (List.replicate n '0' ++ rest) = .ok (0, rest) := by
  rw [Instant.readFraction, read_bind (Instant.get_ok _), read_bind (number_zeros hn hrest),
    read_bind (Instant.get_ok _)]
  have hleft : (List.replicate (n - 9) '0' ++ rest).dropWhile Char.isDigit = rest := by
    rw [List.dropWhile_append_of_pos fun c hc => by rw [List.eq_of_mem_replicate hc]; rfl]
    cases rest with
    | nil => rfl
    | cons c cs => rw [List.dropWhile_cons_of_neg (by simp [hrest c rfl])]
  rw [Nat.zero_mul]
  show Except.ok (0, (List.replicate (n - 9) '0' ++ rest).dropWhile Char.isDigit) = _
  rw [hleft]

theorem readOptionalFraction_zeros (w : Spelling) :
    Instant.readOptionalFraction (w.fractionChars ++ w.zone.toChars) = .ok (0, w.zone.toChars) := by
  rw [fractionChars]
  split
  · cases w.zone with
    | universal letter h => rcases h with rfl | rfl <;> rfl
    | offset sign h hours minutes => rcases h with rfl | rfl | rfl <;> rfl
  · rename_i hzeros
    exact readFraction_zeros hzeros w.zone.noDigitFirst

/-- The hours, minutes and seconds of a spelling are those of a whole second. -/
theorem ofClock?_spelled (date : Date) (hour : Fin 24) (minute second : Fin 60) :
    Instant.ofClock? date hour minute second 0 =
      some ⟨date, hour * 3600 + minute * 60 + second, 0, by omega, by decide⟩ := by
  rw [Instant.ofClock?, if_neg (by omega), if_neg (by omega)]
  exact Instant.ofParts?_of_lt date _ _

/-- A spelling is read as an instant that it names. -/
theorem exists_ofText (w : Spelling) : ∃ t, Instant.ofText w.text = .ok t ∧ w.Names t := by
  let clock : Instant :=
    ⟨w.date, w.hour * 3600 + w.minute * 60 + w.second, 0, by omega, by decide⟩
  have hrest : NoDigitFirst (w.fractionChars ++ w.zone.toChars) := by
    rw [fractionChars]
    split
    · exact w.zone.noDigitFirst
    · exact noDigitFirst_cons rfl _
  have hscan := Instant.scan_parts w.fourDigitYear w.separator_eq (by omega : (w.hour : Nat) < 100)
    (by omega : (w.minute : Nat) < 100) (by omega : (w.second : Nat) < 100) hrest
    w.readOptionalFraction_zeros (ofClock?_spelled ..) w.zone.readOffset_toChars
  have hyear : firstYear < clock.date.year ∧ clock.date.year < lastYear := by
    obtain ⟨hlow, hhigh⟩ := w.fourDigitYear
    simp only [firstYear, lastYear, clock]
    omega
  have hzone : (-w.zone.seconds).natAbs < Instant.daySeconds := by
    rw [Int.natAbs_neg]
    exact w.zone.natAbs_seconds_lt
  -- the time of day is moved back by the offset, over the end of a day or a year perhaps
  obtain ⟨t, ht, hseconds, hnanos⟩ := Instant.exists_shift hyear hzone
  refine ⟨t, ?_, hnanos, ?_⟩
  · rw [Instant.ofText, text, String.toList_ofList, StateT.run', hscan, ht]
    rfl
  · rw [hseconds, seconds, Int.sub_eq_add_neg]
    rfl

/-- A spelling is read as the instant that it names, and as no other one. -/
theorem ofText_eq_ok_iff {w : Spelling} {t : Instant} :
    Instant.ofText w.text = .ok t ↔ w.Names t := by
  obtain ⟨u, hread, hnanos, hseconds⟩ := w.exists_ofText
  rw [hread, Except.ok.injEq]
  constructor
  · rintro rfl
    exact ⟨hnanos, hseconds⟩
  · rintro ⟨hnanos', hseconds'⟩
    exact Instant.eq_of_seconds (hseconds.trans hseconds'.symm) (hnanos.trans hnanos'.symm)

end Spelling

/-! ## The canonical spelling -/

namespace Instant

/-- Has a text the form `YYYY-MM-DDTHH:MM:SSZ`? -/
def HasForm (s : String) : Prop :=
  ∃ date hour minute second : List Char,
    s.toList = date ++ 'T' :: (hour ++ ':' :: (minute ++ ':' :: (second ++ ['Z']))) ∧
    Date.HasForm (.ofList date) ∧ (hour.length = 2 ∧ minute.length = 2 ∧ second.length = 2) ∧
    ∀ c ∈ hour ++ minute ++ second, c.isDigit = true

theorem exists_canonical_iff {t : Instant} : (∃ s, t.canonical? = some s) ↔ t.HasCanonical := by
  rw [canonical?]
  split <;> simp_all

/-- The canonical text has the form. -/
theorem hasForm_canonical {t : Instant} {s : String} (h : t.canonical? = some s) : HasForm s := by
  have hcanonical := exists_canonical_iff.mp ⟨s, h⟩
  have hsecond := t.second_lt
  rw [canonical?, if_pos hcanonical] at h
  cases h
  refine ⟨t.date.toChars, padded 2 (t.second / 3600), padded 2 (t.second / 60 % 60),
    padded 2 (t.second % 60), ?_, hasForm_of_fourDigitYear hcanonical.1,
    ⟨length_padded (by decide) (by omega), length_padded (by decide) (by omega),
      length_padded (by decide) (by omega)⟩, fun c hc => ?_⟩
  · rw [String.toList_ofList, canonical_chars hcanonical]
  · simp only [List.mem_append] at hc
    rcases hc with (hc | hc) | hc <;> exact isDigit_of_mem_padded hc

end Instant

end MarketDag
