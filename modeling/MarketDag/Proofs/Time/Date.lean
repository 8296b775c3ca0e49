import MarketDag.Proofs.Except
import MarketDag.Proofs.Number.Digits

/-!
# Dates: the round trip

Every date is read back from its text (`Date.ofText_toText`), whatever the size of its year.
-/

namespace MarketDag

/-! ## Scanning -/

namespace Calendar

theorem isBlank_of_isDigit {c : Char} (h : c.isDigit = true) : isBlank c = false := by
  have hrange := Date.toNat_of_isDigit h
  simp only [isBlank, decide_eq_false_iff_not]
  omega

theorem skipBlanks_cons {c : Char} (h : isBlank c = false) (cs : List Char) :
    skipBlanks (c :: cs) = .ok ((), c :: cs) := by
  change Except.ok ((), trimFront (c :: cs)) = _
  rw [trimFront, List.dropWhile_cons, h]
  rfl

theorem skipBlanks_padded (width n : Nat) (rest : List Char) :
    skipBlanks (Date.padded width n ++ rest) = .ok ((), Date.padded width n ++ rest) := by
  obtain ⟨c, cs, h, hc⟩ := Date.padded_eq_cons width n
  rw [h]
  exact skipBlanks_cons (isBlank_of_isDigit hc) _

/-- A text does not go on with a digit. -/
def NoDigitFirst (cs : List Char) : Prop := ∀ c ∈ cs.head?, c.isDigit = false

theorem noDigitFirst_nil : NoDigitFirst [] := fun _ h => nomatch h

theorem noDigitFirst_cons {c : Char} (h : c.isDigit = false) (cs : List Char) :
    NoDigitFirst (c :: cs) := by
  rintro d ⟨⟩
  exact h

theorem takeWhile_isDigit_append {ds rest : List Char} (hds : ∀ c ∈ ds, c.isDigit = true)
    (hrest : NoDigitFirst rest) :
    (ds ++ rest).takeWhile Char.isDigit = ds := by
  rw [List.takeWhile_append_of_pos hds]
  cases rest with
  | nil => simp
  | cons c cs => simp [hrest c rfl]

/-- Digits that end before something else are read as their number. -/
theorem number_append {least : Nat} {most : Option Nat} {ds rest : List Char}
    (hds : ∀ c ∈ ds, c.isDigit = true) (hrest : NoDigitFirst rest)
    (hleast : least ≤ ds.length) (hmost : ∀ k ∈ most, ds.length ≤ k)
    (hvalue : ofDigits ds < 0x8000000000000000) :
    number least most (ds ++ rest) = .ok (ofDigits ds, rest) := by
  have htake : ((most.map (ds ++ rest).take).getD (ds ++ rest)).takeWhile Char.isDigit = ds := by
    cases most with
    | none => exact takeWhile_isDigit_append hds hrest
    | some k =>
      rw [Option.map_some, Option.getD_some, List.take_append, List.take_of_length_le (hmost k rfl)]
      refine takeWhile_isDigit_append hds fun c hc => hrest c ?_
      cases rest with
      | nil => simp at hc
      | cons d cs =>
        cases hk : k - ds.length with
        | zero => simp [hk] at hc
        | succ j => simpa [hk] using hc
  simp only [number, htake]
  rw [if_neg (by omega), if_neg (by omega), List.drop_left]

/-- A padded number is read back where something else follows. -/
theorem number_padded {least : Nat} {most : Option Nat} {width n : Nat} {rest : List Char}
    (hrest : NoDigitFirst rest) (hleast : least ≤ width)
    (hmost : ∀ k ∈ most, (Date.padded width n).length ≤ k) (hn : n < 0x8000000000000000) :
    number least most (Date.padded width n ++ rest) = .ok (n, rest) := by
  have h := number_append (fun _ => Date.isDigit_of_mem_padded) hrest
    (Nat.le_trans hleast (Date.le_length_padded width n)) hmost (by rwa [ofDigits_padded])
  rwa [ofDigits_padded] at h

theorem number_fixed (least width n : Nat) {rest : List Char} (hwidth : 0 < width)
    (hleast : least ≤ width) (hn : n < 10 ^ width) (hlimit : n < 0x8000000000000000)
    (hrest : NoDigitFirst rest) :
    number least (some width) (Date.padded width n ++ rest) = .ok (n, rest) := by
  refine number_padded hrest hleast (fun k hk => ?_) hlimit
  cases hk
  exact Nat.le_of_eq (Date.length_padded hwidth hn)

theorem numberIn_padded (low high n : Nat) {rest : List Char} (hn : n < 100)
    (hlow : low ≤ n) (hhigh : n ≤ high) (hrest : NoDigitFirst rest) :
    numberIn low high 1 2 (Date.padded 2 n ++ rest) = .ok (n, rest) := by
  have h := number_fixed 1 2 n (by decide) (by decide) hn (by omega) hrest
  rw [numberIn, read_bind h, if_pos ⟨hlow, hhigh⟩]
  rfl

theorem expect_cons (c : Char) (rest : List Char) : expect c (c :: rest) = .ok ((), rest) :=
  if_pos rfl

end Calendar

/-! ## Dates -/

namespace Date

open Calendar

theorem daysIn_le (year : Int) (month : Nat) : daysIn year month ≤ 31 := by
  unfold daysIn
  repeat' split
  all_goals decide

/-- A year is read back where a dash follows. -/
theorem readYear_yearChars {year : Int} (h : firstYear ≤ year ∧ year ≤ lastYear)
    (rest : List Char) : readYear (yearChars year ++ '-' :: rest) = .ok (year, '-' :: rest) := by
  have hrest : NoDigitFirst ('-' :: rest) := noDigitFirst_cons rfl rest
  have hrange : -0x80000000 ≤ year ∧ year < 0x80000000 := by
    simp only [firstYear, lastYear] at h
    omega
  unfold readYear
  refine (read_bind (a := year) ?_).trans (congrFun (if_pos hrange) _)
  -- a year of four digits has no sign, and at most four digits are read of it; others have a sign
  by_cases hsmall : 0 ≤ year ∧ year ≤ 9999
  · have hnumber := number_fixed 1 4 year.toNat (by decide) (by decide) (by omega) (by omega)
      hrest
    have hyear : ((year.toNat : Nat) : Int) = year := Int.toNat_of_nonneg hsmall.1
    obtain ⟨c, cs, hds, hc⟩ := padded_eq_cons 4 year.toNat
    rw [yearChars, if_pos hsmall]
    rw [hds] at hnumber ⊢
    split
    · rename_i heq
      cases heq
      cases hc
    · rename_i heq
      cases heq
      cases hc
    · rw [read_bind hnumber, hyear]
      rfl
  · have hnumber : number 1 none (padded 4 year.natAbs ++ '-' :: rest) =
        .ok (year.natAbs, '-' :: rest) :=
      number_padded hrest (by decide) (by simp) (by omega)
    rw [yearChars, if_neg hsmall]
    by_cases hneg : year < 0
    · have hyear : -((year.natAbs : Nat) : Int) = year := by omega
      rw [if_pos hneg]
      refine (read_bind hnumber).trans ?_
      rw [hyear]
      rfl
    · have hyear : ((year.natAbs : Nat) : Int) = year := by omega
      rw [if_neg hneg]
      refine (read_bind hnumber).trans ?_
      rw [hyear]
      rfl

theorem skipBlanks_yearChars (year : Int) (rest : List Char) :
    skipBlanks (yearChars year ++ rest) = .ok ((), yearChars year ++ rest) := by
  unfold yearChars
  split
  · exact skipBlanks_padded ..
  · split <;> exact skipBlanks_cons rfl _

/-- A date is read back from its text. -/
theorem ofText_toText (d : Date) : ofText d.toText = .ok d := by
  obtain ⟨hyear, hmonth, hday⟩ := d.valid
  have hdays := daysIn_le d.year d.month
  have hmonthRead := fun rest =>
    numberIn_padded 1 12 d.month (by omega) hmonth.1 hmonth.2
      (noDigitFirst_cons (c := '-') rfl rest)
  have hdayRead := numberIn_padded 1 31 d.day (by omega) hday.1 (by omega) noDigitFirst_nil
  have hskip := skipBlanks_padded 2 d.day []
  rw [List.append_nil] at hdayRead hskip
  have hparts : ofParts? d.year d.month d.day = some d := dif_pos d.valid
  -- blanks may stand in front of every part, and none does
  have hscan : scan d.toChars = .ok (d, []) := by
    rw [scan, toChars, List.append_assoc, read_bind (skipBlanks_yearChars ..),
      List.cons_append, read_bind (readYear_yearChars hyear _), read_bind (skipBlanks_cons rfl _),
      read_bind (expect_cons ..), read_bind (skipBlanks_padded ..), read_bind (hmonthRead _),
      read_bind (skipBlanks_cons rfl _), read_bind (expect_cons ..), read_bind hskip,
      read_bind hdayRead, hparts]
    rfl
  rw [ofText, toText, String.toList_ofList, StateT.run', hscan]
  rfl

end Date

end MarketDag
