import MarketDag.Proofs.Time.DateText
import MarketDag.Time.Instant

/-!
# Instants: the round trip

An instant that has a canonical form is read back from it (`Instant.ofText_canonical`).
-/

namespace MarketDag.Instant

open Calendar Date

theorem length_le_utf8ByteSize (cs : List Char) : cs.length ≤ (String.ofList cs).utf8ByteSize := by
  induction cs with
  | nil => simp
  | cons c cs ih =>
    rw [String.ofList_cons, String.utf8ByteSize_append, String.utf8ByteSize_singleton]
    have := Char.utf8Size_pos c
    simp only [List.length_cons]
    omega

theorem ofParts?_of_lt (date : Date) {second nanos : Nat} (hs : second < 86400)
    (hn : nanos < 2000000000) :
    ofParts? date second nanos = some ⟨date, second, nanos, hs, hn⟩ := dif_pos ⟨hs, hn⟩

/-- A second of a day is put together again from its hour, minute and second. -/
theorem ofClock?_parts (date : Date) {second : Nat} (h : second < 86400) :
    ofClock? date (second / 3600) (second / 60 % 60) (second % 60) 0 =
      some ⟨date, second, 0, h, by decide⟩ := by
  have hsum : second / 3600 * 3600 + second / 60 % 60 * 60 + second % 60 = second := by omega
  rw [ofClock?, if_neg (by omega), if_neg (by omega), ofParts?_of_lt date (by omega) (by decide)]
  congr

theorem shift?_zero (t : Instant) : t.shift? 0 = some t := by
  have h := t.second_lt
  have hsum : ((t.second : Int) + 0).toNat = t.second := by omega
  rw [shift?, if_neg (by decide), if_neg (by omega), if_neg (by omega), hsum]
  exact dif_pos ⟨t.second_lt, t.nanos_lt⟩

theorem number_two {n : Nat} (hn : n < 100) {rest : List Char} (hrest : NoDigitFirst rest) :
    number 2 (some 2) (padded 2 n ++ rest) = .ok (n, rest) :=
  number_fixed 2 2 n (by decide) (by decide) hn (by omega) hrest

theorem get_ok (cs : List Char) : (get : Scan (List Char)) cs = .ok (cs, cs) := rfl

theorem shorterThan_of_le {least : Nat} {cs : List Char} (h : least ≤ cs.length) :
    shorterThan least cs = false :=
  decide_eq_false (Nat.not_lt.mpr (Nat.le_trans h (length_le_utf8ByteSize cs)))

/-- A date, a separator, a time of day, a fraction and a zone are read one behind the other. -/
theorem scan_parts {date : Date} {separator : Char} {hour minute second nanos : Nat}
    {fraction zone : List Char} {offset : Int} {clock : Instant} (hdate : date.FourDigitYear)
    (hseparator : separator = 't' ∨ separator = 'T' ∨ separator = ' ')
    (hhour : hour < 100) (hminute : minute < 100) (hsecond : second < 100)
    (hrest : NoDigitFirst (fraction ++ zone))
    (hfraction : readOptionalFraction (fraction ++ zone) = .ok (nanos, zone))
    (hclock : ofClock? date hour minute second nanos = some clock)
    (hzone : readOffset zone = .ok (offset, [])) :
    scan (date.toChars ++ separator :: (padded 2 hour ++ ':' :: (padded 2 minute ++
      ':' :: (padded 2 second ++ (fraction ++ zone))))) = inRange (clock.shift? (-offset)) [] := by
  obtain ⟨hlow, hhigh⟩ := id hdate
  have hdash (rest : List Char) : NoDigitFirst ('-' :: rest) := noDigitFirst_cons rfl rest
  have hcolon (rest : List Char) : NoDigitFirst (':' :: rest) := noDigitFirst_cons rfl rest
  have hnodigit : separator.isDigit = false := by
    rcases hseparator with rfl | rfl | rfl <;> rfl
  have hyear := fun rest => number_fixed 4 4 date.year.toNat (by decide) (by decide) (by omega)
    (by omega) (hdash rest)
  have hparts : inRange (Date.ofParts? (date.year.toNat : Nat) date.month date.day) =
      pure date := by
    rw [Int.toNat_of_nonneg hlow, Date.ofParts?, dif_pos date.valid]
    rfl
  have hseparated (rest : List Char) : readSeparator (separator :: rest) = .ok ((), rest) :=
    if_pos hseparator
  -- every part but the fraction has a size of its own, nineteen bytes before the zone
  have hlong : shorterThan leastSize (date.toChars ++ separator :: (padded 2 hour ++
      ':' :: (padded 2 minute ++ ':' :: (padded 2 second ++ (fraction ++ zone))))) = false := by
    refine shorterThan_of_le ?_
    have hten : date.toChars.length = 10 := by
      rw [← String.length_ofList]
      exact length_toText_eq_ten_iff.mpr hdate
    have hh := le_length_padded 2 hour
    have hm := le_length_padded 2 minute
    have hs := le_length_padded 2 second
    simp only [List.length_append, List.length_cons, leastSize]
    omega
  rw [scan, read_bind (get_ok _)]
  simp only [hlong, Bool.false_eq_true, if_false]
  rw [toChars_of_fourDigitYear hdate]
  simp only [List.append_assoc, List.cons_append]
  rw [read_bind (hyear _), read_bind (expect_cons ..),
    read_bind (number_two date.month_lt (hdash _)), read_bind (expect_cons ..),
    read_bind (number_two date.day_lt (noDigitFirst_cons hnodigit _)), hparts, read_bind rfl,
    read_bind (hseparated _), read_bind (number_two hhour (hcolon _)), read_bind (expect_cons ..),
    read_bind (number_two hminute (hcolon _)), read_bind (expect_cons ..),
    read_bind (number_two hsecond hrest), read_bind hfraction]
  simp only [hclock]
  rw [read_bind rfl, read_bind hzone, read_bind rfl]

/-! ## The canonical form -/

/-- The parts of a canonical text, one behind the other. -/
theorem canonical_chars {t : Instant} (h : t.HasCanonical) :
    t.date.toChars ++ 'T' :: t.clockChars ++ ['Z'] =
      t.date.toChars ++ 'T' :: (padded 2 (t.second / 3600) ++
        ':' :: (padded 2 (t.second / 60 % 60) ++ ':' :: (padded 2 (t.second % 60) ++ ['Z']))) := by
  have hleap : ¬ 1000000000 ≤ t.nanos := by
    rw [h.2]
    decide
  rw [clockChars, if_neg hleap]
  simp only [List.append_assoc, List.cons_append, Nat.add_zero]

theorem scan_canonical {t : Instant} (h : t.HasCanonical) :
    scan (t.date.toChars ++ 'T' :: t.clockChars ++ ['Z']) = .ok (t, []) := by
  obtain ⟨hyear, hnanos⟩ := id h
  have hsecond := t.second_lt
  have hclock : ofClock? t.date (t.second / 3600) (t.second / 60 % 60) (t.second % 60) 0 =
      some t := by
    rw [ofClock?_parts t.date hsecond]
    cases t
    cases hnanos
    rfl
  have hzone : NoDigitFirst ([] ++ ['Z']) := noDigitFirst_cons rfl []
  rw [canonical_chars h]
  refine (scan_parts hyear (.inr (.inl rfl)) (by omega) (by omega) (by omega) hzone rfl hclock
    (show readOffset ['Z'] = .ok (0, []) from rfl)).trans ?_
  show inRange (t.shift? 0) [] = _
  rw [shift?_zero]
  rfl

/-- An instant is read back from its canonical text. -/
theorem ofText_canonical {t : Instant} {s : String} (h : t.canonical? = some s) :
    ofText s = .ok t := by
  unfold canonical? at h
  split at h
  · rename_i hcanonical
    cases h
    rw [ofText, String.toList_ofList, StateT.run', scan_canonical hcanonical]
    rfl
  · cases h

end MarketDag.Instant
