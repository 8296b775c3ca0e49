import MarketDag.Proofs.Except
import MarketDag.Proofs.Number.Digits
import MarketDag.Proofs.Number.Rounding

/-!
# Reading decimals

What is read as a decimal is the number that the text denotes, as far as it fits.  The characters
are read one by one (`Decimal.readDigits_cons_cases`).  A numeral is rounded once
(`Decimal.roundsTo_of_readNumeral`), and a text with an exponent once more after the point is moved
(`Decimal.readAs_of_ofText`).
-/

namespace MarketDag.Decimal

/-! ## Digits -/

/-- The digits among some characters. -/
def digitsIn (cs : List Char) : List Char := cs.filter Char.isDigit

/-- The digits behind the first point. -/
def placesIn (cs : List Char) : List Char := digitsIn (cs.dropWhile (· ≠ '.'))

/-- The first digit decides whether a fraction is at least a half. -/
theorem half_le_iff {c : Char} {ds : List Char} (hds : ∀ c ∈ ds, c.isDigit = true) :
    10 ^ (ds.length + 1) ≤ 2 * Nat.ofDigitChars 10 (c :: ds) 0 ↔ 5 ≤ c.toNat - 48 := by
  have hlt := ofDigitChars_lt hds
  rw [ofDigitChars_cons_zero, Nat.pow_succ]
  constructor
  · intro h
    by_contra hsmall
    have hdigit : c.toNat - 48 ≤ 4 := by omega
    have := Nat.mul_le_mul_left (10 ^ ds.length) hdigit
    omega
  · intro hbig
    have := Nat.mul_le_mul_left (10 ^ ds.length) hbig
    omega

theorem isDigit_of_mem_digitsIn {cs : List Char} : ∀ c ∈ digitsIn cs, c.isDigit = true :=
  fun _ h => (List.mem_filter.mp h).2

theorem findSome?_digit? (cs : List Char) :
    cs.findSome? digit? = (digitsIn cs).head?.map fun c => c.toNat - 48 := by
  induction cs with
  | nil => rfl
  | cons c cs ih =>
    rw [List.findSome?_cons, digitsIn, List.filter_cons, digit?]
    cases c.isDigit with
    | true => rfl
    | false => exact ih

/-- Digits that do not fit round up if the first of them is five or more. -/
theorem roundedQuotient_digitsIn (cs : List Char) (m : ℕ) :
    roundedQuotient (Nat.ofDigitChars 10 (digitsIn cs) m) (10 ^ (digitsIn cs).length) =
      if (cs.findSome? digit?).any (5 ≤ ·) then m + 1 else m := by
  have hdigits : ∀ c ∈ digitsIn cs, c.isDigit = true := isDigit_of_mem_digitsIn
  rw [findSome?_digit?]
  cases hcs : digitsIn cs with
  | nil =>
    rw [roundedQuotient]
    simp
    omega
  | cons c ds =>
    have hds := (List.forall_mem_cons.mp (hcs ▸ hdigits)).2
    have hlt := ofDigitChars_lt (hcs ▸ hdigits)
    have hhalf := half_le_iff (c := c) hds
    rw [Nat.ofDigitChars_eq_ofDigitChars_zero, roundedQuotient, List.head?_cons, Option.map_some,
      Option.any_some]
    rw [List.length_cons] at hlt ⊢
    generalize Nat.ofDigitChars 10 (c :: ds) 0 = rest at hlt hhalf ⊢
    generalize 10 ^ (ds.length + 1) = unit at hlt hhalf ⊢
    -- what was read before is whole, so only the digits that are left decide
    have hsplit : 2 * (unit * m + rest) + unit = 2 * rest + unit + m * (2 * unit) := by ring
    rw [hsplit, Nat.add_mul_div_right _ _ (by omega), Nat.add_comm]
    by_cases hup : 5 ≤ c.toNat - 48
    · have hone : (2 * rest + unit) / (2 * unit) = 1 :=
        Nat.div_eq_of_lt_le (by have := hhalf.mpr hup; omega) (by omega)
      rw [hone, if_pos (decide_eq_true hup)]
    · have hzero : (2 * rest + unit) / (2 * unit) = 0 :=
        Nat.div_eq_of_lt (by have := mt hhalf.mp hup; omega)
      rw [hzero, if_neg (by simpa using hup), Nat.add_zero]

/-! ## Numerals -/

/-- The size of the number of some digits around a point, behind a mantissa and places read
before. -/
def Progress.size (p : Progress) (cs : List Char) : ℚ :=
  Nat.ofDigitChars 10 (digitsIn cs) p.mantissa /
    10 ^ (p.scale + (if p.pointed then digitsIn cs else placesIn cs).length)

theorem Progress.size_nonneg (p : Progress) (cs : List Char) : 0 ≤ p.size cs := by
  unfold size
  positivity

/-- Digits that are left, in units of the last place that was read. -/
theorem Progress.size_mul_pow (started : Bool) (m s : ℕ) (cs : List Char) :
    Progress.size ⟨true, started, m, s⟩ cs * 10 ^ s =
      Nat.ofDigitChars 10 (digitsIn cs) m / (10 ^ (digitsIn cs).length : ℕ) := by
  rw [Progress.size, if_pos rfl, pow_add, Nat.cast_pow, Nat.cast_ofNat]
  field_simp

/-- What is left of a numeral is rounded where no more places fit. -/
theorem roundsTo_of_roundAt {negative started : Bool} {m s : ℕ} {cs : List Char} {d : Decimal}
    (hm : m < mantissaLimit)
    (hfull : s = maxScale ∨
      (mantissaLimit : ℚ) ≤ Progress.size ⟨true, started, m, s⟩ cs * 10 ^ (s + 1))
    (h : roundAt negative m s cs = .ok d) :
    RoundsTo (withSign negative (Progress.size ⟨true, started, m, s⟩ cs)) d := by
  have hy := Progress.size_nonneg ⟨true, started, m, s⟩ cs
  have hsize := Progress.size_mul_pow started m s cs
  generalize Progress.size ⟨true, started, m, s⟩ cs = y at hy hsize hfull ⊢
  have hquot := roundedQuotient_digitsIn cs m
  have hunit : 0 < 10 ^ (digitsIn cs).length := Nat.pow_pos (by decide)
  have hround := floor_div_add_half (Nat.ofDigitChars 10 (digitsIn cs) m) hunit
  -- the number in units of the last place, with a half added, has the rounded one as its floor
  rw [← hsize, hquot] at hround
  unfold roundAt at h
  split at h
  · cases h
  · dsimp only at h
    generalize hrounded : (if (cs.findSome? digit?).any (5 ≤ ·) then m + 1 else m) = rounded
      at h hround hquot
    have hle : rounded ≤ m + 1 := by
      rw [← hrounded]
      split <;> omega
    split_ifs at h with hfits hzero
    · exact roundsTo_of_ofReading hy hround.symm
        (.inr (hfull.imp_right fun hlimit => hlimit.trans (by norm_num))) h
    · -- rounding up carries, and takes a place away
      obtain ⟨k, rfl⟩ := Nat.exists_eq_succ_of_ne_zero hzero
      have hlimit : rounded = mantissaLimit := by omega
      have hcarry := roundedQuotient_carry hunit (hquot.trans hlimit)
      rw [← floor_div_add_half _ (by omega), Nat.cast_mul, ← div_div, ← hsize, Nat.cast_ofNat,
        pow_succ, ← mul_assoc, mul_div_cancel_right₀ _ (by norm_num)] at hcarry
      rw [hlimit] at h hround
      refine roundsTo_of_ofReading hy hcarry.symm (.inr (.inr ?_)) h
      exact hround ▸ Nat.floor_le (by positivity)

theorem eq_of_digit? {c : Char} {v : ℕ} (h : digit? c = some v) :
    c.isDigit = true ∧ c.toNat - 48 = v := by
  unfold digit? at h
  split_ifs at h with hc
  exact ⟨hc, Option.some.inj h⟩

/-- A digit that is read leaves the number as it is. -/
theorem Progress.size_digit {pointed started : Bool} {m s v : ℕ} {c : Char} (cs : List Char)
    (hs : pointed = false → s = 0) (hc : digit? c = some v) :
    Progress.size ⟨pointed, true, m * 10 + v, if pointed then s + 1 else 0⟩ cs =
      Progress.size ⟨pointed, started, m, s⟩ (c :: cs) := by
  obtain ⟨hdigit, rfl⟩ := eq_of_digit? hc
  have hpoint : c ≠ '.' := by
    rintro rfl
    cases hdigit
  have hdigits : digitsIn (c :: cs) = c :: digitsIn cs := List.filter_cons_of_pos hdigit
  have hplaces : placesIn (c :: cs) = placesIn cs := by
    rw [placesIn, List.dropWhile_cons_of_pos (by simpa using hpoint), placesIn]
  cases pointed with
  | true => simp [size, hdigits, ofDigitChars_cons, Nat.add_assoc, Nat.add_comm 1]
  | false => simp [size, hdigits, hplaces, ofDigitChars_cons, hs rfl]

/-- The point is read before the places. -/
theorem Progress.size_point (started : Bool) (m s : ℕ) (cs : List Char) :
    Progress.size ⟨true, started, m, s⟩ cs = Progress.size ⟨false, started, m, s⟩ ('.' :: cs) := by
  have hdigits : digitsIn ('.' :: cs) = digitsIn cs := List.filter_cons_of_neg (by decide)
  have hplaces : placesIn ('.' :: cs) = digitsIn cs := by
    rw [placesIn, List.dropWhile_cons_of_neg (by decide), hdigits]
  simp [size, hdigits, hplaces]

/-- Separators do not count. -/
theorem Progress.size_separator (p : Progress) (cs : List Char) :
    p.size cs = p.size ('_' :: cs) := by
  have hdigits : digitsIn ('_' :: cs) = digitsIn cs := List.filter_cons_of_neg (by decide)
  have hplaces : placesIn ('_' :: cs) = placesIn cs := by
    rw [placesIn, List.dropWhile_cons_of_pos (by decide), placesIn]
  rw [size, size, hdigits, hplaces]

/-- A digit that no longer fits ends the places. -/
theorem Progress.le_size_mul_pow {started : Bool} {m s v : ℕ} {c : Char} (cs : List Char)
    (hc : digit? c = some v) (hfull : mantissaLimit ≤ m * 10 + v) :
    (mantissaLimit : ℚ) ≤ Progress.size ⟨true, started, m, s⟩ (c :: cs) * 10 ^ (s + 1) := by
  have hdigit : Progress.size ⟨true, true, m * 10 + v, s + 1⟩ cs =
      Progress.size ⟨true, started, m, s⟩ (c :: cs) := Progress.size_digit cs nofun hc
  have hunit : 0 < 10 ^ (digitsIn cs).length := Nat.pow_pos (by decide)
  rw [← hdigit, Progress.size_mul_pow, le_div_iff₀ (by exact_mod_cast hunit),
    Nat.ofDigitChars_eq_ofDigitChars_zero]
  have hmul := Nat.mul_le_mul_left (10 ^ (digitsIn cs).length) hfull
  rw [Nat.mul_comm] at hmul
  exact_mod_cast hmul.trans (Nat.le_add_right ..)

theorem length_placesIn_le (cs : List Char) : (placesIn cs).length ≤ (digitsIn cs).length :=
  ((List.dropWhile_sublist _).filter _).length_le

/-- A digit for which there is no room before the point makes the whole part too large. -/
theorem Progress.le_size_whole {m v : ℕ} {c : Char} (started : Bool) (cs : List Char)
    (hc : digit? c = some v) (hfull : mantissaLimit ≤ m * 10 + v) :
    (mantissaLimit : ℚ) ≤ Progress.size ⟨false, started, m, 0⟩ (c :: cs) := by
  rw [← Progress.size_digit cs (fun _ => rfl) hc, Progress.size, if_neg Bool.false_ne_true,
    if_neg Bool.false_ne_true, Nat.zero_add, le_div_iff₀ (ten_pow_pos _),
    Nat.ofDigitChars_eq_ofDigitChars_zero]
  have hplaces : 10 ^ (placesIn cs).length ≤ 10 ^ (digitsIn cs).length :=
    Nat.pow_le_pow_right (by decide) (length_placesIn_le cs)
  have hmul := Nat.mul_le_mul hfull hplaces
  rw [Nat.mul_comm (m * 10 + v)] at hmul
  exact_mod_cast hmul.trans (Nat.le_add_right ..)

/-! ## The ends of numerals -/

/-- Do some characters end a numeral of which a point or a digit may be read already?  There are
digits, one of them at least in all, no second point, and separators, but none before a digit. -/
structure Ending (pointed started : Bool) (cs : List Char) : Prop where
  chars : ∀ c ∈ cs, c.isDigit = true ∨ c = '.' ∨ c = '_'
  digit : started = true ∨ ∃ c ∈ cs, c.isDigit = true
  point : cs.count '.' + pointed.toNat ≤ 1
  separator : started = true ∨ '_' ∉ cs.takeWhile (! Char.isDigit ·)

section

variable {pointed started : Bool} {c : Char} {cs : List Char}

theorem ending_nil : Ending pointed started [] ↔ started = true := by
  constructor
  · intro h
    simpa using h.digit
  · rintro rfl
    exact ⟨by simp, .inl rfl, by simpa using Bool.toNat_le pointed, .inl rfl⟩

theorem ending_digit (hc : c.isDigit = true) :
    Ending pointed started (c :: cs) ↔ Ending pointed true cs := by
  have hpoint : c ≠ '.' := by
    rintro rfl
    cases hc
  constructor
  · intro h
    have hcount := h.point
    rw [List.count_cons_of_ne hpoint] at hcount
    exact ⟨(List.forall_mem_cons.mp h.chars).2, .inl rfl, hcount, .inl rfl⟩
  · intro h
    have hcount := h.point
    rw [← List.count_cons_of_ne (b := c) hpoint] at hcount
    refine ⟨List.forall_mem_cons.mpr ⟨.inl hc, h.chars⟩, .inr ⟨c, List.mem_cons_self, hc⟩, hcount,
      .inr ?_⟩
    rw [List.takeWhile_cons_of_neg (by simp [hc])]
    exact List.not_mem_nil

theorem ending_point : Ending false started ('.' :: cs) ↔ Ending true started cs := by
  have hdigit : ('.').isDigit = false := rfl
  constructor
  · intro h
    refine ⟨(List.forall_mem_cons.mp h.chars).2, by simpa [hdigit] using h.digit,
      by simpa using h.point, ?_⟩
    exact h.separator.imp_right fun hnot hmem => hnot (by simp [hdigit, hmem])
  · intro h
    refine ⟨List.forall_mem_cons.mpr ⟨by simp, h.chars⟩, by simpa [hdigit] using h.digit,
      by simpa using h.point, ?_⟩
    exact h.separator.imp_right fun hnot => by simpa [hdigit] using hnot

theorem ending_separator :
    Ending pointed started ('_' :: cs) ↔ started = true ∧ Ending pointed started cs := by
  have hdigit : ('_').isDigit = false := rfl
  constructor
  · intro h
    have hstarted : started = true := by simpa [hdigit] using h.separator
    exact ⟨hstarted, (List.forall_mem_cons.mp h.chars).2, .inl hstarted, by simpa using h.point,
      .inl hstarted⟩
  · rintro ⟨hstarted, h⟩
    exact ⟨List.forall_mem_cons.mpr ⟨by simp, h.chars⟩, .inl hstarted, by simpa using h.point,
      .inl hstarted⟩

/-- Behind a point, and when there was a digit, there are digits and separators only. -/
theorem ending_places : Ending true true cs ↔ ∀ c ∈ cs, c.isDigit = true ∨ c = '_' := by
  constructor
  · intro h c hc
    have hcount : cs.count '.' = 0 := by simpa using h.point
    have hpoint : c ≠ '.' := by
      rintro rfl
      exact absurd hcount (List.count_pos_iff.mpr hc).ne'
    simpa [hpoint] using h.chars c hc
  · intro h
    have hcount : cs.count '.' = 0 := by
      refine List.count_eq_zero.mpr fun hmem => ?_
      rcases h '.' hmem with hdigit | heq
      · cases hdigit
      · exact absurd heq (by decide)
    exact ⟨fun c hc => (h c hc).imp_right .inr, .inl rfl, by simp [hcount], .inl rfl⟩

end

/-! ## Characters one by one -/

/-- Do the parts that were read fit? There are places only behind a point and a digit. -/
structure Progress.Sound (p : Progress) : Prop where
  mantissa_lt : p.mantissa < mantissaLimit
  scale_le : p.scale ≤ maxScale
  whole : ¬ (p.pointed = true ∧ p.started = true) → p.scale = 0

theorem Progress.sound_start : Progress.start.Sound := ⟨by decide, Nat.zero_le _, fun _ => rfl⟩

theorem Progress.size_nil (p : Progress) : p.size [] = p.mantissa / 10 ^ p.scale := by
  simp [Progress.size, digitsIn, placesIn, Nat.ofDigitChars_nil]

/-- A digit that fits keeps the parts sound. -/
theorem Progress.Sound.digit {pointed started : Bool} {m s v : ℕ}
    (h : Progress.Sound ⟨pointed, started, m, s⟩) (hfits : m * 10 + v < mantissaLimit)
    (hroom : ¬ (pointed = true ∧ started = true ∧ maxScale ≤ s)) :
    Progress.Sound ⟨pointed, true, m * 10 + v, if pointed then s + 1 else 0⟩ := by
  cases pointed with
  | false => exact ⟨hfits, Nat.zero_le _, fun _ => rfl⟩
  | true =>
    refine ⟨hfits, ?_, fun h => absurd ⟨rfl, rfl⟩ h⟩
    change s + 1 ≤ maxScale
    cases started with
    | false =>
      have hs : s = 0 := h.whole fun h => Bool.false_ne_true h.2
      rw [hs]
      exact Nat.succ_pos _
    | true => exact Nat.lt_of_not_le fun hle => hroom ⟨rfl, rfl, hle⟩

/-- A character is read into the parts before it, or is the first that is rounded, or is one with
which no numeral ends whose whole part fits. -/
theorem readDigits_cons_cases (negative : Bool) {p : Progress} (hp : p.Sound) (c : Char)
    (cs : List Char) :
    (∃ q : Progress, q.Sound ∧ q.size cs = p.size (c :: cs) ∧
      (Ending p.pointed p.started (c :: cs) ↔ Ending q.pointed q.started cs) ∧
      readDigits negative p (c :: cs) = readDigits negative q cs) ∨
    (p.pointed = true ∧
      (p.scale = maxScale ∨ (mantissaLimit : ℚ) ≤ p.size (c :: cs) * 10 ^ (p.scale + 1)) ∧
      (Ending p.pointed p.started (c :: cs) ↔ Ending true true (c :: cs)) ∧
      readDigits negative p (c :: cs) = roundAt negative p.mantissa p.scale (c :: cs)) ∨
    ((∃ e, readDigits negative p (c :: cs) = .error e) ∧
      ¬ (Ending p.pointed p.started (c :: cs) ∧ p.size (c :: cs) + 1 / 2 < mantissaLimit)) := by
  obtain ⟨pointed, started, m, s⟩ := p
  rw [readDigits]
  by_cases hall : pointed = true ∧ started = true ∧ maxScale ≤ s
  · obtain ⟨rfl, rfl, hfull⟩ := id hall
    exact .inr (.inl ⟨rfl, .inl (Nat.le_antisymm hp.scale_le hfull), Iff.rfl, if_pos hall⟩)
  rw [if_neg hall]
  cases hdigit : digit? c with
  | some v =>
    have hc := (eq_of_digit? hdigit).1
    have hwhole : pointed = false → s = 0 := by
      rintro rfl
      exact hp.whole fun h => Bool.false_ne_true h.1
    dsimp only
    by_cases hfits : m * 10 + v < mantissaLimit
    · rw [if_pos hfits]
      exact .inl ⟨_, hp.digit hfits hall, Progress.size_digit cs hwhole hdigit, ending_digit hc,
        rfl⟩
    · rw [if_neg hfits]
      have hlarge := Nat.le_of_not_lt hfits
      cases pointed with
      | true =>
        refine .inr (.inl ⟨rfl, .inr (Progress.le_size_mul_pow cs hdigit hlarge), ?_, if_pos rfl⟩)
        rw [ending_digit hc, ending_digit hc]
      | false =>
        -- the whole part does not fit, whatever comes behind this digit
        obtain rfl := hwhole rfl
        have hsize := Progress.le_size_whole started cs hdigit hlarge
        refine .inr (.inr ⟨⟨_, if_neg Bool.false_ne_true⟩, fun h => ?_⟩)
        linarith [h.2]
  | none =>
    have hc : c.isDigit = false := by
      unfold digit? at hdigit
      split at hdigit
      · cases hdigit
      · simpa using ‹¬ c.isDigit = true›
    dsimp only
    by_cases hpoint : c = '.' ∧ ¬ pointed = true
    · rw [if_pos hpoint]
      obtain ⟨rfl, hpointed⟩ := hpoint
      obtain rfl := eq_false_of_ne_true hpointed
      have hplaces : s = 0 := hp.whole fun h => hpointed h.1
      exact .inl ⟨⟨true, started, m, s⟩, ⟨hp.mantissa_lt, hp.scale_le, fun _ => hplaces⟩,
        Progress.size_point started m s cs, ending_point, rfl⟩
    · rw [if_neg hpoint]
      by_cases hseparator : c = '_' ∧ started = true
      · rw [if_pos hseparator]
        obtain ⟨rfl, rfl⟩ := hseparator
        exact .inl ⟨_, hp, Progress.size_separator _ cs,
          ending_separator.trans (and_iff_right rfl), rfl⟩
      · rw [if_neg hseparator]
        refine .inr (.inr ⟨⟨_, rfl⟩, fun h => ?_⟩)
        rcases h.1.chars c List.mem_cons_self with hd | rfl | rfl
        · exact Bool.false_ne_true (hc.symm.trans hd)
        · -- the point is a second one
          have hcount := h.1.point
          rw [List.count_cons_self] at hcount
          cases pointed with
          | false => exact hpoint ⟨rfl, Bool.false_ne_true⟩
          | true => simp at hcount
        · exact hseparator ⟨rfl, (ending_separator.mp h.1).1⟩

/-- What is read of a numeral is its number as far as it fits, whatever was read before. -/
theorem roundsTo_of_readDigits {negative : Bool} {p : Progress} (hp : p.Sound) {cs : List Char}
    {d : Decimal} (h : readDigits negative p cs = .ok d) :
    RoundsTo (withSign negative (p.size cs)) d := by
  induction cs generalizing p with
  | nil =>
    rw [readDigits] at h
    split_ifs at h
    have hsize : p.size [] * 10 ^ p.scale = p.mantissa := by
      rw [p.size_nil, div_mul_cancel₀ _ (ten_pow_pos _).ne']
    exact roundsTo_of_ofReading (p.size_nonneg []) (by rw [hsize, floor_add_half])
      (.inl hsize.symm) h
  | cons c cs ih =>
    rcases readDigits_cons_cases negative hp c cs with ⟨q, hq, hsize, -, hread⟩ |
      ⟨hpointed, hfull, -, hread⟩ | ⟨⟨e, hread⟩, -⟩
    · exact hsize ▸ ih hq (hread ▸ h)
    · obtain ⟨pointed, started, m, s⟩ := p
      obtain rfl : pointed = true := hpointed
      exact roundsTo_of_roundAt hp.mantissa_lt hfull (hread ▸ h)
    · cases hread.symm.trans h

/-! ## Numerals with a sign -/

/-- The number of a numeral: its digits in units of its last place, with the sign in front. -/
def numeral (cs : List Char) : ℚ :=
  withSign (cs.head? = some '-') (Nat.ofDigitChars 10 (digitsIn cs) 0 / 10 ^ (placesIn cs).length)

theorem numeral_eq (cs : List Char) :
    numeral cs = withSign (cs.head? = some '-') (Progress.start.size cs) := by
  simp [numeral, Progress.size, Progress.start]

/-- A sign in front is no digit. -/
theorem size_sign {c : Char} (hc : c.isDigit = false) (hpoint : c ≠ '.') (cs : List Char) :
    Progress.start.size (c :: cs) = Progress.start.size cs := by
  have hdigits : digitsIn (c :: cs) = digitsIn cs := List.filter_cons_of_neg (by simp [hc])
  have hplaces : placesIn (c :: cs) = placesIn cs := by
    rw [placesIn, List.dropWhile_cons_of_pos (by simpa using hpoint), placesIn]
  rw [Progress.size, hdigits, hplaces, Progress.size]

/-- A numeral that is read is its number as far as it fits. -/
theorem roundsTo_of_readNumeral {cs : List Char} {d : Decimal} (h : readNumeral cs = .ok d) :
    RoundsTo (numeral cs) d := by
  have hread {negative : Bool} {cs : List Char} (h : readDigits negative .start cs = .ok d) :
      RoundsTo (withSign negative (Progress.start.size cs)) d :=
    roundsTo_of_readDigits Progress.sound_start h
  unfold readNumeral at h
  split at h
  · cases h
  · rename_i cs
    have hnumeral : numeral ('-' :: cs) = withSign true (Progress.start.size cs) := by
      rw [numeral_eq, size_sign rfl (by decide)]
      rfl
    exact hnumeral ▸ hread h
  · rename_i cs
    have hnumeral : numeral ('+' :: cs) = withSign false (Progress.start.size cs) := by
      rw [numeral_eq, size_sign rfl (by decide)]
      rfl
    exact hnumeral ▸ hread h
  · rename_i hminus _
    -- no sign stands there
    have hsign : decide (cs.head? = some '-') = false := by
      apply decide_eq_false
      intro hhead
      obtain ⟨rest, rfl⟩ := List.head?_eq_some_iff.mp hhead
      exact hminus rest rfl
    have hnumeral : numeral cs = withSign false (Progress.start.size cs) := by
      rw [numeral_eq, hsign]
    exact hnumeral ▸ hread h

/-! ## Exponents -/

/-- The exponent behind a mark. -/
def exponentIn : List Char → ℤ
  | '-' :: cs => -(Nat.ofDigitChars 10 (digitsIn cs) 0 : ℕ)
  | cs => (Nat.ofDigitChars 10 (digitsIn cs) 0 : ℕ)

/-- The numeral of a text, in front of an exponent mark. -/
def numeralOf (s : String) : ℚ := numeral (s.toList.takeWhile (! isExponentMark ·))

/-- The exponent of a text, zero without a mark. -/
def exponentOf (s : String) : ℤ := exponentIn (s.toList.dropWhile (! isExponentMark ·)).tail

/-- Digits without the plus sign in front of them. -/
def unplussed : List Char → List Char
  | '+' :: cs => cs
  | cs => cs

theorem digitsIn_unplussed (cs : List Char) : digitsIn (unplussed cs) = digitsIn cs := by
  unfold unplussed
  split
  · exact (List.filter_cons_of_neg (by decide)).symm
  · rfl

theorem foldlM_digit?_eq_some_iff {cs : List Char} {m n : ℕ} :
    cs.foldlM (fun n c => (n * 10 + ·) <$> digit? c) m = some n ↔
      (∀ c ∈ cs, c.isDigit = true) ∧ Nat.ofDigitChars 10 (digitsIn cs) m = n := by
  induction cs generalizing m with
  | nil => simp [digitsIn, Nat.ofDigitChars_nil]
  | cons c cs ih =>
    rw [List.foldlM_cons, List.forall_mem_cons, digit?, digitsIn, List.filter_cons]
    cases hc : c.isDigit with
    | false => simp
    | true =>
      rw [if_pos rfl, if_pos rfl, ofDigitChars_cons, and_iff_right rfl]
      exact ih

/-- The number of an exponent is read from digits only. -/
theorem readExponent?_eq_some_iff {cs : List Char} {n : ℕ} : readExponent? cs = some n ↔
    (unplussed cs ≠ [] ∧ ∀ c ∈ unplussed cs, c.isDigit = true) ∧
      Nat.ofDigitChars 10 (digitsIn cs) 0 = n ∧ n < UInt32.size := by
  -- a number of more than thirty-two bits is refused after its digits were read
  change (if (unplussed cs).isEmpty then none
    else (unplussed cs).foldlM (fun n c => (n * 10 + ·) <$> digit? c) 0 >>= fun n =>
      if n < UInt32.size then some n else none) = some n ↔ _
  split
  · rename_i hempty
    simp [List.isEmpty_iff.mp hempty]
  · rename_i hne
    rw [and_assoc, and_iff_right (by simpa using hne)]
    refine Option.bind_eq_some_iff.trans ?_
    simp only [foldlM_digit?_eq_some_iff, digitsIn_unplussed]
    constructor
    · rintro ⟨v, ⟨hdigits, rfl⟩, h⟩
      split at h
      · cases h
        exact ⟨hdigits, rfl, ‹_›⟩
      · cases h
    · rintro ⟨hdigits, rfl, hlt⟩
      exact ⟨_, ⟨hdigits, rfl⟩, if_pos hlt⟩

/-- Moving the point by an exponent rounds the places that no longer fit. -/
theorem roundsTo_of_move {c d : Decimal} {cs : List Char} (h : c.move cs = .ok d) :
    RoundsTo (c.value * 10 ^ exponentIn cs) d := by
  unfold move at h
  split at h
  · rename_i digits
    cases hplaces : readExponent? digits with
    | none =>
      rw [hplaces] at h
      cases h
    | some places =>
      rw [hplaces] at h
      rw [exponentIn, (readExponent?_eq_some_iff.mp hplaces).2.1, zpow_neg, zpow_natCast,
        ← div_eq_mul_inv]
      exact roundsTo_of_shiftLeft h
  · rename_i hminus
    cases hplaces : readExponent? cs with
    | none =>
      rw [hplaces] at h
      cases h
    | some places =>
      rw [hplaces] at h
      have hexponent : exponentIn cs = places := by
        rw [exponentIn, (readExponent?_eq_some_iff.mp hplaces).2.1]
        exact hminus
      rw [hexponent, zpow_natCast, ← value_of_shiftRight h]
      exact roundsTo_value d

theorem takeWhile_of_dropWhile_eq_nil {p : Char → Bool} {cs : List Char}
    (h : cs.dropWhile p = []) : cs.takeWhile p = cs := by
  have happend := List.takeWhile_append_dropWhile (p := p) (l := cs)
  rwa [h, List.append_nil] at happend

theorem exponentOf_of_no_mark {s : String}
    (h : s.toList.dropWhile (! isExponentMark ·) = []) : exponentOf s = 0 := by
  rw [exponentOf, h]
  rfl

/-- What is read of a text is its numeral as far as it fits, and then its number with the point
moved as far as that fits. -/
theorem rounded_of_ofText {s : String} {d : Decimal} (h : ofText s = .ok d) :
    ∃ c : Decimal, RoundsTo (numeralOf s) c ∧ RoundsTo (c.value * 10 ^ exponentOf s) d := by
  unfold ofText at h
  dsimp only at h
  cases hmark : s.toList.dropWhile (! isExponentMark ·) with
  | nil =>
    simp only [hmark] at h
    refine ⟨d, ?_, ?_⟩
    · rw [numeralOf, takeWhile_of_dropWhile_eq_nil hmark]
      exact roundsTo_of_readNumeral h
    · rw [exponentOf_of_no_mark hmark, zpow_zero, mul_one]
      exact roundsTo_value d
  | cons mark cs =>
    simp only [hmark] at h
    obtain ⟨c, hc, h⟩ := bind_eq_ok.mp h
    rw [exponentOf, hmark, List.tail_cons]
    exact ⟨c, roundsTo_of_readNumeral hc, roundsTo_of_move h⟩

/-! ## Texts -/

/-- Is a decimal the number that a text denotes, as far as it fits? The numeral in front of the
exponent is kept as far as it fits, and then the number with its point moved; so nothing is lost if
both of them fit. A numeral whose whole part does not fit is refused. -/
structure ReadAs (s : String) (d : Decimal) : Prop where
  small : |numeralOf s| + 1 / 2 < mantissaLimit
  rounded : ∃ c : Decimal, RoundsTo (numeralOf s) c ∧ RoundsTo (c.value * 10 ^ exponentOf s) d
  lossless : ∀ a b : Decimal, a.value = numeralOf s → b.value = numeralOf s * 10 ^ exponentOf s →
    d.value = b.value

theorem readAs_of_ofText {s : String} {d : Decimal} (h : ofText s = .ok d) : ReadAs s d := by
  obtain ⟨c, hnumeral, hnumber⟩ := rounded_of_ofText h
  refine ⟨hnumeral.abs_lt, ⟨c, hnumeral, hnumber⟩, fun a b ha hb => ?_⟩
  rw [hnumeral.value_eq ha, ← hb] at hnumber
  exact hnumber.value_eq rfl

end MarketDag.Decimal
