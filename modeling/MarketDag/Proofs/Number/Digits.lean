import Mathlib.Algebra.Group.Nat.Defs
import Mathlib.Data.List.Basic
import Mathlib.Data.List.TakeWhile
import MarketDag.Number.Decimal.Reader
import MarketDag.Time.Date

/-!
# Digits

Numbers written with at least so many digits, and decimals as digits around a point: both are read
back (`ofDigits_padded`, `Decimal.ofText_toText`), and digits without a needless zero in front are
those of their number (`Decimal.toDigits_ofDigitChars`).  What is read as a decimal begins with a
digit, a sign or a point (`Decimal.canBegin_of_ofText`).
-/

namespace MarketDag

/-! ## Digits of numbers -/

namespace Decimal

theorem isDigit_of_mem_toDigits {n : Nat} : ∀ c ∈ Nat.toDigits 10 n, c.isDigit = true :=
  fun _ => Nat.isDigit_of_mem_toDigits (by decide) (by decide)

/-- No number but zero begins with a zero. -/
theorem head?_toDigits {n : Nat} (h : 0 < n) : (Nat.toDigits 10 n).head? ≠ some '0' := by
  induction n using Nat.strongRecOn with
  | ind n ih =>
    rcases Nat.lt_or_ge n 10 with hsmall | hlarge
    · have hdigit : ∀ m < 10, 0 < m → [m.digitChar].head? ≠ some '0' := by decide
      rw [Nat.toDigits_of_lt_base hsmall]
      exact hdigit n hsmall h
    · rw [Nat.toDigits_of_base_le (by decide) hlarge, List.head?_append_of_ne_nil _
        Nat.toDigits_ne_nil]
      exact ih (n / 10) (by omega) (by omega)

end Decimal

/-! ## Padded numbers -/

namespace Date

theorem toNat_of_isDigit {c : Char} (h : c.isDigit = true) : 48 ≤ c.toNat ∧ c.toNat ≤ 57 := by
  simpa [Char.isDigit, UInt32.le_iff_toNat_le] using h

theorem isDigit_of_mem_padded {width n : Nat} {c : Char} (h : c ∈ padded width n) :
    c.isDigit = true := by
  rw [padded, List.mem_append, List.mem_replicate] at h
  rcases h with ⟨_, rfl⟩ | h
  · rfl
  · exact Decimal.isDigit_of_mem_toDigits c h

theorem padded_eq_cons (width n : Nat) :
    ∃ c cs, padded width n = c :: cs ∧ c.isDigit = true := by
  cases h : padded width n with
  | nil => simp [padded, Nat.toDigits_ne_nil] at h
  | cons c cs =>
    have hc : c ∈ padded width n := h ▸ List.mem_cons_self
    exact ⟨c, cs, rfl, isDigit_of_mem_padded hc⟩

@[simp] theorem ofDigitChars_padded (width n : Nat) :
    Nat.ofDigitChars 10 (padded width n) 0 = n := by
  rw [padded, Nat.ofDigitChars_append, Nat.ofDigitChars_replicate_zero, Nat.mul_zero,
    Nat.ofDigitChars_ten_toDigits]

theorem le_length_padded (width n : Nat) : width ≤ (padded width n).length := by
  simp [padded]
  omega

theorem length_padded {width n : Nat} (hwidth : 0 < width) (hn : n < 10 ^ width) :
    (padded width n).length = width := by
  have h := (Nat.length_toDigits_le_iff (by decide) hwidth).mpr hn
  simp [padded]
  omega

end Date

namespace Calendar

theorem ofDigits_eq (ds : List Char) : ofDigits ds = Nat.ofDigitChars 10 ds 0 := by
  rw [ofDigits, Nat.ofDigitChars]
  congr 1
  funext n c
  rw [Nat.mul_comm]
  rfl

@[simp] theorem ofDigits_padded (width n : Nat) : ofDigits (Date.padded width n) = n := by
  rw [ofDigits_eq, Date.ofDigitChars_padded]

end Calendar

/-! ## Decimals -/

namespace Decimal

theorem digit?_of_isDigit {c : Char} (h : c.isDigit = true) : digit? c = some (c.toNat - 48) :=
  if_pos h

theorem ofDigitChars_cons (c : Char) (cs : List Char) (m : Nat) :
    Nat.ofDigitChars 10 (c :: cs) m = Nat.ofDigitChars 10 cs (m * 10 + (c.toNat - 48)) := by
  rw [Nat.ofDigitChars_cons, Nat.mul_comm]
  rfl

/-- The first digit of a numeral counts for a power of ten. -/
theorem ofDigitChars_cons_zero (c : Char) (cs : List Char) :
    Nat.ofDigitChars 10 (c :: cs) 0 =
      10 ^ cs.length * (c.toNat - 48) + Nat.ofDigitChars 10 cs 0 := by
  rw [ofDigitChars_cons, Nat.ofDigitChars_eq_ofDigitChars_zero, Nat.zero_mul, Nat.zero_add]

theorem le_ofDigitChars_cons (c : Char) (cs : List Char) (m : Nat) :
    m * 10 + (c.toNat - 48) ≤ Nat.ofDigitChars 10 (c :: cs) m := by
  rw [ofDigitChars_cons, Nat.ofDigitChars_eq_ofDigitChars_zero]
  have hpos : 0 < 10 ^ cs.length := Nat.pow_pos (by decide)
  exact Nat.le_trans (Nat.le_mul_of_pos_left _ hpos) (Nat.le_add_right ..)

theorem ofDigitChars_lt {ds : List Char} (h : ∀ c ∈ ds, c.isDigit = true) :
    Nat.ofDigitChars 10 ds 0 < 10 ^ ds.length := by
  induction ds with
  | nil => simp
  | cons c ds ih =>
    obtain ⟨hc, hds⟩ := List.forall_mem_cons.mp h
    have hlt := ih hds
    have hrange := Date.toNat_of_isDigit hc
    have hdigit : c.toNat - 48 ≤ 9 := by omega
    have hmul := Nat.mul_le_mul_left (10 ^ ds.length) hdigit
    rw [ofDigitChars_cons_zero, List.length_cons, Nat.pow_succ]
    omega

/-- A first digit counts for more than all digits behind it. -/
theorem mul_add_lt_mul_add_iff {p x y a b : Nat} (ha : a < p) (hb : b < p) :
    p * x + a < p * y + b ↔ x < y ∨ (x = y ∧ a < b) := by
  rcases Nat.lt_trichotomy x y with h | rfl | h
  · have := Nat.mul_le_mul_left p h
    rw [Nat.mul_succ] at this
    simp only [h, true_or, iff_true]
    omega
  · simp
  · have := Nat.mul_le_mul_left p h
    rw [Nat.mul_succ] at this
    simp only [Nat.lt_asymm h, Nat.ne_of_gt h, false_and, or_self, iff_false]
    omega

/-- Numerals of one length are in the order of their numbers. -/
theorem lt_iff_ofDigitChars_lt {as bs : List Char} (ha : ∀ c ∈ as, c.isDigit = true)
    (hb : ∀ c ∈ bs, c.isDigit = true) (hlength : as.length = bs.length) :
    as < bs ↔ Nat.ofDigitChars 10 as 0 < Nat.ofDigitChars 10 bs 0 := by
  induction as generalizing bs with
  | nil =>
    obtain rfl := List.eq_nil_of_length_eq_zero hlength.symm
    simp
  | cons a as ih =>
    cases bs with
    | nil => cases hlength
    | cons b bs =>
      obtain ⟨ha, has⟩ := List.forall_mem_cons.mp ha
      obtain ⟨hb, hbs⟩ := List.forall_mem_cons.mp hb
      have hlength : as.length = bs.length := Nat.succ.inj hlength
      have hfirst := Date.toNat_of_isDigit ha
      have hfirst' := Date.toNat_of_isDigit hb
      have hrest := ofDigitChars_lt hbs
      rw [← hlength] at hrest
      -- the first digit decides, since the numbers behind it are smaller than its unit
      have hlt : a < b ↔ a.toNat - 48 < b.toNat - 48 := by
        rw [Char.lt_def, UInt32.lt_iff_toNat_lt]
        change a.toNat < b.toNat ↔ _
        omega
      have heq : a = b ↔ a.toNat - 48 = b.toNat - 48 := by
        rw [← Char.toNat_inj]
        omega
      rw [List.cons_lt_cons_iff, ih has hbs hlength, ofDigitChars_cons_zero, ofDigitChars_cons_zero,
        ← hlength, mul_add_lt_mul_add_iff (ofDigitChars_lt has) hrest, hlt, heq]

/-- Numerals of one length and one number are one. -/
theorem eq_of_ofDigitChars_eq {as bs : List Char} (ha : ∀ c ∈ as, c.isDigit = true)
    (hb : ∀ c ∈ bs, c.isDigit = true) (hlength : as.length = bs.length)
    (h : Nat.ofDigitChars 10 as 0 = Nat.ofDigitChars 10 bs 0) : as = bs := by
  have hlt : ¬ as < bs := by
    rw [lt_iff_ofDigitChars_lt ha hb hlength, h]
    exact Nat.lt_irrefl _
  have hgt : ¬ bs < as := by
    rw [lt_iff_ofDigitChars_lt hb ha hlength.symm, h]
    exact Nat.lt_irrefl _
  exact List.le_antisymm (List.not_lt.mp hgt) (List.not_lt.mp hlt)

/-- The number of digits is zero if all of them are. -/
theorem ofDigitChars_eq_zero {ds : List Char} (hds : ∀ c ∈ ds, c.isDigit = true) :
    Nat.ofDigitChars 10 ds 0 = 0 ↔ ∀ c ∈ ds, c = '0' := by
  have hzeros : Nat.ofDigitChars 10 (List.replicate ds.length '0') 0 = 0 := by
    rw [Nat.ofDigitChars_replicate_zero, Nat.mul_zero]
  constructor
  · intro h
    have hreplicate : ds = List.replicate ds.length '0' := by
      refine eq_of_ofDigitChars_eq hds (fun c hc => ?_) List.length_replicate.symm
        (h.trans hzeros.symm)
      rw [List.eq_of_mem_replicate hc]
      rfl
    exact (List.eq_replicate_iff.mp hreplicate).2
  · intro h
    rw [List.eq_replicate_iff.mpr ⟨rfl, h⟩, hzeros]

/-- A digit at the end of other digits counts for itself. -/
theorem ofDigitChars_concat (ds : List Char) (c : Char) :
    Nat.ofDigitChars 10 (ds ++ [c]) 0 = 10 * Nat.ofDigitChars 10 ds 0 + (c.toNat - 48) := by
  rw [Nat.ofDigitChars_append, Nat.ofDigitChars_eq_ofDigitChars_zero, ofDigitChars_cons_zero,
    Nat.ofDigitChars_nil]
  simp

/-- Digits without a needless zero in front are those of their number. -/
theorem toDigits_ofDigitChars {ds : List Char} (hne : ds ≠ []) (hds : ∀ c ∈ ds, c.isDigit = true)
    (hzero : ds.head? = some '0' → ds = ['0']) :
    Nat.toDigits 10 (Nat.ofDigitChars 10 ds 0) = ds := by
  obtain ⟨c, cs, rfl⟩ := List.exists_cons_of_ne_nil hne
  by_cases hc : c = '0'
  · rw [hzero (by rw [hc, List.head?_cons])]
    rfl
  have hlt := ofDigitChars_lt hds
  refine eq_of_ofDigitChars_eq isDigit_of_mem_toDigits hds ?_
    (Nat.ofDigitChars_ten_toDigits ..)
  -- the first digit is not zero, so that the number has as many digits as there are
  have hfirst : c.toNat - 48 ≠ 0 := by
    have hrange := Date.toNat_of_isDigit (hds c List.mem_cons_self)
    intro h
    exact hc (Char.toNat_inj.mp (by change c.toNat = 48; omega))
  have hge : 10 ^ cs.length ≤ Nat.ofDigitChars 10 (c :: cs) 0 := by
    rw [ofDigitChars_cons_zero]
    exact Nat.le_trans (Nat.le_mul_of_pos_right _ (Nat.pos_of_ne_zero hfirst)) (Nat.le_add_right ..)
  refine Nat.le_antisymm ((Nat.length_toDigits_le_iff (by decide) (by simp)).mpr hlt) ?_
  rw [List.length_cons, Nat.succ_le_iff]
  rcases Nat.eq_zero_or_pos cs.length with hnil | hpos
  · rw [hnil]
    exact List.length_pos_iff.mpr Nat.toDigits_ne_nil
  · exact Nat.lt_of_not_le fun hle =>
      absurd ((Nat.length_toDigits_le_iff (by decide) hpos).mp hle) (Nat.not_lt.mpr hge)

/-- The places of a mantissa, as many as the scale says. -/
def placesOf (m s : Nat) : List Char := if s = 0 then [] else Date.padded s (m % 10 ^ s)

theorem isDigit_placesOf {m s : Nat} : ∀ c ∈ placesOf m s, c.isDigit = true := by
  intro c hc
  unfold placesOf at hc
  split at hc
  · cases hc
  · exact Date.isDigit_of_mem_padded hc

theorem length_placesOf (m s : Nat) : (placesOf m s).length = s := by
  unfold placesOf
  split
  · exact Eq.symm ‹_›
  · exact Date.length_padded (Nat.pos_of_ne_zero ‹_›) (Nat.mod_lt _ (Nat.pow_pos (by decide)))

theorem ofDigitChars_placesOf (m s : Nat) : Nat.ofDigitChars 10 (placesOf m s) 0 = m % 10 ^ s := by
  unfold placesOf
  split
  · rename_i hs
    rw [hs, Nat.ofDigitChars_nil, Nat.pow_zero, Nat.mod_one]
  · exact Date.ofDigitChars_padded ..

/-- The places bring the mantissa back from what stands before the point. -/
theorem ofDigitChars_placesOf_whole (m s : Nat) :
    Nat.ofDigitChars 10 (placesOf m s) (m / 10 ^ s) = m := by
  rw [Nat.ofDigitChars_eq_ofDigitChars_zero, length_placesOf, ofDigitChars_placesOf]
  exact Nat.div_add_mod ..

/-- The digits around the point bring the mantissa back. -/
theorem ofDigitChars_parts (m s : Nat) :
    Nat.ofDigitChars 10 (Nat.toDigits 10 (m / 10 ^ s) ++ placesOf m s) 0 = m := by
  rw [Nat.ofDigitChars_append, Nat.ofDigitChars_ten_toDigits, ofDigitChars_placesOf_whole]

/-- Digits that fit are read one after the other. -/
theorem readDigits_append {negative pointed started : Bool} {m s : Nat} {ds : List Char}
    (hds : ∀ c ∈ ds, c.isDigit = true) (hm : Nat.ofDigitChars 10 ds m < mantissaLimit)
    (hs : if pointed then s + ds.length ≤ maxScale else s = 0) (rest : List Char) :
    readDigits negative ⟨pointed, started, m, s⟩ (ds ++ rest) =
      readDigits negative ⟨pointed, started || !ds.isEmpty, Nat.ofDigitChars 10 ds m,
        if pointed then s + ds.length else 0⟩ rest := by
  induction ds generalizing started m s with
  | nil => cases pointed <;> simp_all
  | cons c cs ih =>
    have hc := digit?_of_isDigit (hds c List.mem_cons_self)
    have hlt := Nat.lt_of_le_of_lt (le_ofDigitChars_cons c cs m) hm
    -- the digit stands on a place that a decimal has
    have hfits : ¬ (pointed = true ∧ started = true ∧ maxScale ≤ s) := by
      rintro ⟨rfl, -, hle⟩
      simp only [if_true, List.length_cons] at hs
      omega
    rw [ofDigitChars_cons] at hm
    rw [List.cons_append, readDigits, if_neg hfits, hc]
    simp only [if_pos hlt]
    rw [ih (fun c h => hds c (List.mem_cons_of_mem _ h)) hm]
    · rw [ofDigitChars_cons]
      cases pointed <;> simp [Nat.add_assoc, Nat.add_comm 1]
    · cases pointed
      · rfl
      · simpa [Nat.add_assoc, Nat.add_comm 1] using hs

theorem readDigits_point {negative : Bool} {m : Nat} (rest : List Char) :
    readDigits negative ⟨false, true, m, 0⟩ ('.' :: rest) =
      readDigits negative ⟨true, true, m, 0⟩ rest := by
  rw [readDigits]
  rfl

/-- The digits before and after the point of a decimal, without its sign. -/
def unsignedChars (d : Decimal) : List Char :=
  Nat.toDigits 10 (d.mantissa / Nat.pow 10 d.scale) ++
    if d.scale = 0 then [] else '.' :: padded d.scale (d.mantissa % Nat.pow 10 d.scale)

theorem toChars_eq (d : Decimal) :
    d.toChars = (if d.negative then ['-'] else []) ++ d.unsignedChars := by
  simp only [toChars, unsignedChars, List.append_assoc]

/-- The point is there if places are. -/
theorem unsignedChars_eq (d : Decimal) :
    d.unsignedChars = Nat.toDigits 10 (d.mantissa / 10 ^ d.scale) ++
      if placesOf d.mantissa d.scale = [] then [] else '.' :: placesOf d.mantissa d.scale := by
  have hnil : placesOf d.mantissa d.scale = [] ↔ d.scale = 0 := by
    rw [← List.length_eq_zero_iff, length_placesOf]
  rw [unsignedChars]
  by_cases hs : d.scale = 0
  · rw [if_pos hs, if_pos (hnil.mpr hs)]
    rfl
  · rw [if_neg hs, if_neg (mt hnil.mp hs), placesOf, if_neg hs]
    rfl

theorem readDigits_unsignedChars (negative : Bool) (d : Decimal) :
    readDigits negative .start d.unsignedChars = ofReading negative d.mantissa d.scale := by
  have hle : d.mantissa / 10 ^ d.scale < mantissaLimit :=
    Nat.lt_of_le_of_lt (Nat.div_le_self ..) d.mantissa_lt
  have hne : (Nat.toDigits 10 (d.mantissa / 10 ^ d.scale)).isEmpty = false := by
    simp [Nat.toDigits_ne_nil]
  have hvalue := ofDigitChars_placesOf_whole d.mantissa d.scale
  have hlength := length_placesOf d.mantissa d.scale
  rw [unsignedChars_eq, Progress.start,
    readDigits_append isDigit_of_mem_toDigits (by rwa [Nat.ofDigitChars_ten_toDigits]) (by simp),
    Nat.ofDigitChars_ten_toDigits, hne, if_neg (by decide)]
  split
  · rename_i hnil
    rw [hnil, List.length_nil] at hlength
    simp [readDigits, ← hlength]
  · rw [Bool.not_false, Bool.or_true, readDigits_point, ← List.append_nil (placesOf _ _),
      readDigits_append isDigit_placesOf (by rw [hvalue]; exact d.mantissa_lt)
        (by rw [if_pos rfl, hlength, Nat.zero_add]; exact d.scale_le), hvalue, hlength]
    simp [readDigits]

theorem unsignedChars_eq_cons (d : Decimal) :
    ∃ c cs, d.unsignedChars = c :: cs ∧ c.isDigit = true := by
  rw [unsignedChars]
  cases h : Nat.toDigits 10 (d.mantissa / Nat.pow 10 d.scale) with
  | nil => exact absurd h Nat.toDigits_ne_nil
  | cons c cs =>
    have hc : c ∈ Nat.toDigits 10 (d.mantissa / Nat.pow 10 d.scale) := by
      rw [h]
      exact List.mem_cons_self
    exact ⟨c, _, rfl, isDigit_of_mem_toDigits c hc⟩

theorem readNumeral_toChars (d : Decimal) :
    readNumeral d.toChars = ofReading d.negative d.mantissa d.scale := by
  rw [toChars_eq, ← readDigits_unsignedChars]
  cases d.negative with
  | true => rfl
  | false =>
    obtain ⟨c, cs, hchars, hc⟩ := d.unsignedChars_eq_cons
    rw [hchars]
    unfold readNumeral
    split
    · -- the first character is a digit: it is no sign
      rename_i h
      cases h
    · rename_i h
      cases h
      cases hc
    · rename_i h
      cases h
      cases hc
    · rfl

theorem isExponentMark_of_mem_toChars {d : Decimal} {c : Char} (h : c ∈ d.toChars) :
    isExponentMark c = false := by
  have hdigit : ∀ c : Char, c.isDigit = true → isExponentMark c = false := by
    intro c hc
    apply decide_eq_false
    rintro (rfl | rfl) <;> cases hc
  rw [toChars_eq, unsignedChars, List.mem_append, List.mem_append] at h
  rcases h with h | h | h
  · split at h
    · rw [List.mem_singleton.mp h]
      rfl
    · cases h
  · exact hdigit c (isDigit_of_mem_toDigits c h)
  · split at h
    · cases h
    · rcases List.mem_cons.mp h with rfl | h
      · rfl
      · exact hdigit c (Date.isDigit_of_mem_padded h)

/-- A decimal is read back from its text, unless it is a zero with a sign. -/
theorem ofText_toText {d : Decimal} (h : d.mantissa = 0 → d.negative = false) :
    ofText d.toText = .ok d := by
  have hmarks : d.toChars.dropWhile (! isExponentMark ·) = [] := by
    apply List.dropWhile_eq_nil_iff.mpr
    intro c hc
    rw [isExponentMark_of_mem_toChars hc]
    rfl
  have hsign : (d.negative && decide (d.mantissa ≠ 0)) = d.negative := by
    by_cases hm : d.mantissa = 0
    · simp [hm, h hm]
    · simp [hm]
  rw [ofText, toText, String.toList_ofList]
  simp only [hmarks]
  rw [readNumeral_toChars, ofReading, hsign, ofParts?, dif_pos ⟨d.mantissa_lt, d.scale_le⟩]

/-! ### What a decimal begins with -/

/-- Can a decimal begin with a character? -/
def CanBegin (c : Char) : Prop := c.isDigit = true ∨ c = '+' ∨ c = '-' ∨ c = '.'

theorem canBegin_of_readDigits {negative : Bool} {c : Char} {cs : List Char} {d : Decimal}
    (h : readDigits negative .start (c :: cs) = .ok d) : c.isDigit = true ∨ c = '.' := by
  by_cases hdigit : c.isDigit = true
  · exact .inl hdigit
  · have hnone : digit? c = none := if_neg hdigit
    rw [readDigits, if_neg (by simp [Progress.start])] at h
    simp only [hnone] at h
    by_cases hpoint : c = '.'
    · exact .inr hpoint
    · rw [if_neg (by simp [hpoint]), if_neg (by simp [Progress.start])] at h
      cases h

theorem canBegin_of_readNumeral {cs : List Char} {d : Decimal} (h : readNumeral cs = .ok d) :
    ∃ c rest, cs = c :: rest ∧ CanBegin c := by
  unfold readNumeral at h
  split at h
  · cases h
  · exact ⟨_, _, rfl, .inr (.inr (.inl rfl))⟩
  · exact ⟨_, _, rfl, .inr (.inl rfl)⟩
  · cases cs with
    | nil => cases h
    | cons c cs =>
      refine ⟨c, cs, rfl, ?_⟩
      rcases canBegin_of_readDigits h with hdigit | rfl
      · exact .inl hdigit
      · exact .inr (.inr (.inr rfl))

/-- A decimal begins with a digit, a sign or a point. -/
theorem canBegin_of_ofText {s : String} {d : Decimal} (h : ofText s = .ok d) :
    ∃ c rest, s.toList = c :: rest ∧ CanBegin c := by
  unfold ofText at h
  dsimp only at h
  split at h
  · exact canBegin_of_readNumeral h
  · cases hread : readNumeral (s.toList.takeWhile (! isExponentMark ·)) with
    | error fault =>
      rw [hread] at h
      cases h
    | ok d =>
      obtain ⟨c, rest, hfront, hc⟩ := canBegin_of_readNumeral hread
      obtain ⟨after, hafter⟩ := List.takeWhile_prefix (l := s.toList) (! isExponentMark ·)
      rw [hfront, List.cons_append] at hafter
      exact ⟨c, rest ++ after, hafter.symm, hc⟩

end Decimal

end MarketDag
