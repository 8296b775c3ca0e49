import Mathlib.Data.List.Basic
import MarketDag.Json.Writer
import MarketDag.Json.Syntax
import MarketDag.Proofs.Number.Digits
import MarketDag.Proofs.Text.Utf8

/-!
# Texts and numbers in JSON: the round trip

A string is read back from its characters between quotes, whichever of them are escaped
(`string?_writeString`), and a natural number below 2 ^ 64 from its digits (`number?_toDigits`),
as long as what stands behind them does not go on with a number (`Ends`).
-/

namespace MarketDag.Json

/-- The bytes of characters. -/
abbrev encoded (cs : List Char) : List UInt8 := cs.flatMap Utf8.encodeChar

theorem encode_ofList (cs : List Char) : Utf8.encode (String.ofList cs) = encoded cs := by
  rw [Utf8.encode, String.toList_ofList]

/-! ## Strings -/

/-- A byte that stands for itself in a string. -/
def IsRaw (b : UInt8) : Prop := b.toNat ≠ 0x22 ∧ b.toNat ≠ 0x5C ∧ 0x20 ≤ b.toNat

/-- With this much fuel or more, the content of a string is read up to its closing quote. -/
def ReadsString (least : Nat) (bytes content rest : List UInt8) : Prop :=
  ∀ fuel, least ≤ fuel → stringBytes? fuel bytes = some (content, rest)

namespace ReadsString

variable {least : Nat} {bytes content rest : List UInt8}

theorem mono (h : ReadsString least bytes content rest) {least' : Nat} (hle : least ≤ least') :
    ReadsString least' bytes content rest := fun fuel hfuel => h fuel (Nat.le_trans hle hfuel)

theorem quote (rest : List UInt8) : ReadsString 1 (0x22 :: rest) [] rest := by
  intro fuel hfuel
  obtain ⟨k, rfl⟩ := Nat.exists_eq_add_of_le' hfuel
  rfl

theorem raw (h : ReadsString least bytes content rest) {b : UInt8} (hb : IsRaw b) :
    ReadsString (least + 1) (b :: bytes) (b :: content) rest := by
  intro fuel hfuel
  obtain ⟨k, rfl⟩ := Nat.exists_eq_add_of_le' (Nat.le_of_add_left_le hfuel)
  have hquote : b ≠ 0x22 := fun heq => hb.1 (heq ▸ rfl)
  have hslash : b ≠ 0x5C := fun heq => hb.2.1 (heq ▸ rfl)
  have hcontrol : ¬ b < 0x20 := Nat.not_lt.mpr hb.2.2
  rw [stringBytes?.eq_def]
  simp only [if_neg hquote, if_neg hslash, if_neg hcontrol, h k (by omega)]
  rfl

theorem raws (h : ReadsString least bytes content rest) {front : List UInt8}
    (hfront : ∀ b ∈ front, IsRaw b) :
    ReadsString (least + front.length) (front ++ bytes) (front ++ content) rest := by
  induction front with
  | nil => exact h
  | cons b front ih =>
    obtain ⟨hb, hfront⟩ := List.forall_mem_cons.mp hfront
    exact (ih hfront).raw hb

theorem letter (h : ReadsString least bytes content rest) {e : UInt8} {c : Char}
    (he : escapedLetter? e = some c) (hu : e ≠ 0x75) :
    ReadsString (least + 1) (0x5C :: e :: bytes) (Utf8.encodeChar c ++ content) rest := by
  intro fuel hfuel
  obtain ⟨k, rfl⟩ := Nat.exists_eq_add_of_le' (Nat.le_of_add_left_le hfuel)
  have hread := h k (by omega)
  rw [stringBytes?, if_neg (by decide), if_pos rfl, he, hread]
  · rfl
  · exact hu

theorem unicode (h : ReadsString least bytes content rest) {escape : List UInt8} {c : Char}
    (hc : escapedUnicode? escape = some (c, bytes)) :
    ReadsString (least + 1) (0x5C :: 0x75 :: escape) (Utf8.encodeChar c ++ content) rest := by
  intro fuel hfuel
  obtain ⟨k, rfl⟩ := Nat.exists_eq_add_of_le' (Nat.le_of_add_left_le hfuel)
  have hread := h k (by omega)
  rw [stringBytes?, if_neg (by decide), if_pos rfl]
  simp only [hc, hread, Option.bind_eq_bind, Option.bind_some]

end ReadsString

theorem value?_digit : ∀ n < 16, Hex.value? (Hex.digit n) = some n ∧
    Utf8.encodeChar (Hex.digit n) = [(Hex.digit n).toNat.toUInt8] ∧
    (Hex.digit n).toNat.toUInt8.toNat = (Hex.digit n).toNat := by decide

/-- The escape of a control character is read back. -/
theorem escapedUnicode?_control {c : Char} (h : c.toNat < 0x20) (bytes : List UInt8) :
    escapedUnicode? (encoded ['0', '0', Hex.digit (c.toNat / 16), Hex.digit (c.toNat % 16)] ++
      bytes) = some (c, bytes) := by
  obtain ⟨hhigh, hhighByte, hhighNat⟩ := value?_digit (c.toNat / 16) (by omega)
  obtain ⟨hlow, hlowByte, hlowNat⟩ := value?_digit (c.toNat % 16) (by omega)
  have hzero : Utf8.encodeChar '0' = [0x30] := rfl
  have hvalue : Hex.value? (Char.ofNat (0x30 : UInt8).toNat) = some 0 := by decide
  have hhex : hex4? (encoded ['0', '0', Hex.digit (c.toNat / 16), Hex.digit (c.toNat % 16)] ++
      bytes) = some (c.toNat, bytes) := by
    simp only [encoded, List.flatMap_cons, List.flatMap_nil, hzero, hhighByte, hlowByte,
      List.cons_append, List.nil_append, hex4?, hvalue, hhighNat, hlowNat, Char.ofNat_toNat,
      hhigh, hlow, Option.bind_eq_bind, Option.bind_some]
    have hsum : ((0 * 16 + 0) * 16 + c.toNat / 16) * 16 + c.toNat % 16 = c.toNat := by omega
    rw [hsum]
  rw [escapedUnicode?, hhex]
  simp only [Option.bind_eq_bind, Option.bind_some]
  rw [if_neg (by omega), if_neg (by omega), Char.ofNat_toNat]

/-- The bytes of other characters stand for themselves: those of more than one lie above all that
is special. -/
theorem isRaw_of_mem_encodeChar {c : Char} (hquote : c ≠ '"') (hslash : c ≠ '\\')
    (hcontrol : ¬ c.toNat < 0x20) {b : UInt8} (hb : b ∈ Utf8.encodeChar c) : IsRaw b := by
  have hbound : c.toNat < 0x110000 := by
    rcases Utf8.toNat_valid c with h | h <;> omega
  -- all bytes of a longer encoding are from 0x80 on, so none is a quote, a backslash or a control
  have hhigh : ∀ {n : Nat}, n < 256 → 0x80 ≤ n → IsRaw n.toUInt8 := by
    intro n hn hlow
    unfold IsRaw
    rw [toNat_toUInt8 hn]
    omega
  unfold Utf8.encodeChar at hb
  dsimp only at hb
  split at hb
  · rename_i hone
    cases List.mem_singleton.mp hb
    have hquote' : c.toNat ≠ 0x22 := fun h => hquote (Char.toNat_inj.mp h)
    have hslash' : c.toNat ≠ 0x5C := fun h => hslash (Char.toNat_inj.mp h)
    unfold IsRaw
    rw [toNat_toUInt8 (by omega)]
    omega
  · split at hb
    · simp only [List.mem_cons, List.not_mem_nil, or_false] at hb
      rcases hb with rfl | rfl <;> exact hhigh (by omega) (by omega)
    · split at hb
      · simp only [List.mem_cons, List.not_mem_nil, or_false] at hb
        rcases hb with rfl | rfl | rfl <;> exact hhigh (by omega) (by omega)
      · simp only [List.mem_cons, List.not_mem_nil, or_false] at hb
        rcases hb with rfl | rfl | rfl | rfl <;> exact hhigh (by omega) (by omega)

/-- A character stands in a string after a backslash as a letter, by its number, or as it is. -/
theorem escapeChar_cases (c : Char) :
    (∃ e b, escapeChar c = ['\\', e] ∧ Utf8.encodeChar e = [b] ∧ escapedLetter? b = some c ∧
      b ≠ 0x75) ∨
    (c.toNat < 0x20 ∧ escapeChar c =
      ['\\', 'u', '0', '0', Hex.digit (c.toNat / 16), Hex.digit (c.toNat % 16)]) ∨
    ((∀ b ∈ Utf8.encodeChar c, IsRaw b) ∧ escapeChar c = [c]) := by
  by_cases hspecial : c ∈ ['"', '\\', '\x08', '\x0C', '\n', '\r', '\t']
  · refine .inl ?_
    simp only [List.mem_cons, List.not_mem_nil, or_false] at hspecial
    rcases hspecial with rfl | rfl | rfl | rfl | rfl | rfl | rfl <;>
      exact ⟨_, _, rfl, rfl, rfl, by decide⟩
  · simp only [List.mem_cons, List.not_mem_nil, or_false, not_or] at hspecial
    obtain ⟨hquote, hslash, hb, hf, hn, hr, ht⟩ := hspecial
    unfold escapeChar
    rw [if_neg hquote, if_neg hslash, if_neg hb, if_neg hf, if_neg hn, if_neg hr, if_neg ht]
    by_cases hcontrol : c.toNat < 0x20
    · exact .inr (.inl ⟨hcontrol, if_pos hcontrol⟩)
    · refine .inr (.inr ⟨fun b => isRaw_of_mem_encodeChar hquote hslash hcontrol, ?_⟩)
      exact if_neg hcontrol

/-- A character of a string is read back. -/
theorem ReadsString.escapeChar {least : Nat} {bytes content rest : List UInt8}
    (h : ReadsString least bytes content rest) (c : Char) :
    ReadsString (least + (encoded (escapeChar c)).length) (encoded (escapeChar c) ++ bytes)
      (Utf8.encodeChar c ++ content) rest := by
  rcases escapeChar_cases c with ⟨e, b, hform, he, hc, hb⟩ | ⟨hcontrol, hform⟩ | ⟨hraw, hform⟩
  · have hencoded : encoded ['\\', e] = [0x5C, b] := by
      rw [encoded, List.flatMap_cons, List.flatMap_cons, he]
      rfl
    rw [hform, hencoded]
    exact (h.letter hc hb).mono (Nat.le_succ _)
  · rw [hform]
    refine (h.unicode (escapedUnicode?_control hcontrol bytes)).mono ?_
    exact Nat.add_le_add_left (Nat.succ_le_succ (Nat.zero_le _)) least
  · have hencoded : encoded [c] = Utf8.encodeChar c := List.append_nil _
    rw [hform, hencoded]
    exact h.raws hraw

theorem ReadsString.escapeChars (cs : List Char) (rest : List UInt8) :
    ReadsString (1 + (encoded (cs.flatMap Json.escapeChar)).length)
      (encoded (cs.flatMap Json.escapeChar) ++ 0x22 :: rest) (encoded cs) rest := by
  induction cs with
  | nil => exact .quote rest
  | cons c cs ih =>
    have hsplit : encoded ((c :: cs).flatMap Json.escapeChar) =
        encoded (Json.escapeChar c) ++ encoded (cs.flatMap Json.escapeChar) := by
      rw [List.flatMap_cons, encoded, List.flatMap_append]
    rw [hsplit, List.append_assoc]
    refine (ih.escapeChar c).mono ?_
    rw [List.length_append]
    omega

/-- A string is read back from its characters between quotes. -/
theorem string?_writeString (s : String) (rest : List UInt8) :
    ∃ bytes, encoded (writeString s) ++ rest = 0x22 :: bytes ∧ string? bytes = some (s, rest) := by
  refine ⟨encoded (s.toList.flatMap escapeChar) ++ 0x22 :: rest, ?_, ?_⟩
  · have hquote : Utf8.encodeChar '"' = [0x22] := rfl
    simp [writeString, encoded, hquote]
  · have hread := ReadsString.escapeChars s.toList rest
      ((encoded (s.toList.flatMap escapeChar) ++ 0x22 :: rest).length + 1) (by simp; omega)
    have hcontent : Utf8.decode? (encoded s.toList) = some s := Utf8.decode?_encode s
    rw [string?, hread]
    simp only [Option.bind_eq_bind, Option.bind_some, hcontent]

/-! ## Numbers -/

/-- Bytes that do not go on with a number. -/
def Ends (bytes : List UInt8) : Prop :=
  ∀ b ∈ bytes.head?, isDigit b = false ∧ b ≠ 0x2E ∧ b ≠ 0x65 ∧ b ≠ 0x45

theorem ends_nil : Ends [] := by
  intro b hb
  cases hb

theorem ends_cons {b : UInt8} {bytes : List UInt8}
    (h : isDigit b = false ∧ b ≠ 0x2E ∧ b ≠ 0x65 ∧ b ≠ 0x45) : Ends (b :: bytes) := by
  intro b' hb
  cases hb
  exact h

theorem splitDigits_append {ds rest : List UInt8} (hds : ∀ b ∈ ds, isDigit b = true)
    (hrest : Ends rest) : splitDigits (ds ++ rest) = (ds, rest) := by
  have htake : rest.takeWhile isDigit = [] := by
    cases rest with
    | nil => rfl
    | cons b rest => rw [List.takeWhile_cons_of_neg (by simp [(hrest b rfl).1])]
  have hdrop : rest.dropWhile isDigit = rest := by
    cases rest with
    | nil => rfl
    | cons b rest => rw [List.dropWhile_cons_of_neg (by simp [(hrest b rfl).1])]
  rw [splitDigits, List.takeWhile_append_of_pos hds, List.dropWhile_append_of_pos hds, htake, hdrop,
    List.append_nil]

/-- A decimal digit is one byte, with the value of the digit. -/
theorem encodeChar_of_isDigit {c : Char} (h : c.isDigit = true) :
    Utf8.encodeChar c = [c.toNat.toUInt8] ∧ isDigit c.toNat.toUInt8 = true ∧
      c.toNat.toUInt8.toNat = c.toNat := by
  obtain ⟨hlow, hhigh⟩ : 0x30 ≤ c.toNat ∧ c.toNat ≤ 0x39 := by
    simpa [Char.isDigit, UInt32.le_iff_toNat_le] using h
  have hnat : c.toNat.toUInt8.toNat = c.toNat := toNat_toUInt8 (by omega)
  refine ⟨if_pos (by omega), ?_, hnat⟩
  have hbounds : (0x30 : UInt8) ≤ c.toNat.toUInt8 ∧ c.toNat.toUInt8 ≤ 0x39 := by
    rw [UInt8.le_iff_toNat_le, UInt8.le_iff_toNat_le, hnat]
    exact ⟨hlow, hhigh⟩
  exact decide_eq_true hbounds

theorem encoded_digits {cs : List Char} (h : ∀ c ∈ cs, c.isDigit = true) :
    encoded cs = cs.map fun c => c.toNat.toUInt8 := by
  induction cs with
  | nil => rfl
  | cons c cs ih =>
    obtain ⟨hc, hcs⟩ := List.forall_mem_cons.mp h
    rw [encoded, List.flatMap_cons, (encodeChar_of_isDigit hc).1, List.map_cons,
      List.singleton_append]
    exact congrArg _ (ih hcs)

theorem ofDigits_encoded {cs : List Char} (h : ∀ c ∈ cs, c.isDigit = true) :
    ofDigits (encoded cs) = Nat.ofDigitChars 10 cs 0 := by
  rw [encoded_digits h, ofDigits, List.foldl_map, Nat.ofDigitChars_eq_foldl]
  refine List.foldl_ext _ _ _ fun n c hc => ?_
  rw [(encodeChar_of_isDigit (h c hc)).2.2, Nat.mul_comm]
  rfl

theorem wholePart?_toDigits (n : Nat) {rest : List UInt8} (hrest : Ends rest) :
    wholePart? (encoded (Nat.toDigits 10 n) ++ rest) =
      some (encoded (Nat.toDigits 10 n), rest) := by
  have hdigits := encoded_digits (Decimal.isDigit_of_mem_toDigits (n := n))
  have hall : ∀ b ∈ encoded (Nat.toDigits 10 n), isDigit b = true := by
    intro b hb
    rw [hdigits] at hb
    obtain ⟨c, hc, rfl⟩ := List.mem_map.mp hb
    exact (encodeChar_of_isDigit (Decimal.isDigit_of_mem_toDigits c hc)).2.1
  -- the digits end where the number ends; left to see is that no zero leads them
  rw [wholePart?, splitDigits_append hall hrest, hdigits]
  cases hform : Nat.toDigits 10 n with
  | nil => exact absurd hform Nat.toDigits_ne_nil
  | cons c cs =>
    cases cs with
    | nil => rfl
    | cons c' cs =>
      -- with two digits the number is not zero, so that the first one is not
      have hpos : 0 < n := by
        rcases Nat.eq_zero_or_pos n with rfl | hpos
        · cases hform
        · exact hpos
      have hc : c ≠ '0' := by
        rintro rfl
        exact Decimal.head?_toDigits hpos (by rw [hform]; rfl)
      have hdigit := Decimal.isDigit_of_mem_toDigits c (hform ▸ List.mem_cons_self)
      have hbyte : c.toNat.toUInt8 ≠ 0x30 := by
        intro heq
        have hnat := (encodeChar_of_isDigit hdigit).2.2
        rw [heq] at hnat
        exact hc (Char.toNat_inj.mp hnat.symm)
      exact if_neg hbyte

/-- A number below 2 ^ 64 is read back from its digits. -/
theorem number?_toDigits {n : Nat} (h : n < UInt64.size) {rest : List UInt8} (hrest : Ends rest) :
    number? false (encoded (Nat.toDigits 10 n) ++ rest) = some (.integer n, rest) := by
  have hfraction : fraction? rest = some ([], rest) := by
    unfold fraction?
    split
    · exact absurd rfl (hrest 0x2E rfl).2.1
    · rfl
  have hexponent : exponent? rest = some (none, rest) := by
    cases rest with
    | nil => rfl
    | cons b rest => exact if_neg (by simp [(hrest b rfl).2.2])
  have hvalue : ofDigits (encoded (Nat.toDigits 10 n)) = n := by
    rw [ofDigits_encoded Decimal.isDigit_of_mem_toDigits, Nat.ofDigitChars_ten_toDigits]
  simp only [number?, wholePart?_toDigits n hrest, hfraction, hexponent, hvalue,
    Option.bind_eq_bind, Option.bind_some]
  simp [h]

end MarketDag.Json
