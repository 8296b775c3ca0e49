import Mathlib.Tactic.SplitIfs
import MarketDag.Number.Binary64
import MarketDag.Text.Utf8

/-!
# UTF-8: the round trip

A character is read off the front of its bytes without touching those behind it
(`head_encodeChar`), and no other bytes stand for it (`encodeChar_of_head`), so that the bytes that
are read as a text are its own (`decode?_eq_some`).
-/

namespace MarketDag.Utf8

/-! ## One character -/

/-- A character is no surrogate and lies below the end of the code space. -/
theorem toNat_valid (c : Char) : c.toNat < 0xD800 ∨ (0xDFFF < c.toNat ∧ c.toNat < 0x110000) :=
  c.valid

theorem head_eq_tail {n count bits : Nat} {rest : List UInt8} (hn : n < 256)
    (hcount : followers n = some count) (hbits : leadBits n count = bits) :
    head n.toUInt8 rest = tail (secondRange n).1 (secondRange n).2 bits 1 count rest := by
  simp only [head, toNat_toUInt8 hn, hcount, hbits]

theorem tail_cons {low high bits seen left n : Nat} {rest : List UInt8} (hn : n < 64)
    (hrange : low ≤ 0x80 + n ∧ 0x80 + n ≤ high) :
    tail low high bits seen (left + 1) ((0x80 + n).toUInt8 :: rest) =
      tail 0x80 0xBF (bits * 64 + n) (seen + 1) left rest := by
  rw [tail, toNat_toUInt8 (by omega), if_pos hrange, Nat.add_sub_cancel_left]

theorem tail_zero {low high bits seen : Nat} {c : Char} {rest : List UInt8}
    (h : bits = c.toNat) : tail low high bits seen 0 rest = .char c rest := by
  rw [tail, h, Char.ofNat_toNat]

theorem head_oneByte {c : Char} (h : c.toNat < 0x80) (rest : List UInt8) :
    head c.toNat.toUInt8 rest = .char c rest := by
  have hcount : followers c.toNat = some 0 := if_pos h
  rw [head_eq_tail (by omega) hcount rfl]
  exact tail_zero rfl

theorem head_twoBytes {c : Char} (hlow : 0x80 ≤ c.toNat) (hhigh : c.toNat < 0x800)
    (rest : List UInt8) :
    head (0xC0 + c.toNat / 64).toUInt8 ((0x80 + c.toNat % 64).toUInt8 :: rest) =
      .char c rest := by
  have hcount : followers (0xC0 + c.toNat / 64) = some 1 := by unfold followers; grind
  have hrange : secondRange (0xC0 + c.toNat / 64) = (0x80, 0xBF) := by unfold secondRange; grind
  rw [head_eq_tail (by omega) hcount (Nat.add_sub_cancel_left 0xC0 _), hrange,
    tail_cons (by omega) (by omega)]
  exact tail_zero (by omega)

/-- The range of the second byte leaves out the longer forms of shorter characters and the
surrogates, and no other three bytes. -/
theorem head_threeBytes {c : Char} (hlow : 0x800 ≤ c.toNat) (hhigh : c.toNat < 0x10000)
    (rest : List UInt8) :
    head (0xE0 + c.toNat / 4096).toUInt8
      ((0x80 + c.toNat / 64 % 64).toUInt8 :: (0x80 + c.toNat % 64).toUInt8 :: rest) =
        .char c rest := by
  have hvalid := toNat_valid c
  have hcount : followers (0xE0 + c.toNat / 4096) = some 2 := by unfold followers; grind
  have hrange : (secondRange (0xE0 + c.toNat / 4096)).1 ≤ 0x80 + c.toNat / 64 % 64 ∧
      0x80 + c.toNat / 64 % 64 ≤ (secondRange (0xE0 + c.toNat / 4096)).2 := by
    unfold secondRange; grind
  rw [head_eq_tail (by omega) hcount (Nat.add_sub_cancel_left 0xE0 _),
    tail_cons (by omega) hrange, tail_cons (by omega) (by omega)]
  exact tail_zero (by omega)

theorem head_fourBytes {c : Char} (hlow : 0x10000 ≤ c.toNat) (rest : List UInt8) :
    head (0xF0 + c.toNat / 262144).toUInt8
      ((0x80 + c.toNat / 4096 % 64).toUInt8 :: (0x80 + c.toNat / 64 % 64).toUInt8 ::
        (0x80 + c.toNat % 64).toUInt8 :: rest) = .char c rest := by
  have hvalid := toNat_valid c
  have hcount : followers (0xF0 + c.toNat / 262144) = some 3 := by unfold followers; grind
  have hrange : (secondRange (0xF0 + c.toNat / 262144)).1 ≤ 0x80 + c.toNat / 4096 % 64 ∧
      0x80 + c.toNat / 4096 % 64 ≤ (secondRange (0xF0 + c.toNat / 262144)).2 := by
    unfold secondRange; grind
  rw [head_eq_tail (by omega) hcount (Nat.add_sub_cancel_left 0xF0 _),
    tail_cons (by omega) hrange, tail_cons (by omega) (by omega),
    tail_cons (by omega) (by omega)]
  exact tail_zero (by omega)

/-- A character is read off the front of its bytes, whatever follows them. -/
theorem head_encodeChar (c : Char) :
    ∃ b bs, encodeChar c = b :: bs ∧ ∀ rest, head b (bs ++ rest) = .char c rest := by
  by_cases h1 : c.toNat < 0x80
  · exact ⟨_, _, if_pos h1, head_oneByte h1⟩
  by_cases h2 : c.toNat < 0x800
  · exact ⟨_, _, by rw [encodeChar, if_neg h1, if_pos h2], head_twoBytes (by omega) h2⟩
  by_cases h3 : c.toNat < 0x10000
  · exact ⟨_, _, by rw [encodeChar, if_neg h1, if_neg h2, if_pos h3],
      head_threeBytes (by omega) h3⟩
  · exact ⟨_, _, by rw [encodeChar, if_neg h1, if_neg h2, if_neg h3],
      head_fourBytes (Nat.le_of_not_lt h3)⟩

theorem length_encodeChar_le (c : Char) : (encodeChar c).length ≤ 4 := by
  unfold encodeChar
  dsimp only
  split_ifs <;> simp

/-! ## Bytes of one character -/

theorem toNat_ofNat {n : Nat} (h : n < 0xD800 ∨ (0xDFFF < n ∧ n < 0x110000)) :
    (Char.ofNat n).toNat = n := by
  rw [Char.ofNat, dif_pos h]
  rfl

theorem toUInt8_eq {n : Nat} {b : UInt8} (h : n = b.toNat) : n.toUInt8 = b := by
  rw [h]
  exact UInt8.ofNat_toNat

theorem tail_succ_eq_char {low high bits seen left : Nat} {bs rest : List UInt8} {c : Char}
    (h : tail low high bits seen (left + 1) bs = .char c rest) :
    ∃ b bs', bs = b :: bs' ∧ (low ≤ b.toNat ∧ b.toNat ≤ high) ∧
      tail 0x80 0xBF (bits * 64 + (b.toNat - 0x80)) (seen + 1) left bs' = .char c rest := by
  cases bs with
  | nil => cases h
  | cons b bs =>
    rw [tail] at h
    split at h
    · exact ⟨b, bs, rfl, ‹_›, h⟩
    · cases h

theorem tail_zero_eq_char {low high bits seen : Nat} {bs rest : List UInt8} {c : Char}
    (h : tail low high bits seen 0 bs = .char c rest) : Char.ofNat bits = c ∧ bs = rest := by
  rw [tail] at h
  exact Head.char.inj h

/-- A lead byte with the first byte behind it starts no shorter character and no surrogate. -/
theorem secondRange_bounds {lead second : Nat}
    (h : (secondRange lead).1 ≤ second ∧ second ≤ (secondRange lead).2) :
    0x80 ≤ second ∧ second ≤ 0xBF ∧ (lead = 0xE0 → 0xA0 ≤ second) ∧
      (lead = 0xED → second ≤ 0x9F) ∧ (lead = 0xF0 → 0x90 ≤ second) ∧
      (lead = 0xF4 → second ≤ 0x8F) := by
  unfold secondRange at h
  split_ifs at h <;> dsimp only at h <;> omega

theorem followers_cases {lead count : Nat} (h : followers lead = some count) :
    (lead < 0x80 ∧ count = 0) ∨ (0xC2 ≤ lead ∧ lead < 0xE0 ∧ count = 1) ∨
      (0xE0 ≤ lead ∧ lead < 0xF0 ∧ count = 2) ∨ (0xF0 ≤ lead ∧ lead < 0xF5 ∧ count = 3) := by
  unfold followers at h
  split_ifs at h <;> cases h <;> omega

/-- A character that is read stands there with its bytes. -/
theorem encodeChar_of_head {b : UInt8} {bs rest : List UInt8} {c : Char}
    (h : head b bs = .char c rest) : encodeChar c ++ rest = b :: bs := by
  unfold head at h
  split at h
  · cases h
  rename_i count hcount
  dsimp only at h
  -- by the number of bytes behind the lead byte; the bounds of the second byte leave out what has a
  -- shorter form, the surrogates, and what lies beyond the last character
  rcases followers_cases hcount with ⟨hlead, rfl⟩ | ⟨hlow, hhigh, rfl⟩ | ⟨hlow, hhigh, rfl⟩ |
    ⟨hlow, hhigh, rfl⟩
  · obtain ⟨rfl, rfl⟩ := tail_zero_eq_char h
    have hbits : leadBits b.toNat 0 = b.toNat := rfl
    have hc := toNat_ofNat (n := b.toNat) (by omega)
    rw [hbits, encodeChar, hc, if_pos hlead, toUInt8_eq (b := b) rfl]
    rfl
  · obtain ⟨b₁, bs, rfl, hrange, h⟩ := tail_succ_eq_char h
    obtain ⟨rfl, rfl⟩ := tail_zero_eq_char h
    have hsecond := secondRange_bounds hrange
    have hbits : leadBits b.toNat 1 = b.toNat - 0xC0 := rfl
    have hc := toNat_ofNat (n := (b.toNat - 0xC0) * 64 + (b₁.toNat - 0x80)) (by omega)
    rw [hbits, encodeChar, hc, if_neg (by omega), if_pos (by omega),
      toUInt8_eq (b := b) (by omega), toUInt8_eq (b := b₁) (by omega)]
    rfl
  · obtain ⟨b₁, bs, rfl, hrange, h⟩ := tail_succ_eq_char h
    obtain ⟨b₂, bs, rfl, hrange₂, h⟩ := tail_succ_eq_char h
    obtain ⟨rfl, rfl⟩ := tail_zero_eq_char h
    have hsecond := secondRange_bounds hrange
    have hbits : leadBits b.toNat 2 = b.toNat - 0xE0 := rfl
    have hc := toNat_ofNat (n := ((b.toNat - 0xE0) * 64 + (b₁.toNat - 0x80)) * 64 +
      (b₂.toNat - 0x80)) (by omega)
    rw [hbits, encodeChar, hc, if_neg (by omega), if_neg (by omega), if_pos (by omega),
      toUInt8_eq (b := b) (by omega), toUInt8_eq (b := b₁) (by omega),
      toUInt8_eq (b := b₂) (by omega)]
    rfl
  · obtain ⟨b₁, bs, rfl, hrange, h⟩ := tail_succ_eq_char h
    obtain ⟨b₂, bs, rfl, hrange₂, h⟩ := tail_succ_eq_char h
    obtain ⟨b₃, bs, rfl, hrange₃, h⟩ := tail_succ_eq_char h
    obtain ⟨rfl, rfl⟩ := tail_zero_eq_char h
    have hsecond := secondRange_bounds hrange
    have hbits : leadBits b.toNat 3 = b.toNat - 0xF0 := rfl
    have hc := toNat_ofNat (n := (((b.toNat - 0xF0) * 64 + (b₁.toNat - 0x80)) * 64 +
      (b₂.toNat - 0x80)) * 64 + (b₃.toNat - 0x80)) (by omega)
    rw [hbits, encodeChar, hc, if_neg (by omega), if_neg (by omega), if_neg (by omega),
      toUInt8_eq (b := b) (by omega), toUInt8_eq (b := b₁) (by omega),
      toUInt8_eq (b := b₂) (by omega), toUInt8_eq (b := b₃) (by omega)]
    rfl

/-! ## Texts -/

theorem decodeChars?_encodeChar_append (c : Char) (rest : List UInt8) :
    decodeChars? (encodeChar c ++ rest) = (c :: ·) <$> decodeChars? rest := by
  obtain ⟨b, bs, hbytes, hhead⟩ := head_encodeChar c
  rw [hbytes, List.cons_append, decodeChars?]
  split
  · rename_i d rest' h
    rw [hhead rest] at h
    cases h
    rfl
  · rename_i h
    rw [hhead rest] at h
    cases h
  · rename_i h
    rw [hhead rest] at h
    cases h

theorem decodeChars?_flatMap (cs : List Char) : decodeChars? (cs.flatMap encodeChar) = some cs := by
  induction cs with
  | nil => simp [decodeChars?]
  | cons c cs ih => rw [List.flatMap_cons, decodeChars?_encodeChar_append, ih]; rfl

/-- A text is read back from its bytes. -/
@[simp] theorem decode?_encode (s : String) : decode? (encode s) = some s := by
  rw [decode?, encode, decodeChars?_flatMap]
  exact congrArg some (String.ofList_toList (s := s))

/-- The characters that are read stand there with their bytes. -/
theorem flatMap_of_decodeChars? {bytes : List UInt8} {cs : List Char}
    (h : decodeChars? bytes = some cs) : cs.flatMap encodeChar = bytes := by
  induction hsize : bytes.length using Nat.strongRecOn generalizing bytes cs with
  | ind n ih =>
    cases bytes with
    | nil =>
      rw [decodeChars?] at h
      cases h
      rfl
    | cons b bytes =>
      rw [decodeChars?] at h
      split at h
      · rename_i c rest hhead
        obtain ⟨cs, hcs, rfl⟩ := Option.map_eq_some_iff.mp h
        have hrest := head_rest_le b bytes
        rw [hhead, Head.rest] at hrest
        rw [List.length_cons] at hsize
        rw [List.flatMap_cons, ih rest.length (by omega) hcs rfl, encodeChar_of_head hhead]
      · cases h
      · cases h

/-- The bytes of a text, and no others, are read as this text. -/
theorem decode?_eq_some {bytes : List UInt8} {s : String} :
    decode? bytes = some s ↔ encode s = bytes := by
  constructor
  · intro h
    obtain ⟨cs, hcs, rfl⟩ := Option.map_eq_some_iff.mp h
    rw [encode, String.toList_ofList]
    exact flatMap_of_decodeChars? hcs
  · rintro rfl
    exact decode?_encode s

/-- Every character takes at least one byte. -/
theorem length_le_of_decode? {bytes : List UInt8} {s : String} (h : decode? bytes = some s) :
    s.toList.length ≤ bytes.length := by
  rw [← decode?_eq_some.mp h, encode]
  induction s.toList with
  | nil => exact Nat.le_refl _
  | cons c cs ih =>
    obtain ⟨b, bs, hbytes, -⟩ := head_encodeChar c
    rw [List.flatMap_cons, hbytes, List.length_append, List.length_cons, List.length_cons]
    omega

end MarketDag.Utf8
