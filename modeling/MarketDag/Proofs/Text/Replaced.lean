import Mathlib.Tactic.ByContra
import MarketDag.Proofs.Text.Utf16

/-!
# Texts with replacement characters

Reading with replacement characters gives a text for any bytes: the characters that stand there, and
one replacement character for each longest part that begins a character without ending it, or for a
byte that begins none (`Utf8.Replaces`).  There is one such text for given bytes, and it is the one
that is read (`Utf8.replaces_iff`), in whatever form a mark tells (`isTextOf_iff`).
-/

namespace MarketDag

namespace Utf8

/-! ## Parts that are no character -/

/-- Do bytes stand at the front of the bytes of a character? -/
def Begins (part : List UInt8) : Prop := ∃ c, part <+: encodeChar c

/-- Is a part of bytes no character, and as long as it can be before `rest`? -/
structure Malformed (part rest : List UInt8) : Prop where
  ne_nil : part ≠ []
  /-- A byte that begins no character stands alone. -/
  begins : Begins part ∨ part.length = 1
  no_char : ∀ c, ¬ encodeChar c <+: part ++ rest
  /-- The byte behind the part does not go on with the character. -/
  longest : ∀ b bs, rest = b :: bs → ¬ Begins (part ++ [b])

/-- Is a text that of some bytes, with replacement characters for what is no character? -/
inductive Replaces : List UInt8 → List Char → Prop where
  | nil : Replaces [] []
  | char (c : Char) {rest : List UInt8} {cs : List Char} (h : Replaces rest cs) :
    Replaces (encodeChar c ++ rest) (c :: cs)
  | malformed {part rest : List UInt8} {cs : List Char} (hpart : Malformed part rest)
    (h : Replaces rest cs) : Replaces (part ++ rest) (replacement :: cs)

theorem Begins.mono {part part' : List UInt8} (h : Begins part') (hfront : part <+: part') :
    Begins part :=
  h.imp fun _ => hfront.trans

/-- A malformed part is as long as any other one at the front of the same bytes. -/
theorem Malformed.length_le {part rest part' rest' : List UInt8} (h : Malformed part rest)
    (h' : Malformed part' rest') (heq : part ++ rest = part' ++ rest') :
    part'.length ≤ part.length := by
  by_contra hlt
  -- a longer part begins a character, so that the shorter one goes on with its next byte
  obtain ⟨more, rfl⟩ : ∃ more, part' = part ++ more :=
    (List.prefix_of_prefix_length_le (List.prefix_append part rest)
      (heq ▸ List.prefix_append part' rest') (by omega)).imp fun _ => Eq.symm
  have hpos := List.length_pos_iff.mpr h.ne_nil
  rw [List.length_append] at hlt
  have hbegins : Begins (part ++ more) := by
    refine h'.begins.resolve_right fun hone => ?_
    rw [List.length_append] at hone
    omega
  cases more with
  | nil => simp at hlt
  | cons b more =>
    rw [List.append_assoc, List.append_cancel_left_eq] at heq
    refine h.longest b (more ++ rest') heq (hbegins.mono ?_)
    rw [List.append_cons part b more]
    exact List.prefix_append _ _

theorem Malformed.unique {part rest part' rest' : List UInt8} (h : Malformed part rest)
    (h' : Malformed part' rest') (heq : part ++ rest = part' ++ rest') :
    part = part' ∧ rest = rest' :=
  List.append_inj heq (Nat.le_antisymm (h'.length_le h heq.symm) (h.length_le h' heq))

/-! ## The front of bytes -/

theorem head_eq_char_iff {b : UInt8} {bs rest : List UInt8} {c : Char} :
    head b bs = .char c rest ↔ encodeChar c ++ rest = b :: bs := by
  refine ⟨encodeChar_of_head, fun h => ?_⟩
  obtain ⟨b', bs', hbytes, hhead⟩ := head_encodeChar c
  rw [hbytes, List.cons_append] at h
  cases h
  exact hhead rest

/-- Bytes begin a character if it is read when more follow them. -/
theorem begins_of_head {b : UInt8} {bs more : List UInt8} {c : Char}
    (h : head b (bs ++ more) = .char c []) : Begins (b :: bs) := by
  refine ⟨c, more, ?_⟩
  rw [List.cons_append, ← head_eq_char_iff.mp h, List.append_nil]

theorem not_begins_of_head {b : UInt8} {bs : List UInt8}
    (h : ∀ more c, head b (bs ++ more) ≠ .char c []) : ¬ Begins (b :: bs) := by
  rintro ⟨c, more, hc⟩
  refine h more c (head_eq_char_iff.mpr ?_)
  rw [List.append_nil, ← hc]
  rfl

theorem no_char_of_head {b : UInt8} {bs : List UInt8} (h : ∀ c rest, head b bs ≠ .char c rest)
    (c : Char) : ¬ encodeChar c <+: b :: bs :=
  fun ⟨rest, hrest⟩ => h c rest (head_eq_char_iff.mpr hrest)

/-- Whatever was read of a character, it can be ended. -/
theorem exists_tail_eq_char {low high : Nat} (hlow : low < 256) (hrange : low ≤ high)
    (bits seen left : Nat) : ∃ more c, tail low high bits seen left more = .char c [] := by
  induction left generalizing low high bits seen with
  | zero => exact ⟨[], _, rfl⟩
  | succ left ih =>
    have hcontinued : 0x80 ≤ 0xBF := by decide
    obtain ⟨more, c, hc⟩ :=
      ih (by decide) hcontinued (bits * 64 + (low - 0x80)) (seen + 1)
    refine ⟨low.toUInt8 :: more, c, ?_⟩
    rw [tail, toNat_toUInt8 hlow, if_pos ⟨Nat.le_refl low, hrange⟩, hc]

/-- The bytes behind a lead byte that end inside a character can be followed by its end. -/
theorem tail_eq_incomplete {low high : Nat} (hlow : low < 256) (hrange : low ≤ high)
    {bits seen left : Nat} {bs : List UInt8} (h : tail low high bits seen left bs = .incomplete) :
    ∃ more c, tail low high bits seen left (bs ++ more) = .char c [] := by
  induction left generalizing low high bits seen bs with
  | zero => cases h
  | succ left ih =>
    cases bs with
    | nil => exact exists_tail_eq_char hlow hrange bits seen (left + 1)
    | cons b bs =>
      rw [tail] at h
      split at h
      · rename_i hb
        obtain ⟨more, c, hc⟩ := ih (by omega) (by omega) h
        refine ⟨more, c, ?_⟩
        rw [List.cons_append, tail, if_pos hb, hc]
      · cases h

/-- The bytes behind a lead byte up to a fault can be followed by the end of a character; with the
byte at the fault they cannot. -/
theorem tail_eq_malformed {low high : Nat} (hlow : low < 256) (hrange : low ≤ high)
    {bits seen left size : Nat} {bs rest : List UInt8}
    (h : tail low high bits seen left bs = .malformed size rest) :
    ∃ done b bs', bs = done ++ b :: bs' ∧ rest = b :: bs' ∧
      (∃ more c, tail low high bits seen left (done ++ more) = .char c []) ∧
      ∀ more c rest', tail low high bits seen left (done ++ b :: more) ≠ .char c rest' := by
  induction left generalizing low high bits seen bs with
  | zero => cases h
  | succ left ih =>
    cases bs with
    | nil => cases h
    | cons b bs =>
      rw [tail] at h
      split at h
      · rename_i hb
        obtain ⟨done, b', bs', rfl, hrest, ⟨more, c, hc⟩, hstop⟩ := ih (by omega) (by omega) h
        refine ⟨b :: done, b', bs', rfl, hrest, ⟨more, c, ?_⟩, fun more c rest' => ?_⟩
        · rw [List.cons_append, tail, if_pos hb, hc]
        · rw [List.cons_append, tail, if_pos hb]
          exact hstop more c rest'
      · rename_i hb
        cases h
        -- the byte is out of the range that is asked for here, so the character is not gone on with
        refine ⟨[], b, bs, rfl, rfl, exists_tail_eq_char hlow hrange bits _ (left + 1),
          fun more c rest' => ?_⟩
        rw [List.nil_append, tail, if_neg hb]
        exact Head.noConfusion

theorem secondRange_le (lead : Nat) :
    (secondRange lead).1 < 256 ∧ (secondRange lead).1 ≤ (secondRange lead).2 := by
  unfold secondRange
  split_ifs <;> decide

/-- Where the front is malformed, it is a part of bytes with the rest behind it. -/
theorem malformed_of_head {lead : UInt8} {bs rest : List UInt8} {size : Nat}
    (h : head lead bs = .malformed size rest) :
    ∃ part, lead :: bs = part ++ rest ∧ Malformed part rest := by
  have hno : ∀ c, ¬ encodeChar c <+: lead :: bs := no_char_of_head (by simp [h])
  cases hcount : followers lead.toNat with
  | none =>
    -- a byte that leads no character is malformed whatever follows
    have hhead (more : List UInt8) : head lead more = .malformed 1 more := by
      rw [head, hcount]
    rw [hhead] at h
    cases h
    refine ⟨[lead], rfl, List.cons_ne_nil _ _, .inr rfl, hno, fun b bs _ => ?_⟩
    refine not_begins_of_head fun more c hc => ?_
    rw [hhead] at hc
    cases hc
  | some count =>
    have hhead (more : List UInt8) : head lead more =
        tail (secondRange lead.toNat).1 (secondRange lead.toNat).2 (leadBits lead.toNat count) 1
          count more := by
      rw [head, hcount]
    obtain ⟨hlow, hrange⟩ := secondRange_le lead.toNat
    rw [hhead] at h
    obtain ⟨done, b, bs', rfl, rfl, ⟨more, c, hc⟩, hstop⟩ := tail_eq_malformed hlow hrange h
    rw [← hhead] at hc
    refine ⟨lead :: done, rfl, List.cons_ne_nil _ _, .inl (begins_of_head hc), hno, ?_⟩
    rintro _ _ ⟨⟩
    rw [List.cons_append]
    refine not_begins_of_head fun more c => ?_
    rw [hhead, List.append_assoc]
    exact hstop more c []

/-- Where the bytes end inside a character, all of them are malformed. -/
theorem malformed_of_incomplete {lead : UInt8} {bs : List UInt8} (h : head lead bs = .incomplete) :
    Malformed (lead :: bs) [] := by
  have hno : ∀ c, ¬ encodeChar c <+: lead :: bs := no_char_of_head (by simp [h])
  refine ⟨List.cons_ne_nil _ _, .inl ?_, by rwa [List.append_nil], fun b bs hnil => nomatch hnil⟩
  cases hcount : followers lead.toNat with
  | none =>
    rw [head, hcount] at h
    cases h
  | some count =>
    obtain ⟨hlow, hrange⟩ := secondRange_le lead.toNat
    rw [head, hcount] at h
    obtain ⟨more, c, hc⟩ := tail_eq_incomplete hlow hrange h
    have hhead : head lead (bs ++ more) = .char c [] := by
      rw [head, hcount]
      exact hc
    exact begins_of_head hhead

/-! ## Texts -/

/-- Reading with replacement characters replaces what is malformed. -/
theorem replaces_decodeCharsLossy (bytes : List UInt8) :
    Replaces bytes (decodeCharsLossy bytes) := by
  -- each step takes a byte or more
  induction hsize : bytes.length using Nat.strongRecOn generalizing bytes with
  | ind n ih =>
    cases bytes with
    | nil =>
      rw [decodeCharsLossy]
      exact .nil
    | cons b bs =>
      have hrest := head_rest_le b bs
      rw [List.length_cons] at hsize
      rw [decodeCharsLossy]
      split <;> rename_i hhead <;> rw [hhead, Head.rest] at hrest
      · rw [← encodeChar_of_head hhead]
        exact .char _ (ih _ (by omega) _ rfl)
      · obtain ⟨part, hpart, hmalformed⟩ := malformed_of_head hhead
        rw [hpart]
        exact .malformed hmalformed (ih _ (by omega) _ rfl)
      · rw [← List.append_nil (b :: bs)]
        exact .malformed (malformed_of_incomplete hhead) .nil

theorem decodeCharsLossy_encodeChar_append (c : Char) (rest : List UInt8) :
    decodeCharsLossy (encodeChar c ++ rest) = c :: decodeCharsLossy rest := by
  obtain ⟨b, bs, hbytes, hhead⟩ := head_encodeChar c
  rw [hbytes, List.cons_append, decodeCharsLossy]
  split <;> rename_i h <;> rw [hhead rest] at h <;> cases h
  rfl

theorem Malformed.decodeCharsLossy_append {part rest : List UInt8} (h : Malformed part rest) :
    decodeCharsLossy (part ++ rest) = replacement :: decodeCharsLossy rest := by
  obtain ⟨b, bs, rfl⟩ := List.exists_cons_of_ne_nil h.ne_nil
  rw [List.cons_append, decodeCharsLossy]
  split <;> rename_i hhead
  · exact absurd ⟨_, encodeChar_of_head hhead⟩ (h.no_char _)
  · obtain ⟨part', heq, h'⟩ := malformed_of_head hhead
    rw [(h.unique h' heq).2]
  · obtain ⟨-, rfl⟩ := h.unique (malformed_of_incomplete hhead) (List.append_nil _).symm
    rw [decodeCharsLossy]

/-- The text with replacement characters is the one that is read. -/
theorem replaces_iff {bytes : List UInt8} {cs : List Char} :
    Replaces bytes cs ↔ decodeCharsLossy bytes = cs := by
  constructor
  · intro h
    induction h with
    | nil => rw [decodeCharsLossy]
    | char c h ih => rw [decodeCharsLossy_encodeChar_append, ih]
    | malformed hpart h ih => rw [hpart.decodeCharsLossy_append, ih]
  · rintro rfl
    exact replaces_decodeCharsLossy bytes

end Utf8

/-! ## Marks -/

theorem textOfMarked_of_mark (form : TextForm) (rest : List UInt8) :
    textOfMarked (form.mark ++ rest) = String.ofList (form.decodeCharsLossy rest) := by
  rcases form with _ | _ | _ <;> rfl

theorem textOfMarked_of_unmarked {bytes : List UInt8}
    (h : ∀ form : TextForm, ¬ form.mark <+: bytes) :
    textOfMarked bytes = String.ofList (Utf8.decodeCharsLossy bytes) := by
  have hnone : TextForm.all.find? (fun form => form.mark.isPrefixOf bytes) = none := by
    refine List.find?_eq_none.mpr fun form _ hfront => ?_
    exact h form <| List.isPrefixOf_iff_prefix.mp hfront
  rw [textOfMarked, TextForm.ofMarked, hnone]
  rfl

/-- Is a text that of some bytes, with replacement characters?  They are UTF-8 if no mark at their
front tells otherwise. -/
inductive IsTextOf : List UInt8 → String → Prop where
  | unmarked {bytes : List UInt8} {cs : List Char} (h : ∀ form : TextForm, ¬ form.mark <+: bytes)
    (hcs : Utf8.Replaces bytes cs) : IsTextOf bytes (String.ofList cs)
  | utf8 {rest : List UInt8} {cs : List Char} (hcs : Utf8.Replaces rest cs) :
    IsTextOf (TextForm.utf8.mark ++ rest) (String.ofList cs)
  | utf16 {bigEndian odd : Bool} {rest : List UInt8} {us : List Nat} {cs : List Char}
    (hus : Utf16.HoldsUnits bigEndian rest us odd) (hcs : Utf16.Replaces us odd cs) :
    IsTextOf ((TextForm.utf16 bigEndian).mark ++ rest) (String.ofList cs)

/-- The text of bytes is the one that is read. -/
theorem isTextOf_iff {bytes : List UInt8} {text : String} :
    IsTextOf bytes text ↔ textOfMarked bytes = text := by
  constructor
  · intro h
    cases h with
    | unmarked h hcs => rw [textOfMarked_of_unmarked h, Utf8.replaces_iff.mp hcs]
    | utf8 hcs =>
      rw [textOfMarked_of_mark, TextForm.decodeCharsLossy, Utf8.replaces_iff.mp hcs]
    | utf16 hus hcs =>
      rw [textOfMarked_of_mark, TextForm.decodeCharsLossy, Utf16.decodeCharsLossy,
        Utf16.holdsUnits_iff.mp hus]
      exact congrArg String.ofList ((Utf16.replaces_iff hus.lt).mp hcs)
  · rintro rfl
    by_cases h : ∃ form : TextForm, form.mark <+: bytes
    · obtain ⟨form, rest, rfl⟩ := h
      rw [textOfMarked_of_mark]
      cases form with
      | utf8 => exact .utf8 (Utf8.replaces_decodeCharsLossy rest)
      | utf16 bigEndian =>
        have hus := Utf16.holdsUnits_units bigEndian rest
        exact .utf16 hus (Utf16.replaces_decodeUnitsLossy hus.lt _)
    · rw [not_exists] at h
      rw [textOfMarked_of_unmarked h]
      exact .unmarked h (Utf8.replaces_decodeCharsLossy bytes)

/-- A first half at the end of a text with a mark is replaced, and the mark is no part of the
text. -/
example : textOfMarked [0xFE, 0xFF, 0x00, 0x41, 0xD8, 0x3D] = "A\uFFFD" := by decide +kernel

end MarketDag
