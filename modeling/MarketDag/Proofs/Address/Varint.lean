import Mathlib.Algebra.Group.Nat.Defs
import MarketDag.Address.Multihash
import MarketDag.Number.Binary64

/-!
# Varints: the round trip

What is read from the bytes of a number is the number itself as long as it has at most sixty-four
bits (`decode_encode`); a longer one loses its high bits, or is refused once it takes more than ten
bytes (`decode_encode_append`).  Where a number is cut off, that is noticed (`decode_of_cut`), and
bytes behind a number do not matter (`decode_append`).  No number is read from fewer bytes than it
is written with (`length_encode_le_of_decode`).
-/

namespace MarketDag.Varint

/-! ## One byte -/

/-- A byte's seven bits are put above the bits that are there already. -/
theorem toNat_or_shiftLeft {value : UInt64} {seen : Nat} (b : UInt8) (hseen : seen ≤ 9)
    (hvalue : value.toNat < 2 ^ (7 * seen)) :
    (value ||| ((b &&& 0x7F).toUInt64 <<< (7 * seen).toUInt64)).toNat =
      (value.toNat + b.toNat % 128 * 2 ^ (7 * seen)) % 2 ^ 64 := by
  have hmask : (b &&& 0x7F).toNat = b.toNat % 128 := Nat.and_two_pow_sub_one_eq_mod b.toNat 7
  have hshift : (7 * seen).toUInt64.toNat % 64 = 7 * seen := by
    rw [Nat.toUInt64, UInt64.toNat_ofNat']
    omega
  have hsplit : 2 ^ 64 = 2 ^ (7 * seen) * 2 ^ (64 - 7 * seen) := by
    rw [← Nat.pow_add]
    congr 1
    omega
  have hmod : b.toNat % 128 * 2 ^ (7 * seen) % 2 ^ 64 =
      2 ^ (7 * seen) * (b.toNat % 128 % 2 ^ (64 - 7 * seen)) := by
    rw [Nat.mul_comm, hsplit, Nat.mul_mod_mul_left]
  have hlt : 2 ^ (7 * seen) * (b.toNat % 128 % 2 ^ (64 - 7 * seen)) + value.toNat < 2 ^ 64 := by
    have h := Nat.mod_lt (b.toNat % 128) (Nat.two_pow_pos (64 - 7 * seen))
    have := Nat.mul_le_mul_left (2 ^ (7 * seen)) (Nat.succ_le_of_lt h)
    rw [← hsplit, Nat.mul_succ] at this
    omega
  -- the bits do not overlap, so that putting them together is adding
  rw [UInt64.toNat_or, UInt64.toNat_shiftLeft, UInt8.toNat_toUInt64, hmask, hshift,
    Nat.shiftLeft_eq, hmod, Nat.or_comm, ← Nat.two_pow_add_eq_or_of_lt hvalue, Nat.add_mod, hmod,
    Nat.mod_eq_of_lt value.toNat_lt, Nat.add_comm value.toNat, Nat.mod_eq_of_lt hlt]

theorem decodeFrom_cons {value value' : UInt64} {seen left : Nat} {b : UInt8} {rest : List UInt8}
    (h : value ||| ((b &&& 0x7F).toUInt64 <<< (7 * seen).toUInt64) = value') :
    decodeFrom value seen (left + 1) (b :: rest) =
      if b < 0x80 then
        if b = 0 ∧ 0 < seen then .error .notMinimal else .ok (value', rest)
      else decodeFrom value' (seen + 1) left rest := by
  rw [decodeFrom]
  simp only [h]

/-! ## Reading what was written -/

theorem encode_ne_nil (n : Nat) : encode n ≠ [] := by
  rw [encode]
  split <;> simp

theorem toUInt8_lt {n : Nat} (h : n < 128) : n.toUInt8 < 0x80 := by
  rw [UInt8.lt_iff_toNat_lt, toNat_toUInt8 (by omega)]
  exact h

theorem not_toUInt8_lt (n : Nat) : ¬ (n % 128 + 128).toUInt8 < 0x80 := by
  rw [UInt8.lt_iff_toNat_lt, toNat_toUInt8 (by omega)]
  simp

/-- Reading goes on from the bits of earlier bytes. A number of which nothing is left stands only
at the start, since a last byte of zero is refused behind others. -/
theorem decodeFrom_encode {left seen n : Nat} {value : UInt64} (hsum : seen + left = maxSize)
    (hvalue : value.toNat < 2 ^ (7 * seen)) (hn : n < 2 ^ (7 * left)) (hpos : 0 < n ∨ seen = 0)
    (rest : List UInt8) :
    decodeFrom value seen left (encode n ++ rest) =
      .ok ((value.toNat + n * 2 ^ (7 * seen)).toUInt64, rest) := by
  induction left generalizing seen n value with
  | zero =>
    simp only [maxSize] at hsum
    simp at hn
    omega
  | succ left ih =>
    simp only [maxSize] at hsum ih
    rw [encode]
    split
    · -- the last byte, which is no zero unless it is the first one
      rename_i hsmall
      have hbyte : n.toUInt8.toNat = n := toNat_toUInt8 (by omega)
      have hstep : value ||| ((n.toUInt8 &&& 0x7F).toUInt64 <<< (7 * seen).toUInt64) =
          (value.toNat + n * 2 ^ (7 * seen)).toUInt64 := by
        apply UInt64.toNat_inj.mp
        rw [toNat_or_shiftLeft _ (by omega) hvalue, hbyte, Nat.mod_eq_of_lt hsmall]
        simp
      have hfirst : ¬ (n.toUInt8 = 0 ∧ 0 < seen) := by
        rintro ⟨h, h'⟩
        rw [h] at hbyte
        simp at hbyte
        omega
      rw [List.singleton_append, decodeFrom_cons hstep, if_pos (toUInt8_lt hsmall), if_neg hfirst]
    · -- seven bits go to the value, the others are written behind
      rename_i hlarge
      have hbyte : (n % 128 + 128).toUInt8.toNat = n % 128 + 128 := toNat_toUInt8 (by omega)
      have hpow : 2 ^ (7 * (seen + 1)) = 128 * 2 ^ (7 * seen) := by
        rw [Nat.mul_succ, Nat.pow_add, Nat.mul_comm]
      have hnext : n / 128 < 2 ^ (7 * left) := by
        rw [Nat.mul_succ, Nat.pow_add] at hn
        exact Nat.div_lt_of_lt_mul (by omega)
      have htotal : value.toNat + n % 128 * 2 ^ (7 * seen) < 2 ^ (7 * (seen + 1)) := by
        have := Nat.mul_le_mul_right (2 ^ (7 * seen)) (show n % 128 ≤ 127 by omega)
        omega
      rw [List.cons_append, decodeFrom_cons rfl, if_neg (not_toUInt8_lt n)]
      have hstep := toNat_or_shiftLeft (n % 128 + 128).toUInt8 (show seen ≤ 9 by omega) hvalue
      rw [hbyte, Nat.add_mod_right, Nat.mod_mod] at hstep
      generalize value ||| ((n % 128 + 128).toUInt8 &&& 0x7F).toUInt64 <<<
        (7 * seen).toUInt64 = value' at hstep
      have hvalue' : value'.toNat < 2 ^ (7 * (seen + 1)) :=
        Nat.lt_of_le_of_lt (hstep ▸ Nat.mod_le _ _) htotal
      rw [ih (by omega) hvalue' hnext (.inl (by omega))]
      congr 2
      apply UInt64.toNat_inj.mp
      have hn128 : n * 2 ^ (7 * seen) =
          n % 128 * 2 ^ (7 * seen) + n / 128 * 2 ^ (7 * (seen + 1)) := by
        rw [hpow, ← Nat.mul_assoc, Nat.mul_comm (n / 128), ← Nat.add_mul, Nat.mod_add_div]
      rw [hstep, hn128, ← Nat.add_assoc]
      simp

theorem decodeFrom_encode_overlong {left seen n : Nat} {value : UInt64}
    (hn : 2 ^ (7 * left) ≤ n) (rest : List UInt8) :
    decodeFrom value seen left (encode n ++ rest) = .error .overlong := by
  induction left generalizing seen n value with
  | zero => rw [decodeFrom]
  | succ left ih =>
    have hpow : 2 ^ (7 * (left + 1)) = 128 * 2 ^ (7 * left) := by
      rw [Nat.mul_succ, Nat.pow_add, Nat.mul_comm]
    have hlarge : ¬ n < 128 := by
      have := Nat.two_pow_pos (7 * left)
      omega
    rw [encode, if_neg hlarge, List.cons_append, decodeFrom_cons rfl, if_neg (not_toUInt8_lt n)]
    exact ih ((Nat.le_div_iff_mul_le (by decide)).mpr (by omega))

/-- What is read from the bytes of a number in front of others. -/
theorem decode_encode_append (n : Nat) (rest : List UInt8) :
    decode (encode n ++ rest) =
      if n < 2 ^ 70 then .ok (n.toUInt64, rest) else .error .overlong := by
  split
  · rename_i h
    rw [decode, decodeFrom_encode rfl (by decide) h (.inr rfl)]
    simp
  · rename_i h
    exact decodeFrom_encode_overlong (by simpa [maxSize] using h) rest

/-- A number of sixty-four bits is read back. -/
theorem decode_encode (n : UInt64) (rest : List UInt8) :
    decode (encode n.toNat ++ rest) = .ok (n, rest) := by
  have hn := n.toNat_lt
  rw [decode_encode_append, if_pos (by omega)]
  simp

theorem length_encode_le {k n : Nat} (h : n < 128 ^ (k + 1)) : (encode n).length ≤ k + 1 := by
  induction k generalizing n with
  | zero =>
    rw [encode, if_pos (by simpa using h)]
    simp
  | succ k ih =>
    rw [encode]
    split
    · simp
    · have hrest := ih (Nat.div_lt_of_lt_mul (by rwa [← Nat.pow_succ']))
      rw [List.length_cons]
      omega

/-- A number of sixty-four bits takes at most ten bytes. -/
theorem length_encode_toNat_le (n : UInt64) : (encode n.toNat).length ≤ maxSize :=
  length_encode_le (Nat.lt_of_lt_of_le n.toNat_lt (by decide))

/-! ## Numbers that are cut off -/

/-- All bytes of a number but the last ask for one more. -/
theorem decodeFrom_of_cut {left seen n : Nat} {value : UInt64} {part more : List UInt8}
    (hpart : part ++ more = encode n) (hmore : more ≠ []) (hleft : part.length < left) :
    decodeFrom value seen left part = .error .ended := by
  induction part generalizing left seen n value with
  | nil =>
    obtain ⟨k, rfl⟩ := Nat.exists_eq_add_of_le' hleft
    rfl
  | cons b part ih =>
    obtain ⟨k, rfl⟩ := Nat.exists_eq_add_of_le' (Nat.succ_le_of_lt (Nat.zero_lt_of_lt hleft))
    rw [encode] at hpart
    split at hpart
    · obtain ⟨-, hnil⟩ := List.cons.inj hpart
      exact absurd (List.append_eq_nil_iff.mp hnil).2 hmore
    · obtain ⟨rfl, hrest⟩ := List.cons.inj hpart
      rw [decodeFrom_cons rfl, if_neg (not_toUInt8_lt n)]
      exact ih hrest (Nat.lt_of_succ_lt_succ hleft)

/-- A number of sixty-four bits that is cut off is not taken for a shorter one. -/
theorem decode_of_cut {n : Nat} (hn : n < UInt64.size) {part more : List UInt8}
    (hpart : part ++ more = encode n) (hmore : more ≠ []) : decode part = .error .ended := by
  have hsize := length_encode_toNat_le n.toUInt64
  have hpos := List.length_pos_iff.mpr hmore
  rw [Nat.toUInt64, UInt64.toNat_ofNat', Nat.mod_eq_of_lt hn, ← hpart, List.length_append] at hsize
  exact decodeFrom_of_cut hpart hmore (by omega)

/-! ## Bytes behind a number -/

theorem decodeFrom_append {left seen : Nat} {value v : UInt64} {bytes rest : List UInt8}
    (h : decodeFrom value seen left bytes = .ok (v, rest)) (more : List UInt8) :
    decodeFrom value seen left (bytes ++ more) = .ok (v, rest ++ more) := by
  induction left generalizing seen value bytes with
  | zero => simp [decodeFrom] at h
  | succ left ih =>
    cases bytes with
    | nil => simp [decodeFrom] at h
    | cons b bytes =>
      rw [decodeFrom_cons rfl] at h
      rw [List.cons_append, decodeFrom_cons rfl]
      split at h
      · rename_i hb
        rw [if_pos hb]
        split at h
        · cases h
        · rename_i hz
          rw [if_neg hz]
          cases h
          rfl
      · rename_i hb
        rw [if_neg hb]
        exact ih h

theorem decode_append {v : UInt64} {bytes rest : List UInt8} (h : decode bytes = .ok (v, rest))
    (more : List UInt8) : decode (bytes ++ more) = .ok (v, rest ++ more) :=
  decodeFrom_append h more

/-! ## No form is shorter -/

/-- What has been read so far is small enough for the bytes that it was read from. -/
theorem lt_of_decodeFrom {left seen : Nat} {value v : UInt64} {bytes rest : List UInt8}
    (hsum : seen + left = maxSize) (hvalue : value.toNat < 2 ^ (7 * seen))
    (h : decodeFrom value seen left bytes = .ok (v, rest)) :
    ∃ used, bytes.length = used + 1 + rest.length ∧
      v.toNat < 2 ^ (7 * (seen + used + 1)) := by
  induction left generalizing seen value bytes with
  | zero => simp [decodeFrom] at h
  | succ left ih =>
    simp only [maxSize] at hsum ih
    cases bytes with
    | nil => simp [decodeFrom] at h
    | cons b bytes =>
      rw [decodeFrom_cons rfl] at h
      have hstep := toNat_or_shiftLeft b (show seen ≤ 9 by omega) hvalue
      generalize value ||| ((b &&& 0x7F).toUInt64 <<< (7 * seen).toUInt64) = value' at h hstep
      have hvalue' : value'.toNat < 2 ^ (7 * (seen + 1)) := by
        have hpow : 2 ^ (7 * (seen + 1)) = 128 * 2 ^ (7 * seen) := by
          rw [Nat.mul_succ, Nat.pow_add, Nat.mul_comm]
        have hbits := Nat.mul_le_mul_right (2 ^ (7 * seen)) (show b.toNat % 128 ≤ 127 by omega)
        rw [hstep]
        exact Nat.lt_of_le_of_lt (Nat.mod_le _ _) (by omega)
      split at h
      · split at h
        · cases h
        · cases h
          exact ⟨0, by rw [List.length_cons]; omega, hvalue'⟩
      · -- the bytes used are counted without this one, the seven bits of which are in `value'`
        obtain ⟨used, hlength, hv⟩ := ih (by omega) hvalue' h
        refine ⟨used + 1, by rw [List.length_cons, hlength]; omega, ?_⟩
        rwa [show seen + (used + 1) + 1 = seen + 1 + used + 1 by omega]

/-- A number is written with no more bytes than it was read from. -/
theorem length_encode_le_of_decode {v : UInt64} {bytes rest : List UInt8}
    (h : decode bytes = .ok (v, rest)) :
    (encode v.toNat).length + rest.length ≤ bytes.length := by
  obtain ⟨used, hlength, hv⟩ := lt_of_decodeFrom rfl (by decide) h
  have hsize : (encode v.toNat).length ≤ used + 1 := by
    refine length_encode_le ?_
    rwa [Nat.zero_add, Nat.pow_mul] at hv
  omega

end MarketDag.Varint
