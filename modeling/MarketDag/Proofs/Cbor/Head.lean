import Mathlib.Data.List.Induction
import MarketDag.Cbor.Reader
import MarketDag.Cbor.Writer
import MarketDag.Proofs.Address.Cid
import MarketDag.Proofs.Except
import MarketDag.Proofs.Text.Utf8

/-!
# Heads, texts and links of binary trees

What starts with a head is read back whatever stands behind it: the number of the head itself
(`readHead_writeHead`), texts (`readText_writeText`) and links (`readLink_writeLink`).
-/

namespace MarketDag

/-- Bytes make no larger number than there is room for in them. -/
theorem BigEndian.decode_lt (bytes : List UInt8) : decode bytes < Nat.pow 256 bytes.length := by
  induction bytes using List.reverseRecOn with
  | nil => decide
  | append_singleton bytes b ih =>
    have hb : b.toNat < 256 := b.toNat_lt
    have hpow : Nat.pow 256 (bytes ++ [b]).length = Nat.pow 256 bytes.length * 256 := by
      rw [List.length_append]
      rfl
    rw [decode_concat, hpow]
    omega

namespace Cbor

/-! ## Heads -/

theorem Major.code_le (major : Major) : major.code ≤ 7 := by cases major <;> decide

/-- The first byte of a head and the bytes of its number. -/
theorem writeHead_eq_cons (major : Major) (n : Nat) :
    ∃ low bytes, low < 28 ∧ writeHead major n = (major.code * 32 + low).toUInt8 :: bytes ∧
      (n < UInt64.size → ∀ rest, argument low (bytes ++ rest) = .ok (n, rest)) := by
  -- the bytes that follow a first byte are read as the number they were made from
  have hfollow : ∀ {low count : Nat}, followers? low = some (count + 1) →
      n < Nat.pow 256 (count + 1) → ∀ rest,
      argument low (BigEndian.encode (count + 1) n ++ rest) = .ok (n, rest) := by
    intro low count hlow hn rest
    have htake : take (count + 1) (BigEndian.encode (count + 1) n ++ rest) =
        .ok (BigEndian.encode (count + 1) n, rest) := by
      rw [take, Multihash.takeExactly_append (BigEndian.length_encode _ _)]
    simp only [argument, hlow]
    rw [read_map htake, BigEndian.decode_encode hn]
  unfold writeHead
  split
  · rename_i h
    have hnone : followers? n = some 0 := if_pos h
    refine ⟨n, [], by omega, rfl, fun _ rest => ?_⟩
    simp only [argument, hnone]
    rfl
  split
  · exact ⟨24, _, by decide, rfl, fun _ => hfollow rfl ‹_›⟩
  split
  · exact ⟨25, _, by decide, rfl, fun _ => hfollow rfl ‹_›⟩
  split
  · exact ⟨26, _, by decide, rfl, fun _ => hfollow rfl ‹_›⟩
  · exact ⟨27, _, by decide, rfl, fun h => hfollow rfl h⟩

theorem writeHead_ne_nil (major : Major) (n : Nat) : writeHead major n ≠ [] := by
  obtain ⟨low, bytes, -, h, -⟩ := writeHead_eq_cons major n
  simp [h]

theorem length_writeHead_le (major : Major) (n : Nat) : (writeHead major n).length ≤ 9 := by
  unfold writeHead
  split
  · simp
  · split
    · simp [BigEndian.length_encode]
    · split
      · simp [BigEndian.length_encode]
      · split <;> simp [BigEndian.length_encode]

theorem toNat_first {major : Major} {low : Nat} (h : low < 28) :
    (major.code * 32 + low).toUInt8.toNat = major.code * 32 + low := by
  have := major.code_le
  exact toNat_toUInt8 (by omega)

theorem majorCode_first {major : Major} {low : Nat} (h : low < 28) :
    majorCode (major.code * 32 + low).toUInt8 = major.code := by
  rw [majorCode, toNat_first h]
  omega

theorem info_first {major : Major} {low : Nat} (h : low < 28) :
    info (major.code * 32 + low).toUInt8 = low := by
  rw [info, toNat_first h]
  omega

theorem next_cons (b : UInt8) (bytes : List UInt8) : next (b :: bytes) = .ok (b, bytes) := rfl

/-- The number of a head is read back. -/
theorem readHead_writeHead (major : Major) {n : Nat} (hn : n < UInt64.size) (rest : List UInt8) :
    readHead major (writeHead major n ++ rest) = .ok (n, rest) := by
  obtain ⟨low, bytes, hlow, h, hargument⟩ := writeHead_eq_cons major n
  rw [h, List.cons_append, readHead, read_bind (next_cons ..), majorCode_first hlow,
    info_first hlow, passesFor, Nat.and_self, if_pos (decide_eq_true rfl)]
  exact hargument hn rest

/-- What a look at the first byte of a head tells. -/
theorem peek_writeHead (major : Major) (n : Nat) (rest : List UInt8) :
    ∃ b, peek (writeHead major n ++ rest) = .ok (b, writeHead major n ++ rest) ∧
      majorCode b = major.code ∧ info b ≠ openLength ∧
      b.toNat ≠ major.code * 32 + openLength := by
  obtain ⟨low, bytes, hlow, h, -⟩ := writeHead_eq_cons major n
  refine ⟨_, by rw [h]; rfl, majorCode_first hlow, ?_, ?_⟩
  · rw [info_first hlow, openLength]
    omega
  · rw [toNat_first hlow, openLength]
    omega

/-! ## Texts and byte strings -/

theorem take_append (front rest : List UInt8) :
    take front.length (front ++ rest) = .ok (front, rest) := by
  rw [take, Multihash.takeExactly_append rfl]

theorem readString_write (major : Major) (depth : Nat) {bytes : List UInt8}
    (h : bytes.length < UInt64.size) (rest : List UInt8) :
    readString major depth (writeHead major bytes.length ++ (bytes ++ rest)) =
      .ok (bytes, rest) := by
  obtain ⟨b, hpeek, -, -, hopen⟩ := peek_writeHead major bytes.length (bytes ++ rest)
  cases depth <;>
  · rw [readString, read_bind hpeek, if_neg hopen, read_bind (readHead_writeHead major h _)]
    exact take_append bytes rest

theorem length_encode_le (s : String) : (Utf8.encode s).length ≤ (writeText s).length := by
  simp [writeText]

theorem writeText_append (s : String) (rest : List UInt8) :
    writeText s ++ rest =
      writeHead .text (Utf8.encode s).length ++ (Utf8.encode s ++ rest) := by
  rw [writeText, List.append_assoc]

/-- A text is read back. -/
theorem readText_writeText (depth : Nat) {s : String} (h : (writeText s).length < UInt64.size)
    (rest : List UInt8) : readText depth (writeText s ++ rest) = .ok (s, rest) := by
  have hlength := Nat.lt_of_le_of_lt (length_encode_le s) h
  rw [writeText_append, readText, read_bind (readString_write .text depth hlength rest), textOf,
    Utf8.decode?_encode]
  rfl

/-! ## Links -/

/-- A link is read back. -/
theorem readLink_writeLink (depth : Nat) {cid : Cid} (h : (writeLink cid).length < UInt64.size)
    (rest : List UInt8) : readLink depth (writeLink cid ++ rest) = .ok (cid, rest) := by
  -- the string stands behind the tag and is shorter than all of it
  have hlength : (0 :: cid.toBytes).length < UInt64.size := by
    rw [writeLink, writeBytes, List.length_append, List.length_append] at h
    omega
  obtain ⟨b, hpeek, hmajor, -⟩ :=
    peek_writeHead .bytes (0 :: cid.toBytes).length (0 :: cid.toBytes ++ rest)
  rw [writeLink, writeBytes, List.append_assoc, List.append_assoc, readLink,
    read_bind (readHead_writeHead .tag (by decide) _), if_pos rfl, readLinkBytes, read_bind hpeek,
    if_neg (not_not_intro hmajor), read_bind (readString_write .bytes depth hlength rest)]
  have hcid := Cid.ofBytes_toBytes cid
  cases hbytes : cid.toBytes with
  | nil => exact absurd hbytes cid.toBytes_ne_nil
  | cons b bytes =>
    rw [hbytes] at hcid
    simp only [hcid]
    rfl

end Cbor

end MarketDag
