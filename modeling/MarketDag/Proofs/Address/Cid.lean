import MarketDag.Address.Cid
import MarketDag.Proofs.Address.Varint
import MarketDag.Proofs.Except

/-!
# Content identifiers: the round trip

An identifier is read back from its binary form, whatever stands behind it (`decode_toBytes`), and
reading does not look beyond the identifier (`decode_append`).  The binary form is the shortest one
that is read (`length_toBytes_le_of_decode`).
-/

namespace MarketDag

/-! ## Multihashes -/

namespace Multihash

theorem takeExactly_append {n : Nat} {front : List UInt8} (h : front.length = n)
    (rest : List UInt8) : takeExactly n (front ++ rest) = some (⟨front, h⟩, rest) := by
  subst h
  simp [takeExactly]

theorem takeExactly_eq_some {n : Nat} {bytes rest : List UInt8}
    {front : { front : List UInt8 // front.length = n }}
    (h : takeExactly n bytes = some (front, rest)) : bytes = front.1 ++ rest := by
  unfold takeExactly at h
  split at h
  · cases h
    exact (List.take_append_drop n bytes).symm
  · cases h

theorem decode?_eq_some {bytes rest : List UInt8} {h : Multihash}
    (hread : decode? bytes = some (h, rest)) :
    ∃ size bytes₁, Varint.decode bytes = .ok (h.code, bytes₁) ∧
      Varint.decode bytes₁ = .ok (size, h.digest ++ rest) ∧ size.toNat = h.digest.length := by
  unfold decode? at hread
  cases h₁ : Varint.decode bytes with
  | error e => simp [h₁, Except.toOption] at hread
  | ok r₁ =>
    obtain ⟨code, bytes₁⟩ := r₁
    cases h₂ : Varint.decode bytes₁ with
    | error e => simp [h₁, h₂, Except.toOption] at hread
    | ok r₂ =>
      obtain ⟨size, bytes₂⟩ := r₂
      simp only [h₁, h₂, Except.toOption, bind, Option.bind] at hread
      split at hread
      · split at hread
        · cases hread
        · rename_i front htake
          cases hread
          exact ⟨size, bytes₁, rfl, by rw [h₂, takeExactly_eq_some htake], front.1.2.symm⟩
      · cases hread

theorem decode?_of_parts {bytes bytes₁ rest : List UInt8} {h : Multihash} {size : UInt64}
    (hcode : Varint.decode bytes = .ok (h.code, bytes₁))
    (hsize : Varint.decode bytes₁ = .ok (size, h.digest ++ rest))
    (hlength : size.toNat = h.digest.length) : decode? bytes = some (h, rest) := by
  simp only [decode?, hcode, hsize, Except.toOption, bind, Option.bind]
  rw [dif_pos (hlength ▸ h.length_le), takeExactly_append hlength.symm]

/-- A multihash is read back from its binary form. -/
theorem decode?_toBytes (h : Multihash) (rest : List UInt8) :
    decode? (h.toBytes ++ rest) = some (h, rest) := by
  have hle := h.length_le
  have hsize : h.digest.length.toUInt64.toNat = h.digest.length := by
    simp only [maxSize] at hle
    simp
    omega
  have hdigest := Varint.decode_encode h.digest.length.toUInt64 (h.digest ++ rest)
  rw [hsize] at hdigest
  refine decode?_of_parts ?_ hdigest hsize
  rw [toBytes, List.append_assoc, List.append_assoc]
  exact Varint.decode_encode h.code _

theorem decode?_append {bytes rest : List UInt8} {h : Multihash}
    (hread : decode? bytes = some (h, rest)) (more : List UInt8) :
    decode? (bytes ++ more) = some (h, rest ++ more) := by
  obtain ⟨size, bytes₁, hcode, hsize, hlength⟩ := decode?_eq_some hread
  have hsize' := Varint.decode_append hsize more
  rw [List.append_assoc] at hsize'
  exact decode?_of_parts (Varint.decode_append hcode more) hsize' hlength

/-- A multihash is written with no more bytes than it was read from. -/
theorem length_toBytes_le_of_decode? {bytes rest : List UInt8} {h : Multihash}
    (hread : decode? bytes = some (h, rest)) : h.toBytes.length + rest.length ≤ bytes.length := by
  obtain ⟨size, bytes₁, hcode, hsize, hlength⟩ := decode?_eq_some hread
  have hcode := Varint.length_encode_le_of_decode hcode
  have hsize := Varint.length_encode_le_of_decode hsize
  rw [hlength, List.length_append] at hsize
  rw [toBytes, List.length_append, List.length_append]
  omega

end Multihash

/-! ## Identifiers -/

namespace Cid

theorem decodeNumber_eq_ok {bytes rest : List UInt8} {n : UInt64}
    (h : decodeNumber bytes = .ok (n, rest)) : Varint.decode bytes = .ok (n, rest) := by
  unfold decodeNumber at h
  split at h
  · rename_i r hr
    rw [hr]
    cases h
    rfl
  · cases h
  · cases h

theorem decodeNumber_of_decode {bytes rest : List UInt8} {n : UInt64}
    (h : Varint.decode bytes = .ok (n, rest)) : decodeNumber bytes = .ok (n, rest) := by
  rw [decodeNumber, h]

/-- The two forms that reading tells apart, by their first two numbers. -/
theorem decode_eq_ok {bytes rest : List UInt8} {cid : Cid} (h : decode bytes = .ok (cid, rest)) :
    ∃ version codec bytes₁ bytes₂, Varint.decode bytes = .ok (version, bytes₁) ∧
      Varint.decode bytes₁ = .ok (codec, bytes₂) ∧
      ((∃ digest, version = 0x12 ∧ codec = 0x20 ∧ cid = .v0 digest ∧ bytes₂ = digest.1 ++ rest) ∨
        ∃ hash, version = 1 ∧ cid = .v1 codec hash ∧
          Multihash.decode? bytes₂ = some (hash, rest)) := by
  unfold decode at h
  cases h₁ : decodeNumber bytes with
  | error e => simp [h₁, bind, Except.bind] at h
  | ok r₁ =>
    obtain ⟨version, bytes₁⟩ := r₁
    cases h₂ : decodeNumber bytes₁ with
    | error e => simp [h₁, h₂, bind, Except.bind] at h
    | ok r₂ =>
      obtain ⟨codec, bytes₂⟩ := r₂
      simp only [h₁, h₂, bind, Except.bind] at h
      refine ⟨version, codec, bytes₁, bytes₂, decodeNumber_eq_ok h₁, decodeNumber_eq_ok h₂, ?_⟩
      split at h
      · -- an old identifier has no version: its first two bytes are code and length of its hash
        rename_i hold
        split at h
        · rename_i digest bytes₃ htake
          cases h
          exact .inl ⟨digest, hold.1, hold.2, rfl, Multihash.takeExactly_eq_some htake⟩
        · cases h
      · split at h
        · cases h
        · split at h
          · rename_i hnew
            split at h
            · rename_i hash bytes₃ hread
              cases h
              exact .inr ⟨hash, hnew, rfl, hread⟩
            · cases h
          · cases h

theorem decode_v0 {bytes bytes₁ rest : List UInt8} {digest : { b : List UInt8 // b.length = 32 }}
    (h₁ : Varint.decode bytes = .ok (0x12, bytes₁))
    (h₂ : Varint.decode bytes₁ = .ok (0x20, digest.1 ++ rest)) :
    decode bytes = .ok (.v0 digest, rest) := by
  simp only [decode, decodeNumber_of_decode h₁, decodeNumber_of_decode h₂, bind, Except.bind]
  rw [if_pos (by simp), Multihash.takeExactly_append digest.2]

theorem decode_v1 {bytes bytes₁ bytes₂ rest : List UInt8} {codec : UInt64} {hash : Multihash}
    (h₁ : Varint.decode bytes = .ok (1, bytes₁)) (h₂ : Varint.decode bytes₁ = .ok (codec, bytes₂))
    (h₃ : Multihash.decode? bytes₂ = some (hash, rest)) :
    decode bytes = .ok (.v1 codec hash, rest) := by
  simp only [decode, decodeNumber_of_decode h₁, decodeNumber_of_decode h₂, bind, Except.bind]
  rw [if_neg (by simp), if_neg (by decide), if_pos trivial, h₃]

/-- An identifier is read back from its binary form. -/
theorem decode_toBytes (cid : Cid) (rest : List UInt8) :
    decode (cid.toBytes ++ rest) = .ok (cid, rest) := by
  cases cid with
  | v0 digest => exact decode_v0 rfl rfl
  | v1 codec hash =>
    rw [toBytes, List.append_assoc, List.append_assoc]
    exact decode_v1 (Varint.decode_encode 1 _) (Varint.decode_encode codec _)
      (Multihash.decode?_toBytes hash rest)

/-- Bytes behind an identifier do not matter. -/
theorem decode_append {bytes rest : List UInt8} {cid : Cid} (h : decode bytes = .ok (cid, rest))
    (more : List UInt8) : decode (bytes ++ more) = .ok (cid, rest ++ more) := by
  obtain ⟨version, codec, bytes₁, bytes₂, h₁, h₂, hform⟩ := decode_eq_ok h
  have h₁' := Varint.decode_append h₁ more
  have h₂' := Varint.decode_append h₂ more
  rcases hform with ⟨digest, rfl, rfl, rfl, rfl⟩ | ⟨hash, rfl, rfl, h₃⟩
  · rw [List.append_assoc] at h₂'
    exact decode_v0 h₁' h₂'
  · exact decode_v1 h₁' h₂' (Multihash.decode?_append h₃ more)

@[simp] theorem ofBytes_toBytes (cid : Cid) : ofBytes cid.toBytes = .ok cid := by
  have h := decode_toBytes cid []
  rw [List.append_nil] at h
  rw [ofBytes, h]
  rfl

theorem length_toBytes_ofData (data : List UInt8) :
    (ofData dagCbor data).toBytes.length = 36 := by
  simp [ofData, toBytes, dagCbor, Multihash.toBytes, Multihash.sha256, Multihash.sha256Code,
    Varint.encode]

/-- An identifier is short, whatever its codec and its hash function are. -/
theorem length_toBytes_le (cid : Cid) : cid.toBytes.length ≤ 100 := by
  cases cid with
  | v0 digest => simp [toBytes, digest.2]
  | v1 codec hash =>
    have hversion : (Varint.encode 1).length = 1 := by simp [Varint.encode]
    have hcodec := Varint.length_encode_toNat_le codec
    have hcode := Varint.length_encode_toNat_le hash.code
    have hdigest := hash.length_le
    have hsize : (Varint.encode hash.digest.length).length ≤ 1 :=
      Varint.length_encode_le (Nat.lt_of_le_of_lt hdigest (by decide))
    rw [Varint.maxSize] at hcodec hcode
    rw [Multihash.maxSize] at hdigest
    rw [toBytes, Multihash.toBytes]
    simp only [List.length_append]
    omega

/-- An identifier is written with no more bytes than it was read from. -/
theorem length_toBytes_le_of_decode {bytes rest : List UInt8} {cid : Cid}
    (h : decode bytes = .ok (cid, rest)) : cid.toBytes.length + rest.length ≤ bytes.length := by
  obtain ⟨version, codec, bytes₁, bytes₂, h₁, h₂, hform⟩ := decode_eq_ok h
  have hversion := Varint.length_encode_le_of_decode h₁
  have hcodec := Varint.length_encode_le_of_decode h₂
  -- an old identifier is written with one byte for each number, and none is read from fewer
  have hpos : ∀ n, 0 < (Varint.encode n).length :=
    fun n => List.length_pos_iff.mpr (Varint.encode_ne_nil n)
  rcases hform with ⟨digest, -, -, rfl, rfl⟩ | ⟨hash, rfl, rfl, h₃⟩
  · have := hpos version.toNat
    have := hpos codec.toNat
    rw [List.length_append] at hcodec
    rw [toBytes, List.length_cons, List.length_cons]
    omega
  · have hhash := Multihash.length_toBytes_le_of_decode? h₃
    have hone : (1 : UInt64).toNat = 1 := rfl
    rw [hone] at hversion
    rw [toBytes, List.length_append, List.length_append]
    omega

theorem toBytes_ne_nil (cid : Cid) : cid.toBytes ≠ [] := by
  cases cid with
  | v0 digest => simp [toBytes]
  | v1 codec hash => simp [toBytes, Varint.encode_ne_nil]

theorem length_toBytes_le_of_ofBytes {bytes : List UInt8} {cid : Cid}
    (h : ofBytes bytes = .ok cid) : cid.toBytes.length ≤ bytes.length := by
  obtain ⟨⟨cid, rest⟩, hread, rfl⟩ := map_eq_ok.mp h
  exact Nat.le_trans (Nat.le_add_right _ _) (length_toBytes_le_of_decode hread)

end Cid

end MarketDag
