import MarketDag.Proofs.Dag.Block

/-!
# Documents as blocks: the round trip

A document is read back from its block (`Document.encode_undone`), as a document of its kind if it
keeps the rules.
-/

namespace MarketDag

/-! ## Documents -/

namespace Document

theorem encode_eq_of_same {d e : Document} (h : d.Same e) : d.encode = e.encode := by
  obtain ⟨h⟩ := h
  exact Block.encode_eq_of_same h

/-- A document is read back from its block, with its decimals in canonical form. -/
theorem decodeRaw_encode {d : Document} {b : Block} (h : d.encode = .ok b)
    (hsize : b.Addressable) : d.kind.decodeRaw b.cid b.data = .ok d.normal := by
  rw [Kind.decodeRaw, Block.decode_encode h hsize]
  rfl

end Document

theorem Kind.decodeRaw_eq_ok {k : Kind} {cid : Cid} {data : List UInt8} {d : Document} :
    k.decodeRaw cid data = .ok d ↔
      ∃ body, Block.decode k.Body cid data = .ok body ∧ (⟨k, body⟩ : Document) = d :=
  map_eq_ok

theorem Kind.decode_eq_ok {k : Kind} {cid : Cid} {data : List UInt8} {d : Document} :
    k.decode cid data = .ok d ↔ k.decodeRaw cid data = .ok d ∧ d.validate = .ok () := by
  unfold decode
  constructor
  · intro h
    obtain ⟨d', hread, h⟩ := bind_eq_ok.mp h
    obtain ⟨_, hvalid, h⟩ := bind_eq_ok.mp h
    cases h
    exact ⟨hread, mapError_eq_ok.mp hvalid⟩
  · rintro ⟨hread, hvalid⟩
    exact bind_eq_ok.mpr ⟨d, hread, bind_eq_ok.mpr ⟨(), mapError_eq_ok.mpr hvalid, rfl⟩⟩

/-- What is decoded as a document of a kind is of this kind. -/
theorem Kind.kind_of_decode {k : Kind} {cid : Cid} {data : List UInt8} {d : Document}
    (h : k.decode cid data = .ok d) : d.kind = k := by
  obtain ⟨body, -, rfl⟩ := decodeRaw_eq_ok.mp (decode_eq_ok.mp h).1
  rfl

namespace Document

variable {d : Document} {b : Block}

/-- A valid document is read back from its block as a document of its kind, and only a valid one. -/
theorem decode_encode_iff (h : d.encode = .ok b) (hsize : b.Addressable) :
    d.kind.decode b.cid b.data = .ok d.normal ↔ d.validate = .ok () := by
  rw [Kind.decode_eq_ok, validate_normal, and_iff_right (decodeRaw_encode h hsize)]

theorem decode_encode (hvalid : d.validate = .ok ()) (h : d.encode = .ok b)
    (hsize : b.Addressable) : d.kind.decode b.cid b.data = .ok d.normal :=
  (decode_encode_iff h hsize).mpr hvalid

/-- The block of a document that breaks a rule is refused for one. -/
theorem decode_encode_of_violation (hinvalid : d.validate ≠ .ok ()) (h : d.encode = .ok b)
    (hsize : b.Addressable) : ∃ v, d.kind.decode b.cid b.data = .error (.invalid v) := by
  cases hnormal : d.normal.validate with
  | ok => exact absurd (d.validate_normal.mp hnormal) hinvalid
  | error v =>
    refine ⟨v, ?_⟩
    rw [Kind.decode, decodeRaw_encode h hsize]
    change (d.normal.validate.mapError Error.invalid >>= fun _ => _) = _
    rw [hnormal]
    rfl

theorem height_le (k : Kind) : 2 * (Shaped.shape k.Body).height + 1 ≤ Cbor.maxDepth := by
  cases k <;> decide

/-- Reading the block of a document undoes writing it, for documents of every kind, whether they
keep the rules or not: the document comes back with decimals of the same numbers, and so does its
canonical tree; the block belongs to its identifier; and only a document that keeps the rules comes
back where the rules are checked. -/
theorem encode_undone (h : d.encode = .ok b) (hsize : b.Addressable) :
    b.cid.verify b.data = .ok () ∧
    (∃ tree, d.canonical = .ok tree ∧ Block.decodeTree b.cid b.data = .ok tree) ∧
    ∃ d', d.kind.decodeRaw b.cid b.data = .ok d' ∧ d'.Same d ∧
      (d.kind.decode b.cid b.data = .ok d' ↔ d.validate = .ok ()) ∧
      (d.validate ≠ .ok () →
        ∃ e, d.kind.decode b.cid b.data = .error e ∧ e.kind = .validation) := by
  refine ⟨Block.verify_of_encode h, Block.decodeTree_encode h (height_le d.kind) hsize, d.normal,
    decodeRaw_encode h hsize, d.same_normal, decode_encode_iff h hsize, fun hinvalid => ?_⟩
  obtain ⟨v, hv⟩ := decode_encode_of_violation hinvalid h hsize
  exact ⟨_, hv, rfl⟩

/-- An oracle told to look at all pages, with headers that come in no order of their own and a scale
that is not in canonical form. -/
def sampleOracle : Document :=
  ⟨.oracleConfigPrototype1, ⟨"o", none⟩, .jsonPath
    { standard := .jsonPath, variety := .productFsv, url := "urn:x", datePath := "d",
      valuePath := "v", headers := some ((Headers.empty.insert "bb" "1").insert "c" "2"),
      maxPages := none, timestampScale := ⟨false, 150, 2, by decide, by decide⟩ }⟩

theorem encode_undone_sample : ∃ b, sampleOracle.encode = .ok b ∧ b.Addressable ∧
    ∃ d', sampleOracle.kind.decode b.cid b.data = .ok d' ∧ d'.Same sampleOracle := by
  have hencode : ∃ b, sampleOracle.encode = .ok b := ⟨_, rfl⟩
  obtain ⟨b, hb⟩ := hencode
  have hsize : sampleOracle.encode.toOption.all (fun b => b.data.length < UInt64.size) = true := by
    decide +kernel
  rw [hb] at hsize
  have hsize : b.data.length < UInt64.size := of_decide_eq_true hsize
  have hkept : sampleOracle.violations.isEmpty = true := by decide +kernel
  have hvalid := firstViolation_eq_ok.mpr (List.isEmpty_iff.mp hkept)
  obtain ⟨-, -, d', -, hsame, hdecode, -⟩ := encode_undone hb hsize
  exact ⟨b, hb, hsize, d', hdecode.mpr hvalid, hsame⟩

end Document

end MarketDag
