import MarketDag.Dag.Documents
import MarketDag.Proofs.Cbor.Tree
import MarketDag.Proofs.Document.Equality

/-!
# Blocks: the round trip

A value is read back from its block with its decimals in canonical form (`Block.decode_encode`),
its canonical tree as it is (`Block.decodeTree_encode`), and values that are the same have one block
(`Block.encode_eq_of_same`).
-/

namespace MarketDag

/-! ## Identifiers -/

namespace Cid

@[simp] theorem codec_ofData (codec : UInt64) (data : List UInt8) :
    (ofData codec data).codec = codec := rfl

@[simp] theorem hash_ofData (codec : UInt64) (data : List UInt8) :
    (ofData codec data).hash = Multihash.sha256 data := rfl

theorem ensureSupported_eq_ok {cid : Cid} :
    cid.ensureSupported = .ok () ↔ cid.codec = dagCbor ∨ cid.codec = dagJson := by
  unfold ensureSupported
  split <;> simp_all

theorem ensureSupported_eq_error {cid : Cid} {e : Error} :
    cid.ensureSupported = .error e ↔
      ¬ (cid.codec = dagCbor ∨ cid.codec = dagJson) ∧ e = .unsupportedCodec cid cid.codec := by
  unfold ensureSupported
  split <;> simp_all [eq_comm]

/-- Bytes belong to an identifier when it carries their SHA-256 digest. -/
theorem verify_eq_ok {cid : Cid} {data : List UInt8} :
    cid.verify data = .ok () ↔ cid.hash = Multihash.sha256 data := by
  unfold verify
  constructor
  · intro h
    split at h
    · cases h
    · split at h
      · rename_i heq
        exact heq.symm
      · cases h
  · intro h
    have hcode : (Multihash.sha256 data).code = Multihash.sha256Code := rfl
    rw [h, if_neg (not_not_intro hcode), if_pos rfl]

theorem digest_eq_of_verify {cid : Cid} {x y : List UInt8} (hx : cid.verify x = .ok ())
    (hy : cid.verify y = .ok ()) : Sha256.digest x = Sha256.digest y := by
  rw [verify_eq_ok] at hx hy
  exact congrArg Multihash.digest (hx.symm.trans hy)

end Cid

/-- Are there no two different byte strings with one digest among these? -/
def CollisionFree (datas : List (List UInt8)) : Prop :=
  ∀ x ∈ datas, ∀ y ∈ datas, Sha256.digest x = Sha256.digest y → x = y

theorem CollisionFree.mono {xs ys : List (List UInt8)} (h : CollisionFree ys) (hsub : xs ⊆ ys) :
    CollisionFree xs := fun x hx y hy => h x (hsub hx) y (hsub hy)

theorem CollisionFree.of_nodup {datas : List (List UInt8)}
    (h : (datas.map Sha256.digest).Nodup) : CollisionFree datas :=
  fun _ hx _ hy => List.inj_on_of_nodup_map h hx hy

theorem CollisionFree.eq_of_verify {datas : List (List UInt8)} (h : CollisionFree datas)
    {cid : Cid} {x y : List UInt8} (hx : x ∈ datas) (hy : y ∈ datas)
    (hverify : cid.verify x = .ok ()) (hverify' : cid.verify y = .ok ()) : x = y :=
  h x hx y hy (Cid.digest_eq_of_verify hverify hverify')

/-! ## Blocks of values -/

namespace Block

/-- The parts of the block of a canonical tree. -/
theorem ofCanonical_eq_ok {tree : Ipld} {b : Block} :
    ofCanonical tree = .ok b ↔ tree.isFinite = true ∧ b.data = Cbor.write tree ∧
      b.cid = .ofData Cid.dagCbor b.data := by
  obtain ⟨cid, data⟩ := b
  unfold ofCanonical
  split
  · rename_i hfinite
    simp [hfinite]
    grind
  · rename_i hfinite
    simp [hfinite]

variable {α : Type} [Shaped α]

/-- The parts of the block of a value. -/
theorem encode_eq_ok {a : α} {b : Block} :
    encode a = .ok b ↔ ∃ tree, layout a = .ok tree ∧ tree.canonical.isFinite = true ∧
      b.data = Cbor.write tree.canonical ∧ b.cid = .ofData Cid.dagCbor b.data := by
  rw [encode, canonical]
  cases hlayout : layout a with
  | error fault => simp [bind, Except.bind]
  | ok tree =>
    change ofCanonical tree.canonical = .ok b ↔ _
    simp [ofCanonical_eq_ok]

/-- Values that are the same have one block. -/
theorem encode_eq_of_same {a b : α} (h : Shaped.Same a b) : encode a = encode b := by
  rw [encode, encode, canonical, canonical, Shaped.layout_eq_of_same h]

theorem cid_of_encode {a : α} {b : Block} (h : encode a = .ok b) :
    b.cid = .ofData Cid.dagCbor b.data := by
  obtain ⟨tree, -, -, -, hcid⟩ := encode_eq_ok.mp h
  exact hcid

theorem codec_of_encode {a : α} {b : Block} (h : encode a = .ok b) :
    b.cid.codec = Cid.dagCbor := by
  rw [cid_of_encode h, Cid.codec_ofData]

/-- Does a block have a length that a machine can count with 64 bits, as all bytes in its memory
do? -/
def Addressable (b : Block) : Prop := b.data.length < UInt64.size

/-- Bytes are read with the reader of the codec that their identifier names. -/
theorem decodeWith_eq_ok {β : Type} {cid : Cid} {data : List UInt8}
    {cbor json : List UInt8 → Except DecodeFault β} {v : β} :
    decodeWith cid data cbor json = .ok v ↔
      cid.codec = Cid.dagCbor ∧ cbor data = .ok v ∨
        cid.codec = Cid.dagJson ∧ json data = .ok v := by
  have hne : Cid.dagCbor ≠ Cid.dagJson := by decide
  unfold decodeWith
  split
  · rename_i hcbor
    rw [mapError_eq_ok, hcbor]
    simp [hne]
  · rename_i hcbor
    rw [or_iff_right fun h => hcbor h.1]
    split <;> simp_all [mapError_eq_ok]

/-- Two readings of the same bytes are of one codec. -/
theorem decodeWith_both {β γ : Type} {cid : Cid} {data : List UInt8}
    {cbor json : List UInt8 → Except DecodeFault β}
    {cbor' json' : List UInt8 → Except DecodeFault γ} {v : β} {w : γ}
    (hv : decodeWith cid data cbor json = .ok v)
    (hw : decodeWith cid data cbor' json' = .ok w) :
    cid.codec = Cid.dagCbor ∧ cbor data = .ok v ∧ cbor' data = .ok w ∨
      cid.codec = Cid.dagJson ∧ json data = .ok v ∧ json' data = .ok w := by
  have hne : Cid.dagCbor ≠ Cid.dagJson := by decide
  rcases decodeWith_eq_ok.mp hv with ⟨hcid, hv⟩ | ⟨hcid, hv⟩
  · rcases decodeWith_eq_ok.mp hw with ⟨-, hw⟩ | ⟨hcid', -⟩
    · exact .inl ⟨hcid, hv, hw⟩
    · exact absurd (hcid.symm.trans hcid') hne
  · rcases decodeWith_eq_ok.mp hw with ⟨hcid', -⟩ | ⟨-, hw⟩
    · exact absurd (hcid'.symm.trans hcid) hne
    · exact .inr ⟨hcid, hv, hw⟩

/-- A value is read, with its decimals in canonical form, from the bytes of every tree that stands
for it. -/
theorem decode_of_writes [Recoverable α] {a : α} {tree : Ipld}
    (h : (Shaped.shape α).Writes (Shaped.toValue a) tree)
    (hsize : (Cbor.write tree).length < UInt64.size) {cid : Cid} (hcid : cid.codec = Cid.dagCbor) :
    decode α cid (Cbor.write tree) = .ok (Shaped.normal a) := by
  have hread := Cbor.decode_of_writes Recoverable.sound Recoverable.budget_le h hsize
  rw [decode, decodeWith, if_pos hcid, hread]
  rfl

/-- A value is read back from the bytes of its block, with its decimals in canonical form. -/
theorem decode_encode [Recoverable α] {a : α} {b : Block} (h : encode a = .ok b)
    (hsize : b.Addressable) : decode α b.cid b.data = .ok (Shaped.normal a) := by
  obtain ⟨tree, hlayout, -, hdata, -⟩ := encode_eq_ok.mp h
  rw [Addressable, hdata] at hsize
  have hwrites := Shape.writes_canonical Recoverable.sound hlayout
  rw [hdata]
  exact decode_of_writes hwrites hsize (codec_of_encode h)

/-- A block that was written for a value belongs to its identifier. -/
theorem verify_of_encode {a : α} {b : Block} (h : encode a = .ok b) :
    b.cid.verify b.data = .ok () := by
  rw [Cid.verify_eq_ok, cid_of_encode h, Cid.hash_ofData]

/-- The canonical tree of a value is read back from the bytes of its block. -/
theorem decodeTree_encode [Recoverable α] {a : α} {b : Block} (h : encode a = .ok b)
    (hheight : 2 * (Shaped.shape α).height + 1 ≤ Cbor.maxDepth) (hsize : b.Addressable) :
    ∃ tree, canonical a = .ok tree ∧ decodeTree b.cid b.data = .ok tree := by
  obtain ⟨tree, hlayout, -, hdata, -⟩ := encode_eq_ok.mp h
  have hregular := Shape.layout_regular Recoverable.sound hlayout
  rw [Addressable, hdata] at hsize
  have hreadable := Cbor.readable_of_regularWithin hregular hheight
  have hread := Cbor.decodeTree_write hreadable hsize
  refine ⟨tree.canonical, by rw [canonical, hlayout], ?_⟩
  rw [decodeTree, decodeWith, if_pos (codec_of_encode h), hdata, hread]
  rfl

end Block

end MarketDag
