import Mathlib.Data.List.Permutation
import MarketDag.Archive.Basic
import MarketDag.Proofs.Cbor.Faithful
import MarketDag.Proofs.Dag.Block

/-!
# Archives: the round trip

An archive whose frames are not too large is read back from its bytes (`read_toBytes`).  The size
of a frame is read as a number of 64 bits, so that of a block that is larger still only a part
might be read back; but then two byte strings have one digest (`eq_of_ofBytes`).
-/

namespace MarketDag.Archive

/-! ## Headers -/

theorem reads_roots {d : Nat} {slots : HeaderSlots} (h : slots.roots = none) (roots : List Cid) :
    Cbor.Reads (d + 1) (.list (roots.map .link)) (readEntry "roots" slots)
      { slots with roots := some roots } := by
  intro hsize rest
  have hlinks : List.Forall₂ (fun t cid => Cbor.Reads d t Cbor.readLink cid)
      (roots.map .link) roots := by
    rw [List.forall₂_map_left_iff, List.forall₂_same]
    exact fun _ _ hsize rest => Cbor.readLink_writeLink d hsize rest
  rw [readEntry, if_pos rfl, h, if_neg (by simp)]
  exact read_bind (Cbor.faithful.list hlinks hsize rest)

theorem reads_version {d : Nat} {slots : HeaderSlots} (h : slots.version = none) :
    Cbor.Reads d (.integer version) (readEntry "version" slots)
      { slots with version := some version } := by
  intro hsize rest
  rw [readEntry, if_neg (by decide), if_pos rfl, h, if_neg (by simp)]
  have hread := Cbor.readHead_writeHead .unsigned (show version < UInt64.size by decide) rest
  exact read_bind hread

/-- The roots and the version are read back in either order. -/
theorem reads_header (d : Nat) (roots : List Cid) :
    Cbor.Reads (d + 2) (.map [("roots", .list (roots.map .link)), ("version", .integer version)])
      readHeaderTree (roots, version) := by
  refine Cbor.faithful.record fun es' hperm => ?_
  rcases List.perm_pair.mp hperm with rfl | rfl
  · exact ⟨_, .cons (reads_roots rfl roots) (.cons (reads_version rfl) (.nil _)), rfl⟩
  · exact ⟨_, .cons (reads_version rfl) (.cons (reads_roots rfl roots) (.nil _)), rfl⟩

theorem readHeader_writeHeader {root : Cid} {otherRoots : List Cid}
    (h : (writeHeader (root :: otherRoots)).length ≤ maxFrame) :
    readHeader (writeHeader (root :: otherRoots)) = .ok (root, otherRoots) := by
  have hsize : (writeHeader (root :: otherRoots)).length < UInt64.size :=
    Nat.lt_of_le_of_lt h (by decide)
  have hread := reads_header 254 (root :: otherRoots) hsize []
  rw [List.append_nil] at hread
  have hall : Cbor.readAll (readHeaderTree Cbor.maxDepth) (writeHeader (root :: otherRoots)) =
      .ok (root :: otherRoots, version) := bind_eq_ok.mpr ⟨_, hread, rfl⟩
  rw [readHeader, hall]
  exact if_pos rfl

theorem length_writeHeader (roots : List Cid) :
    (writeHeader roots).length = (Cbor.writeHead .list roots.length).length +
      (roots.flatMap Cbor.writeLink).length + 16 := by
  have hmap : (Cbor.writeHead .map 2).length = 1 := rfl
  have hroots : (Cbor.writeText "roots").length = 6 := rfl
  have hversion : (Cbor.writeText "version").length = 8 := rfl
  have hnumber : (Cbor.write (.integer version)).length = 1 := rfl
  have hlinks : Cbor.write (.list (roots.map .link)) =
      Cbor.writeHead .list roots.length ++ roots.flatMap Cbor.writeLink := by
    rw [Cbor.write_list, List.length_map, List.flatMap_map]
    rfl
  rw [writeHeader, Cbor.length_write_map]
  simp only [List.flatMap_cons, List.flatMap_nil, List.length_append, List.length_cons,
    List.length_nil, Cbor.writeEntry]
  rw [hmap, hroots, hlinks, hversion, hnumber, List.length_append]
  omega

/-- The header of an archive with one root is small. -/
theorem length_writeHeader_le (cid : Cid) : (writeHeader [cid]).length ≤ maxFrame := by
  have hlist := Cbor.length_writeHead_le .list 1
  have htag := Cbor.length_writeHead_le .tag Cbor.linkTag
  have hbytes := Cbor.length_writeHead_le .bytes (cid.toBytes.length + 1)
  have hcid := cid.length_toBytes_le
  rw [length_writeHeader, List.flatMap_singleton, List.length_singleton, Cbor.writeLink,
    Cbor.writeBytes, List.length_append, List.length_append, List.length_cons, maxFrame]
  omega

/-! ## Frames -/

theorem decode_frame (bytes rest : List UInt8) :
    Varint.decode (frame bytes ++ rest) =
      if bytes.length < 2 ^ 70 then .ok (bytes.length.toUInt64, bytes ++ rest)
      else .error .overlong := by
  rw [frame, List.append_assoc, Varint.decode_encode_append]

theorem toNat_length {bytes : List UInt8} (h : bytes.length < UInt64.size) :
    bytes.length.toUInt64.toNat = bytes.length := by
  rw [Nat.toUInt64, UInt64.toNat_ofNat', Nat.mod_eq_of_lt h]

theorem decode_frame_of_lt {bytes : List UInt8} (h : bytes.length < UInt64.size)
    (rest : List UInt8) :
    Varint.decode (frame bytes ++ rest) = .ok (bytes.length.toUInt64, bytes ++ rest) := by
  rw [decode_frame, if_pos (Nat.lt_trans h (by decide))]

theorem lt_of_le_maxFrame {n : Nat} (h : n ≤ maxFrame) : n < UInt64.size :=
  Nat.lt_of_le_of_lt h (by decide)

theorem decode_frame_of_le {bytes : List UInt8} (h : bytes.length ≤ maxFrame)
    (rest : List UInt8) :
    Varint.decode (frame bytes ++ rest) = .ok (bytes.length.toUInt64, bytes ++ rest) :=
  decode_frame_of_lt (lt_of_le_maxFrame h) rest

theorem readFrame_frame {bytes : List UInt8} (h : bytes.length ≤ maxFrame) (rest : List UInt8) :
    readFrame bytes.length.toUInt64 (bytes ++ rest) = .ok (bytes, rest) := by
  have hlength := toNat_length (lt_of_le_maxFrame h)
  rw [readFrame, if_neg (Nat.not_lt.mpr (hlength.trans_le h)),
    Multihash.takeExactly_append hlength.symm]

theorem readFrame_eq_ok {size : UInt64} {bytes front rest : List UInt8}
    (h : readFrame size bytes = .ok (front, rest)) :
    size.toNat ≤ maxFrame ∧ front.length = size.toNat ∧ bytes = front ++ rest := by
  unfold readFrame at h
  split at h
  · cases h
  · rename_i hsize
    split at h
    · rename_i front rest htake
      cases h
      exact ⟨Nat.not_lt.mp hsize, front.2, Multihash.takeExactly_eq_some htake⟩
    · cases h

/-- From a frame one reads its bytes, or a proper part of them if they are too many. -/
theorem frame_cases {size : UInt64} {bytes rest front rest' rest'' : List UInt8}
    (hsize : Varint.decode (frame bytes ++ rest) = .ok (size, rest'))
    (hread : readFrame size rest' = .ok (front, rest'')) :
    (bytes.length ≤ maxFrame ∧ front = bytes ∧ rest'' = rest) ∨
      ∃ more, more ≠ [] ∧ bytes = front ++ more := by
  rw [decode_frame] at hsize
  split at hsize
  · cases hsize
    obtain ⟨hle, hlength, happend⟩ := readFrame_eq_ok hread
    by_cases hfits : bytes.length ≤ maxFrame
    · rw [toNat_length (lt_of_le_maxFrame hfits)] at hlength
      obtain ⟨hfront, hrest⟩ := List.append_inj happend hlength.symm
      exact .inl ⟨hfits, hfront.symm, hrest.symm⟩
    · -- the size is read modulo 2 ^ 64, so a frame that is too large may show fewer bytes
      obtain ⟨more, hbytes, -⟩ | ⟨more, hbytes, hmore⟩ := List.append_eq_append_iff.mp happend
      · rw [hbytes, List.length_append] at hlength
        omega
      · refine .inr ⟨more, fun hnil => ?_, hbytes⟩
        rw [hbytes, hnil, List.append_nil] at hfits
        omega
  · cases hsize

/-! ## Blocks -/

theorem readBlock_append (b : Block) :
    readBlock (b.cid.toBytes ++ b.data) = .ok b := by
  rw [readBlock, Cid.decode_toBytes]

theorem decode_of_readBlock {bytes : List UInt8} {b : Block} (h : readBlock bytes = .ok b) :
    Cid.decode bytes = .ok (b.cid, b.data) := by
  unfold readBlock at h
  split at h
  · cases h
    assumption
  · cases h

/-- Of a part of a block's bytes one reads the identifier and a part of the data. -/
theorem readBlock_part {b b' : Block} {front more : List UInt8}
    (h : b.cid.toBytes ++ b.data = front ++ more) (hread : readBlock front = .ok b') :
    b'.cid = b.cid ∧ b.data = b'.data ++ more := by
  have hwhole := Cid.decode_append (decode_of_readBlock hread) more
  rw [← h, Cid.decode_toBytes] at hwhole
  obtain ⟨hcid, hdata⟩ := Prod.mk.inj (Except.ok.inj hwhole)
  exact ⟨hcid.symm, hdata⟩

theorem length_blockFrame_pos (b : Block) : 0 < (blockFrame b).length := by
  rw [blockFrame, frame, List.length_append]
  exact Nat.add_pos_left (List.length_pos_iff.mpr (Varint.encode_ne_nil _)) _

/-- Are the identifier and the data of a block together small enough for a frame? -/
def Fits (b : Block) : Prop := (b.cid.toBytes ++ b.data).length ≤ maxFrame

/-- Blocks are read up to an end inside a size, one of each frame before it. -/
theorem readBlocks_succ_cases {fuel : Nat} {bytes : List UInt8} {bs : List Block}
    (h : readBlocks (fuel + 1) bytes = .ok bs) :
    (Varint.decode bytes = .error .ended ∧ bs = []) ∨
      ∃ size rest front rest' b bs', Varint.decode bytes = .ok (size, rest) ∧
        readFrame size rest = .ok (front, rest') ∧ readBlock front = .ok b ∧
        readBlocks fuel rest' = .ok bs' ∧ bs = b :: bs' := by
  rw [readBlocks] at h
  split at h
  · rename_i hended
    cases h
    exact .inl ⟨hended, rfl⟩
  · cases h
  · rename_i size rest hsize
    obtain ⟨⟨front, rest'⟩, hframe, h⟩ := bind_eq_ok.mp h
    obtain ⟨b, hblock, h⟩ := bind_eq_ok.mp h
    obtain ⟨bs', hrest, h⟩ := bind_eq_ok.mp h
    cases h
    exact .inr ⟨size, rest, front, rest', b, bs', hsize, hframe, hblock, hrest, rfl⟩

/-- A block that fits is read, and the reading goes on with the next frame. -/
theorem readBlocks_of_fits {b : Block} (hfits : Fits b) (fuel : Nat) (rest : List UInt8) :
    readBlocks (fuel + 1) (blockFrame b ++ rest) =
      readBlocks fuel rest >>= fun bs => pure (b :: bs) := by
  rw [readBlocks, blockFrame, decode_frame_of_le hfits]
  exact (bind_of_ok (readFrame_frame hfits rest)).trans (bind_of_ok (readBlock_append b))

/-- Blocks that fit are read, and the reading goes on behind them. -/
theorem readBlocks_append {bs : List Block} (hfits : ∀ b ∈ bs, Fits b) {rest : List UInt8}
    {fuel : Nat} (hfuel : (bs.flatMap blockFrame ++ rest).length ≤ fuel) :
    ∃ k, rest.length ≤ k ∧ readBlocks fuel (bs.flatMap blockFrame ++ rest) =
      readBlocks k rest >>= fun more => pure (bs ++ more) := by
  induction bs generalizing fuel with
  | nil =>
    refine ⟨fuel, hfuel, ?_⟩
    rw [List.flatMap_nil, List.nil_append]
    cases readBlocks fuel rest <;> rfl
  | cons b bs ih =>
    obtain ⟨hb, hbs⟩ := List.forall_mem_cons.mp hfits
    have hpos := length_blockFrame_pos b
    rw [List.flatMap_cons, List.append_assoc, List.length_append] at hfuel
    -- one of the fuel for each frame
    obtain ⟨n, rfl⟩ := Nat.exists_eq_add_of_le' (show 1 ≤ fuel by omega)
    have hn : (bs.flatMap blockFrame ++ rest).length ≤ n := by omega
    obtain ⟨k, hk, hrest⟩ := ih hbs hn
    refine ⟨k, hk, ?_⟩
    rw [List.flatMap_cons, List.append_assoc, readBlocks_of_fits hb, hrest]
    cases readBlocks k rest <;> rfl

theorem readBlocks_nil (fuel : Nat) : readBlocks fuel [] = .ok [] := by cases fuel <;> rfl

theorem readBlocks_flatMap {bs : List Block} (hfits : ∀ b ∈ bs, Fits b) {fuel : Nat}
    (hfuel : (bs.flatMap blockFrame).length ≤ fuel) :
    readBlocks fuel (bs.flatMap blockFrame) = .ok bs := by
  rw [← List.append_nil (bs.flatMap blockFrame)] at hfuel ⊢
  obtain ⟨k, -, hread⟩ := readBlocks_append hfits hfuel
  rw [hread, readBlocks_nil]
  exact congrArg Except.ok (List.append_nil bs)

/-- Where a block is written, it is read as it is and fits, or only a part of its data is read. -/
theorem readBlocks_cons_cases {b : Block} {rest : List UInt8} {bs' : List Block} {fuel : Nat}
    (h : readBlocks (fuel + 1) (blockFrame b ++ rest) = .ok bs') :
    ∃ b' bs'', bs' = b' :: bs'' ∧
      ((Fits b ∧ b' = b ∧ readBlocks fuel rest = .ok bs'') ∨
        ∃ more, more ≠ [] ∧ b'.cid = b.cid ∧ b.data = b'.data ++ more) := by
  rcases readBlocks_succ_cases h with ⟨hended, -⟩ | ⟨size, rest', front, rest'', b', bs'', hsize,
    hframe, hblock, hrest, rfl⟩
  · rw [blockFrame, decode_frame] at hended
    split at hended <;> cases hended
  · refine ⟨b', bs'', rfl, ?_⟩
    rcases frame_cases hsize hframe with ⟨hfits, rfl, rfl⟩ | ⟨more, hmore, hbytes⟩
    · rw [readBlock_append] at hblock
      cases hblock
      exact .inl ⟨hfits, rfl, hrest⟩
    · exact .inr ⟨more, hmore, readBlock_part hbytes hblock⟩

/-- Blocks that have their digests are read back as they are, and fit, if what is read back has its
digests too. -/
theorem eq_of_readBlocks {datas : List (List UInt8)} (hfree : CollisionFree datas)
    {bs bs' : List Block} (hbs : ∀ b ∈ bs, b.data ∈ datas ∧ b.cid.verify b.data = .ok ())
    (hbs' : ∀ b ∈ bs', b.data ∈ datas ∧ b.cid.verify b.data = .ok ()) {fuel : Nat}
    (hfuel : (bs.flatMap blockFrame).length ≤ fuel)
    (h : readBlocks fuel (bs.flatMap blockFrame) = .ok bs') : bs' = bs ∧ ∀ b ∈ bs, Fits b := by
  induction bs generalizing bs' fuel with
  | nil => cases fuel <;> cases h <;> simp
  | cons b bs ih =>
    have hpos := length_blockFrame_pos b
    rw [List.flatMap_cons, List.length_append] at hfuel
    obtain ⟨k, rfl⟩ := Nat.exists_eq_add_of_le' (show 1 ≤ fuel by omega)
    rw [List.flatMap_cons] at h
    obtain ⟨b', bs'', rfl, hcases⟩ := readBlocks_cons_cases h
    obtain ⟨⟨hmem, hverify⟩, htail⟩ := List.forall_mem_cons.mp hbs
    obtain ⟨⟨hmem', hverify'⟩, htail'⟩ := List.forall_mem_cons.mp hbs'
    rcases hcases with ⟨hfits, rfl, hrest⟩ | ⟨more, hmore, hcid, hdata⟩
    · obtain ⟨rfl, hall⟩ := ih htail htail' (by omega) hrest
      exact ⟨rfl, List.forall_mem_cons.mpr ⟨hfits, hall⟩⟩
    · -- the part that is read back has the digest of the whole, so it is the whole
      have hequal := hfree.eq_of_verify hmem hmem' hverify (hcid ▸ hverify')
      rw [hequal] at hdata
      exact absurd (List.self_eq_append_right.mp hdata) hmore

/-- Blocks that are read back as they are fit. -/
theorem fits_of_readBlocks {bs : List Block} {fuel : Nat}
    (hfuel : (bs.flatMap blockFrame).length ≤ fuel)
    (h : readBlocks fuel (bs.flatMap blockFrame) = .ok bs) : ∀ b ∈ bs, Fits b := by
  induction bs generalizing fuel with
  | nil => exact List.forall_mem_nil _
  | cons b bs ih =>
    have hpos := length_blockFrame_pos b
    rw [List.flatMap_cons, List.length_append] at hfuel
    obtain ⟨k, rfl⟩ := Nat.exists_eq_add_of_le' (show 1 ≤ fuel by omega)
    rw [List.flatMap_cons] at h
    obtain ⟨b', bs'', hbs, hcases⟩ := readBlocks_cons_cases h
    cases hbs
    rcases hcases with ⟨hfits, -, hrest⟩ | ⟨more, hmore, -, hdata⟩
    · exact List.forall_mem_cons.mpr ⟨hfits, ih (by omega) hrest⟩
    · exact absurd (List.self_eq_append_right.mp hdata) hmore

theorem Fits.addressable {b : Block} (h : Fits b) : b.Addressable := by
  rw [Fits, List.length_append] at h
  have hmax : maxFrame < UInt64.size := by decide
  exact Nat.lt_of_le_of_lt (Nat.le_of_add_left_le h) hmax

/-! ## Archives -/

theorem toBytes_of_blocks {a : Archive} (h : a.blocks ≠ []) :
    a.toBytes = frame (writeHeader a.roots) ++ a.blocks.flatMap blockFrame := by
  rw [toBytes, if_neg (by simpa using h)]

/-- The header is read back, and then the blocks behind it. -/
theorem read_append {a : Archive} (hheader : (writeHeader a.roots).length ≤ maxFrame)
    (rest : List UInt8) :
    read (frame (writeHeader a.roots) ++ rest) =
      readBlocks rest.length rest >>= fun bs => pure { a with blocks := bs } := by
  rw [read, decode_frame_of_le hheader]
  refine (bind_of_ok (readFrame_frame hheader _)).trans ?_
  exact bind_of_ok (readHeader_writeHeader hheader)

theorem read_toBytes_eq {a : Archive} (hblocks : a.blocks ≠ [])
    (hheader : (writeHeader a.roots).length ≤ maxFrame) :
    read a.toBytes =
      readBlocks (a.blocks.flatMap blockFrame).length (a.blocks.flatMap blockFrame) >>=
        fun bs => pure { a with blocks := bs } := by
  rw [toBytes_of_blocks hblocks, read_append hheader]

/-- An archive whose frames are not too large is read back from its bytes. -/
theorem read_toBytes {a : Archive} (hblocks : a.blocks ≠ [])
    (hheader : (writeHeader a.roots).length ≤ maxFrame) (hfits : ∀ b ∈ a.blocks, Fits b) :
    read a.toBytes = .ok a := by
  rw [read_toBytes_eq hblocks hheader]
  exact bind_of_ok (readBlocks_flatMap hfits le_rfl)

theorem ofBytes_toBytes {a : Archive} (hblocks : a.blocks ≠ [])
    (hheader : (writeHeader a.roots).length ≤ maxFrame) (hfits : ∀ b ∈ a.blocks, Fits b) :
    ofBytes a.toBytes = .ok a := by
  rw [ofBytes, read_toBytes hblocks hheader hfits]
  rfl

/-- The blocks of an archive that is read back as it is fit. -/
theorem fits_of_ofBytes {a : Archive} (hblocks : a.blocks ≠ [])
    (hheader : (writeHeader a.roots).length ≤ maxFrame) (h : ofBytes a.toBytes = .ok a) :
    ∀ b ∈ a.blocks, Fits b := by
  rw [ofBytes, mapError_eq_ok, read_toBytes_eq hblocks hheader] at h
  obtain ⟨bs, hbs, h⟩ := bind_eq_ok.mp h
  have hsame : bs = a.blocks := congrArg blocks (pure_eq_ok.mp h)
  exact fits_of_readBlocks le_rfl (hsame ▸ hbs)

/-- An archive whose blocks have their digests is read back as it is, and fits, if what is read back
has its digests too. -/
theorem eq_of_ofBytes {datas : List (List UInt8)} (hfree : CollisionFree datas) {a a' : Archive}
    (hheader : (writeHeader a.roots).length ≤ maxFrame)
    (ha : ∀ b ∈ a.blocks, b.data ∈ datas ∧ b.cid.verify b.data = .ok ())
    (ha' : ∀ b ∈ a'.blocks, b.data ∈ datas ∧ b.cid.verify b.data = .ok ())
    (h : ofBytes a.toBytes = .ok a') : a' = a ∧ ∀ b ∈ a.blocks, Fits b := by
  have hblocks : a.blocks ≠ [] := by
    intro hnil
    rw [ofBytes, toBytes, hnil, List.isEmpty_nil, if_pos rfl] at h
    cases h
  rw [ofBytes, mapError_eq_ok, read_toBytes_eq hblocks hheader] at h
  obtain ⟨bs, hbs, h⟩ := bind_eq_ok.mp h
  cases h
  have hall : bs = a.blocks ∧ ∀ b ∈ a.blocks, Fits b :=
    eq_of_readBlocks hfree ha ha' le_rfl hbs
  rw [hall.1]
  exact ⟨rfl, hall.2⟩

/-! ## The bytes that are handled -/

/-- The data of an archive's blocks, as they are and as they are read back from its bytes. -/
def handled (a : Archive) : List (List UInt8) :=
  a.blocks.map Block.data ++
    match ofBytes a.toBytes with
    | .ok a' => a'.blocks.map Block.data
    | .error _ => []

theorem data_mem_handled {a : Archive} {b : Block} (h : b ∈ a.blocks) : b.data ∈ a.handled :=
  List.mem_append_left _ (List.mem_map_of_mem h)

theorem data_mem_handled_of_ofBytes {a a' : Archive} {b : Block}
    (hread : ofBytes a.toBytes = .ok a') (h : b ∈ a'.blocks) : b.data ∈ a.handled := by
  refine List.mem_append_right _ ?_
  rw [hread]
  exact List.mem_map_of_mem h

end MarketDag.Archive
