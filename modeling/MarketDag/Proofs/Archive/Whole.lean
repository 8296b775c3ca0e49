import MarketDag.Proofs.Archive.RoundTrip

/-!
# Archives are read back whole or not at all

The archive of some blocks is read back from its bytes as it is if all its blocks fit into frames,
and otherwise not at all (`read_back_iff_fits`): the first block that does not fit stops the
reading, as long as its size is one of 64 bits (`Countable`).
-/

namespace MarketDag.Archive

/-- Have the bytes of an archive a length that a machine can count with 64 bits, as all bytes in its
memory do? -/
def Addressable (a : Archive) : Prop := a.toBytes.length < UInt64.size

/-- Has a block's frame a size of 64 bits, as that of every block in a machine's memory has? -/
def Countable (b : Block) : Prop := (b.cid.toBytes ++ b.data).length < UInt64.size

/-! ## Frames that are too large -/

theorem length_le_frame (bytes : List UInt8) : bytes.length ≤ (frame bytes).length := by
  rw [frame, List.length_append]
  exact Nat.le_add_left _ _

theorem readFrame_of_large {bytes : List UInt8} (hlt : bytes.length < UInt64.size)
    (hlarge : ¬ bytes.length ≤ maxFrame) (rest : List UInt8) :
    readFrame bytes.length.toUInt64 rest = .error (.tooLarge bytes.length) := by
  have hlength := toNat_length hlt
  rw [readFrame, if_pos (hlength.symm ▸ Nat.not_le.mp hlarge), hlength]

/-! ## The first block that does not fit -/

/-- A block that does not fit stops the reading. -/
theorem readBlocks_of_large {b : Block} (hlarge : ¬ Fits b) (hcount : Countable b) (fuel : Nat)
    (rest : List UInt8) :
    readBlocks (fuel + 1) (blockFrame b ++ rest) =
      .error (.tooLarge (b.cid.toBytes ++ b.data).length) := by
  rw [readBlocks, blockFrame, decode_frame_of_lt hcount]
  exact bind_of_error (readFrame_of_large hcount hlarge _)

theorem readBlocks_of_not_fits {bs : List Block} (hlarge : ∃ b ∈ bs, ¬ Fits b)
    (hcount : ∀ b ∈ bs, Countable b) {fuel : Nat}
    (hfuel : (bs.flatMap blockFrame).length ≤ fuel) :
    ∃ size, readBlocks fuel (bs.flatMap blockFrame) = .error (.tooLarge size) := by
  induction bs generalizing fuel with
  | nil => simp at hlarge
  | cons b bs ih =>
    have hpos := length_blockFrame_pos b
    rw [List.flatMap_cons, List.length_append] at hfuel
    -- no frame is empty, so the fuel outlasts the frames
    obtain ⟨k, rfl⟩ := Nat.exists_eq_add_of_le' (show 1 ≤ fuel by omega)
    obtain ⟨hb, hbs⟩ := List.forall_mem_cons.mp hcount
    rw [List.flatMap_cons]
    by_cases hfits : Fits b
    · -- the block that is too large is a later one
      have hrest : ∃ b ∈ bs, ¬ Fits b := by simpa [hfits] using hlarge
      obtain ⟨size, hread⟩ : ∃ size,
          readBlocks k (bs.flatMap blockFrame) = .error (.tooLarge size) :=
        ih hrest hbs (by omega)
      exact ⟨size, (readBlocks_of_fits hfits k _).trans (bind_of_error hread)⟩
    · exact ⟨_, readBlocks_of_large hfits hb k _⟩

/-! ## Archives -/

theorem Addressable.countable {a : Archive} (ha : a.Addressable) :
    ∀ b ∈ a.blocks, Countable b := by
  intro b hb
  have hframe : (b.cid.toBytes ++ b.data).length ≤ (blockFrame b).length := length_le_frame _
  have hframes := Cbor.length_le_flatMap_of_mem (f := blockFrame) hb
  rw [Addressable, toBytes_of_blocks (List.ne_nil_of_mem hb), List.length_append] at ha
  rw [Countable]
  omega

/-- An archive with a small header and a block that does not fit is not read back. -/
theorem read_toBytes_of_not_fits {a : Archive} (hcount : ∀ b ∈ a.blocks, Countable b)
    (hheader : (writeHeader a.roots).length ≤ maxFrame) (hlarge : ∃ b ∈ a.blocks, ¬ Fits b) :
    ∃ size, read a.toBytes = .error (.tooLarge size) := by
  have hblocks : a.blocks ≠ [] := by
    obtain ⟨b, hb, -⟩ := hlarge
    exact List.ne_nil_of_mem hb
  obtain ⟨size, hread⟩ := readBlocks_of_not_fits hlarge hcount le_rfl
  refine ⟨size, ?_⟩
  rw [read_toBytes_eq hblocks hheader]
  exact bind_of_error hread

/-- The archive of some blocks has these blocks, at least one, and a small header. -/
theorem of_ofBlocks {bs : List Block} {a : Archive} (h : ofBlocks bs = .ok a) :
    a.blocks ≠ [] ∧ a.blocks = bs ∧ (writeHeader a.roots).length ≤ maxFrame := by
  cases bs with
  | nil => cases h
  | cons b bs =>
    cases h
    exact ⟨List.cons_ne_nil _ _, rfl, length_writeHeader_le b.cid⟩

/-- The archive of some blocks is read back as it is, or the reading fails at a frame that is too
large. -/
theorem ofBytes_toBytes_cases {bs : List Block} {a : Archive} (h : ofBlocks bs = .ok a)
    (hcount : ∀ b ∈ bs, Countable b) :
    ((∀ b ∈ bs, Fits b) ∧ ofBytes a.toBytes = .ok a) ∨
      ((∃ b ∈ bs, ¬ Fits b) ∧ ∃ size, ofBytes a.toBytes =
        .error (.unexpectedResponse (.badArchive (.tooLarge size)))) := by
  obtain ⟨hblocks, rfl, hheader⟩ := of_ofBlocks h
  by_cases hfits : ∀ b ∈ a.blocks, Fits b
  · exact .inl ⟨hfits, ofBytes_toBytes hblocks hheader hfits⟩
  · push Not at hfits
    obtain ⟨size, hread⟩ := read_toBytes_of_not_fits hcount hheader hfits
    exact .inr ⟨hfits, size, by rw [ofBytes, hread]; rfl⟩

/-- Whatever is read back has the root of the archive. -/
theorem root_of_ofBytes_toBytes {bs : List Block} {a a' : Archive} (h : ofBlocks bs = .ok a)
    (hread : ofBytes a.toBytes = .ok a') : a'.root = a.root := by
  obtain ⟨hblocks, -, hheader⟩ := of_ofBlocks h
  rw [ofBytes, mapError_eq_ok, read_toBytes_eq hblocks hheader] at hread
  obtain ⟨bs', -, hread⟩ := bind_eq_ok.mp hread
  cases hread
  rfl

/-- Only the archive itself is read back. -/
theorem eq_of_ofBytes_toBytes {bs : List Block} {a a' : Archive} (h : ofBlocks bs = .ok a)
    (ha : a.Addressable) (hread : ofBytes a.toBytes = .ok a') : a' = a := by
  have hcount : ∀ b ∈ bs, Countable b := (of_ofBlocks h).2.1 ▸ ha.countable
  rcases ofBytes_toBytes_cases h hcount with ⟨-, hself⟩ | ⟨-, size, herror⟩
  · exact Except.ok.inj (hread.symm.trans hself)
  · cases hread.symm.trans herror

/-- The archive of some blocks has the first block's identifier as its only root.  It is read back
from its bytes as it is exactly when the frame of no block is too large; otherwise nothing is read
back, and never another archive. -/
theorem read_back_iff_fits {bs : List Block} (hbs : bs ≠ []) :
    ∃ a, ofBlocks bs = .ok a ∧ a.roots = [(bs.head hbs).cid] ∧ a.blocks = bs ∧
      (ofBytes a.toBytes = .ok a ↔ ∀ b ∈ bs, (b.cid.toBytes ++ b.data).length ≤ maxFrame) ∧
      ((∀ b ∈ bs, Countable b) →
        ((∃ b ∈ bs, maxFrame < (b.cid.toBytes ++ b.data).length) →
          ∃ e, ofBytes a.toBytes = .error e ∧ e.kind = .transportFormat) ∧
        ∀ a', ofBytes a.toBytes = .ok a' → a' = a) := by
  obtain ⟨a, ha, hroots⟩ : ∃ a, ofBlocks bs = .ok a ∧ a.roots = [(bs.head hbs).cid] := by
    obtain ⟨b, bs, rfl⟩ := List.exists_cons_of_ne_nil hbs
    exact ⟨_, rfl, rfl⟩
  obtain ⟨hblocks, rfl, hheader⟩ := of_ofBlocks ha
  refine ⟨a, ha, hroots, rfl, ⟨?_, ?_⟩, fun hcount => ?_⟩
  · exact fits_of_ofBytes hblocks hheader
  · exact ofBytes_toBytes hblocks hheader
  · rcases ofBytes_toBytes_cases ha hcount with ⟨hfits, hself⟩ | ⟨-, size, herror⟩
    · refine ⟨?_, fun a' hread => Except.ok.inj (hread.symm.trans hself)⟩
      rintro ⟨x, hx, hlarge⟩
      exact absurd (hfits x hx) (Nat.not_le.mpr hlarge)
    · refine ⟨fun _ => ⟨_, herror, rfl⟩, fun a' hread => ?_⟩
      cases hread.symm.trans herror

/-- A block without data that comes twice is read back both times, but not in front of a block whose
data alone fill a frame. -/
theorem read_back_sample : ∃ (b large : Block) (a a' : Archive),
    ofBlocks [b, b] = .ok a ∧ ofBytes a.toBytes = .ok a ∧
    ofBlocks [b, b, large] = .ok a' ∧
    ∃ e, ofBytes a'.toBytes = .error e ∧ e.kind = .transportFormat := by
  obtain ⟨data, hdata⟩ : ∃ data : List UInt8, data.length = maxFrame :=
    ⟨List.replicate maxFrame 0, List.length_replicate⟩
  -- thirty-four bytes of an old identifier, with no data behind it
  let b : Block := ⟨.v0 ⟨List.replicate 32 0, rfl⟩, []⟩
  let large : Block := ⟨.v1 0 ⟨0, [], by decide⟩, data⟩
  have hb : (b.cid.toBytes ++ b.data).length = 34 := rfl
  have hlarge : (large.cid.toBytes ++ large.data).length = maxFrame + 4 := by
    simp [large, hdata, Cid.toBytes, Multihash.toBytes, Varint.encode]
  have hcount : ∀ x ∈ [b, b, large], Countable x := by
    have hsize : 34 < UInt64.size ∧ maxFrame + 4 < UInt64.size := by decide
    simp only [List.forall_mem_cons, Countable, hb, hlarge]
    exact ⟨hsize.1, hsize.1, hsize.2, List.forall_mem_nil _⟩
  obtain ⟨a, ha, -, -, hiff, -⟩ := read_back_iff_fits (List.cons_ne_nil b [b])
  obtain ⟨a', ha', -, -, -, hlimit⟩ := read_back_iff_fits (List.cons_ne_nil b [b, large])
  refine ⟨b, large, a, a', ha, hiff.mpr ?_, ha', (hlimit hcount).1 ⟨large, by simp, ?_⟩⟩
  · have hsize : 34 ≤ maxFrame := by decide
    simp only [List.forall_mem_cons, hb]
    exact ⟨hsize, hsize, List.forall_mem_nil _⟩
  · rw [hlarge]
    omega

/-! ## Lengths -/

theorem length_frame_le {bytes : List UInt8} (h : bytes.length ≤ maxFrame) :
    (frame bytes).length ≤ 2 ^ 23 := by
  have hsize : (Varint.encode bytes.length).length ≤ 4 :=
    Varint.length_encode_le (Nat.lt_of_le_of_lt h (by decide))
  rw [maxFrame] at h
  rw [frame, List.length_append]
  omega

theorem length_flatMap_le {bs : List Block} (hfits : ∀ b ∈ bs, Fits b) :
    (bs.flatMap blockFrame).length ≤ bs.length * 2 ^ 23 := by
  induction bs with
  | nil => exact Nat.zero_le _
  | cons b bs ih =>
    obtain ⟨hb, hbs⟩ := List.forall_mem_cons.mp hfits
    have hframe : (blockFrame b).length ≤ 2 ^ 23 := length_frame_le hb
    have hframes := ih hbs
    rw [List.flatMap_cons, List.length_append, List.length_cons]
    omega

/-- Blocks that fit make an archive that is small enough for any machine, unless there are very many
of them. -/
theorem addressable_of_fits {a : Archive} (hheader : (writeHeader a.roots).length ≤ maxFrame)
    (hfits : ∀ b ∈ a.blocks, Fits b) (hlength : a.blocks.length < 2 ^ 32) : a.Addressable := by
  have hframes := length_flatMap_le hfits
  have hfirst := length_frame_le hheader
  have hsize : UInt64.size = 2 ^ 64 := rfl
  rw [Addressable, toBytes]
  split
  · decide
  · rw [List.length_append]
    omega

end MarketDag.Archive
