import MarketDag.Proofs.Archive.Whole

/-!
# Archives that are cut off

The bytes of an archive may be cut off inside the header, inside a frame's size or inside what the
frame holds (`isCut_toBytes`).  The first and the last are noticed, but a cut inside a size is taken
for the end of the archive, as one between two frames is (`ofBytes_of_cut`): the frame is lost
without an error (`not_fails_inside_frames`).
-/

namespace MarketDag.Archive

/-! ## Parts of byte strings -/

/-- Is a byte string what is left of another one when some bytes are cut off at the end? -/
def IsCut (part whole : List UInt8) : Prop := ∃ more, more ≠ [] ∧ part ++ more = whole

theorem IsCut.length_lt {part whole : List UInt8} (h : IsCut part whole) :
    part.length < whole.length := by
  obtain ⟨more, hmore, rfl⟩ := h
  have hpos := List.length_pos_iff.mpr hmore
  rw [List.length_append]
  omega

theorem isCut_nil {whole : List UInt8} (h : whole ≠ []) : IsCut [] whole :=
  ⟨whole, h, List.nil_append whole⟩

theorem IsCut.append {part whole : List UInt8} (h : IsCut part whole) (back : List UInt8) :
    IsCut part (whole ++ back) := by
  obtain ⟨more, hmore, rfl⟩ := h
  exact ⟨more ++ back, by simp [hmore], (List.append_assoc ..).symm⟩

/-- The cut is inside the front, or behind it in the back. -/
theorem isCut_append {part front back : List UInt8} :
    IsCut part (front ++ back) ↔
      IsCut part front ∨ ∃ rest, part = front ++ rest ∧ IsCut rest back := by
  constructor
  · rintro ⟨more, hmore, h⟩
    rcases List.append_eq_append_iff.mp h with ⟨as, hfront, -⟩ | ⟨bs, hpart, hback⟩
    · by_cases has : as = []
      · -- the cut is at the end of the front
        subst has
        rw [List.append_nil] at hfront
        subst hfront
        exact .inr ⟨[], (List.append_nil _).symm, more, hmore, List.append_cancel_left h⟩
      · exact .inl ⟨as, has, hfront.symm⟩
    · exact .inr ⟨bs, hpart, more, hmore, hback.symm⟩
  · rintro (h | ⟨rest, rfl, more, hmore, rfl⟩)
    · exact h.append back
    · exact ⟨more, hmore, List.append_assoc ..⟩

theorem isCut_flatMap {bs : List Block} {part : List UInt8} :
    IsCut part (bs.flatMap blockFrame) ↔
      ∃ before b after rest, bs = before ++ b :: after ∧ IsCut rest (blockFrame b) ∧
        part = before.flatMap blockFrame ++ rest := by
  constructor
  · intro h
    induction bs generalizing part with
    | nil => exact absurd h.length_lt (Nat.not_lt_zero _)
    | cons b bs ih =>
      rw [List.flatMap_cons] at h
      rcases isCut_append.mp h with hfront | ⟨rest, rfl, hrest⟩
      · exact ⟨[], b, bs, part, rfl, hfront, rfl⟩
      · obtain ⟨before, x, after, rest', rfl, hcut, rfl⟩ := ih hrest
        refine ⟨b :: before, x, after, rest', rfl, hcut, ?_⟩
        rw [List.flatMap_cons, List.append_assoc]
  · rintro ⟨before, b, after, rest, rfl, hcut, rfl⟩
    rw [List.flatMap_append, List.flatMap_cons]
    exact isCut_append.mpr (.inr ⟨rest, rfl, hcut.append _⟩)

/-! ## Frames -/

/-- The bytes of a block's frame that say how long it is. -/
def sizeBytes (b : Block) : List UInt8 := Varint.encode (b.cid.toBytes ++ b.data).length

theorem decode_of_isCut_size {bytes part : List UInt8} (hsize : bytes.length ≤ maxFrame)
    (h : IsCut part (Varint.encode bytes.length)) : Varint.decode part = .error .ended := by
  obtain ⟨more, hmore, hpart⟩ := h
  exact Varint.decode_of_cut (lt_of_le_maxFrame hsize) hpart hmore

theorem decode_size_append {bytes : List UInt8} (hsize : bytes.length ≤ maxFrame)
    (rest : List UInt8) :
    Varint.decode (Varint.encode bytes.length ++ rest) = .ok (bytes.length.toUInt64, rest) := by
  have hlt := Nat.lt_trans (lt_of_le_maxFrame hsize) (show UInt64.size < 2 ^ 70 by decide)
  rw [Varint.decode_encode_append, if_pos hlt]

/-- A frame whose bytes are cut off behind its size is not read. -/
theorem readFrame_of_isCut {bytes part : List UInt8} (hsize : bytes.length ≤ maxFrame)
    (h : IsCut part bytes) : readFrame bytes.length.toUInt64 part = .error .ended := by
  have hlength := toNat_length (lt_of_le_maxFrame hsize)
  have hnone : Multihash.takeExactly bytes.length.toUInt64.toNat part = none := by
    have hshort := h.length_lt
    refine dif_neg ?_
    rw [hlength, List.length_take]
    omega
  rw [readFrame, if_neg (Nat.not_lt.mpr (hlength.trans_le hsize)), hnone]

/-! ## Blocks -/

/-- A cut inside a frame's size ends the reading. -/
theorem readBlocks_of_isCut_size {b : Block} (hfits : Fits b) {part : List UInt8}
    (h : IsCut part (sizeBytes b)) (fuel : Nat) : readBlocks fuel part = .ok [] := by
  cases fuel with
  | zero => rfl
  | succ fuel => rw [readBlocks, decode_of_isCut_size hfits h]

/-- A cut behind a frame's size is noticed. -/
theorem readBlocks_of_isCut_content {b : Block} (hfits : Fits b) {part : List UInt8}
    (h : IsCut part (b.cid.toBytes ++ b.data)) {fuel : Nat}
    (hfuel : (sizeBytes b ++ part).length ≤ fuel) :
    readBlocks fuel (sizeBytes b ++ part) = .error .ended := by
  have hpos := List.length_pos_iff.mpr (Varint.encode_ne_nil (b.cid.toBytes ++ b.data).length)
  rw [← sizeBytes] at hpos
  rw [List.length_append] at hfuel
  obtain ⟨k, rfl⟩ := Nat.exists_eq_add_of_le' (show 1 ≤ fuel by omega)
  rw [readBlocks, sizeBytes, decode_size_append hfits]
  exact bind_of_error (readFrame_of_isCut hfits h)

/-! ## Archives -/

/-- The bytes of an archive up to the end of some of its blocks. -/
def bytesTo (a : Archive) (before : List Block) : List UInt8 :=
  frame (writeHeader a.roots) ++ before.flatMap blockFrame

variable {a : Archive}

/-- A cut is inside the header, or inside the frame of some block. -/
theorem isCut_toBytes (hblocks : a.blocks ≠ []) {part : List UInt8} :
    IsCut part a.toBytes ↔
      IsCut part (frame (writeHeader a.roots)) ∨
        ∃ before b after rest, a.blocks = before ++ b :: after ∧ IsCut rest (blockFrame b) ∧
          part = a.bytesTo before ++ rest := by
  rw [toBytes_of_blocks hblocks, isCut_append]
  refine or_congr_right ?_
  constructor
  · rintro ⟨rest, rfl, h⟩
    obtain ⟨before, b, after, rest, hsplit, hcut, rfl⟩ := isCut_flatMap.mp h
    exact ⟨before, b, after, rest, hsplit, hcut, (List.append_assoc ..).symm⟩
  · rintro ⟨before, b, after, rest, hsplit, hcut, rfl⟩
    exact ⟨_, List.append_assoc .., isCut_flatMap.mpr ⟨before, b, after, rest, hsplit, hcut, rfl⟩⟩

section

variable (hheader : (writeHeader a.roots).length ≤ maxFrame)

include hheader

/-- A cut inside the header is noticed. -/
theorem ofBytes_of_isCut_header {part : List UInt8}
    (h : IsCut part (frame (writeHeader a.roots))) :
    ∃ fault, ofBytes part = .error (.unexpectedResponse (.badArchive fault)) := by
  rcases isCut_append.mp h with hsize | ⟨rest, rfl, hcontent⟩
  · exact ⟨.noHeaderSize, by rw [ofBytes, read, decode_of_isCut_size hheader hsize]; rfl⟩
  · have hread : read (Varint.encode (writeHeader a.roots).length ++ rest) = .error .ended := by
      rw [read, decode_size_append hheader]
      exact bind_of_error (readFrame_of_isCut hheader hcontent)
    exact ⟨.ended, by rw [ofBytes, hread]; rfl⟩

variable {before : List Block} (hbefore : ∀ b ∈ before, Fits b)

include hbefore

/-- Behind blocks that fit, the reading of an archive is that of what follows. -/
theorem read_bytesTo_append (rest : List UInt8) :
    ∃ k, rest.length ≤ k ∧ read (a.bytesTo before ++ rest) =
      readBlocks k rest >>= fun more => pure { a with blocks := before ++ more } := by
  obtain ⟨k, hk, hread⟩ := readBlocks_append hbefore (le_refl (_ ++ rest).length)
  refine ⟨k, hk, ?_⟩
  rw [bytesTo, List.append_assoc, read_append hheader, hread]
  cases readBlocks k rest <;> rfl

variable {b : Block} (hfits : Fits b) {part : List UInt8}

include hfits

theorem ofBytes_of_isCut_size (h : IsCut part (sizeBytes b)) :
    ofBytes (a.bytesTo before ++ part) = .ok { a with blocks := before } := by
  obtain ⟨k, -, hread⟩ := read_bytesTo_append hheader hbefore part
  rw [readBlocks_of_isCut_size hfits h] at hread
  rw [ofBytes, hread]
  exact congrArg (fun bs => Except.ok { a with blocks := bs }) (List.append_nil before)

theorem ofBytes_of_isCut_content (h : IsCut part (b.cid.toBytes ++ b.data)) :
    ofBytes (a.bytesTo before ++ (sizeBytes b ++ part)) =
      .error (.unexpectedResponse (.badArchive .ended)) := by
  obtain ⟨k, hk, hread⟩ := read_bytesTo_append hheader hbefore (sizeBytes b ++ part)
  rw [readBlocks_of_isCut_content hfits h hk] at hread
  rw [ofBytes, hread]
  rfl

end

/-- Of an archive that is cut off inside its header, or inside a frame behind the frame's size,
nothing is read.  If it is cut off between two frames, or inside a frame's size, then the archive
with the blocks of the whole frames is read.  There are no other cuts. -/
theorem ofBytes_of_cut (hblocks : a.blocks ≠ [])
    (hheader : (writeHeader a.roots).length ≤ maxFrame) (hfits : ∀ b ∈ a.blocks, Fits b) :
    (∀ part, IsCut part (frame (writeHeader a.roots)) →
      ∃ e, ofBytes part = .error e ∧ e.kind = .transportFormat) ∧
    (∀ before b after part, a.blocks = before ++ b :: after → IsCut part (blockFrame b) →
      (part.length < (sizeBytes b).length →
        ofBytes (a.bytesTo before ++ part) = .ok { a with blocks := before }) ∧
      ((sizeBytes b).length ≤ part.length →
        ∃ e, ofBytes (a.bytesTo before ++ part) = .error e ∧ e.kind = .transportFormat)) ∧
    ∀ part, IsCut part a.toBytes ↔
      IsCut part (frame (writeHeader a.roots)) ∨
        ∃ before b after rest, a.blocks = before ++ b :: after ∧ IsCut rest (blockFrame b) ∧
          part = a.bytesTo before ++ rest := by
  refine ⟨fun part h => ?_, fun before b after part hsplit h => ?_, fun _ => isCut_toBytes hblocks⟩
  · obtain ⟨fault, hread⟩ := ofBytes_of_isCut_header hheader h
    exact ⟨_, hread, rfl⟩
  · rw [hsplit, List.forall_mem_append, List.forall_mem_cons] at hfits
    obtain ⟨hbefore, hb, -⟩ := hfits
    -- a frame is its size and its content, and a cut is inside one of them
    rcases isCut_append.mp h with hsize | ⟨rest, rfl, hcontent⟩
    · refine ⟨fun _ => ofBytes_of_isCut_size hheader hbefore hb hsize, fun hle => ?_⟩
      exact absurd hsize.length_lt (Nat.not_lt.mpr hle)
    · refine ⟨fun hlt => ?_, fun _ => ?_⟩
      · rw [← sizeBytes, List.length_append] at hlt
        omega
      · exact ⟨_, ofBytes_of_isCut_content hheader hbefore hb hcontent, rfl⟩

/-! ## A frame that is lost -/

/-- A block of which the frame has a size of two bytes. -/
def longBlock : Block := ⟨.v0 ⟨List.replicate 32 0, rfl⟩, List.replicate 94 0⟩

/-- An archive of two such blocks. -/
def twoLongBlocks : Archive := ⟨longBlock.cid, [], [longBlock, longBlock]⟩

theorem sizeBytes_longBlock : sizeBytes longBlock = [0x80, 0x01] := by
  have hlength : (longBlock.cid.toBytes ++ longBlock.data).length = 128 := rfl
  rw [sizeBytes, hlength]
  simp [Varint.encode]

theorem blockFrame_longBlock :
    blockFrame longBlock = [0x80, 0x01] ++ (longBlock.cid.toBytes ++ longBlock.data) := by
  rw [← sizeBytes_longBlock]
  rfl

theorem fits_longBlock : Fits longBlock := by
  have hlength : (longBlock.cid.toBytes ++ longBlock.data).length = 128 := rfl
  rw [Fits, hlength]
  decide

/-- The archive of two long blocks is not read if the cut is at its beginning or behind a size.  At
the end of the header it is read without blocks, and inside the second size with the first block. -/
theorem ofBytes_of_cut_sample :
    (∃ e, ofBytes [] = .error e ∧ e.kind = .transportFormat) ∧
    ofBytes (twoLongBlocks.bytesTo [] ++ []) = .ok { twoLongBlocks with blocks := [] } ∧
    ofBytes (twoLongBlocks.bytesTo [longBlock] ++ [0x80]) =
      .ok { twoLongBlocks with blocks := [longBlock] } ∧
    (∃ e, ofBytes (twoLongBlocks.bytesTo [longBlock] ++ [0x80, 0x01]) = .error e ∧
      e.kind = .transportFormat) ∧
    IsCut (twoLongBlocks.bytesTo [longBlock] ++ [0x80]) twoLongBlocks.toBytes := by
  have hcut : ∀ front back, back ≠ [] → front ++ back = [0x80, 0x01] →
      IsCut front (blockFrame longBlock) := by
    intro front back hback hsize
    rw [blockFrame_longBlock, ← hsize]
    exact IsCut.append ⟨back, hback, rfl⟩ _
  have hcontent : IsCut [0x80, 0x01] (blockFrame longBlock) := by
    rw [blockFrame_longBlock]
    exact isCut_append.mpr (.inr ⟨[], rfl, isCut_nil (List.cons_ne_nil _ _)⟩)
  obtain ⟨hheader, hframes, hcuts⟩ := ofBytes_of_cut (a := twoLongBlocks) (List.cons_ne_nil _ _)
    (length_writeHeader_le _) (by simp [twoLongBlocks, fits_longBlock])
  have hfirst := hframes [] longBlock [longBlock] [] rfl (hcut [] _ (List.cons_ne_nil _ _) rfl)
  have hinside := hframes [longBlock] longBlock [] [0x80] rfl (hcut _ [0x01] (by simp) rfl)
  have hbehind := hframes [longBlock] longBlock [] [0x80, 0x01] rfl hcontent
  rw [sizeBytes_longBlock] at hfirst hinside hbehind
  refine ⟨hheader [] (isCut_nil ?_), hfirst.1 (by decide), hinside.1 (by decide),
    hbehind.2 le_rfl, (hcuts _).mpr (.inr ⟨[longBlock], longBlock, [], [0x80], rfl, ?_, rfl⟩)⟩
  · simp [frame, Varint.encode_ne_nil]
  · exact hcut _ [0x01] (by simp) rfl

/-- Not every cut inside a frame is noticed: one inside the second size is not. -/
theorem not_fails_inside_frames :
    ¬ ∀ (a : Archive) (before after : List Block) (b : Block) (part : List UInt8),
      a.blocks = before ++ b :: after → (writeHeader a.roots).length ≤ maxFrame →
      (∀ x ∈ a.blocks, Fits x) → part ≠ [] → IsCut part (blockFrame b) →
      ∃ e, ofBytes (a.bytesTo before ++ part) = .error e := by
  intro hfails
  have hsize : IsCut [0x80] (sizeBytes longBlock) := by
    rw [sizeBytes_longBlock]
    exact ⟨[0x01], List.cons_ne_nil _ _, rfl⟩
  have hfits : ∀ x ∈ twoLongBlocks.blocks, Fits x := by simp [twoLongBlocks, fits_longBlock]
  obtain ⟨e, herror⟩ := hfails twoLongBlocks [longBlock] [] longBlock [0x80] rfl
    (length_writeHeader_le _) hfits (List.cons_ne_nil _ _) (hsize.append _)
  have hbefore : ∀ x ∈ [longBlock], Fits x := by simp [fits_longBlock]
  have hread := ofBytes_of_isCut_size (a := twoLongBlocks) (length_writeHeader_le _) hbefore
    fits_longBlock hsize
  cases hread.symm.trans herror

end MarketDag.Archive
