import MarketDag.Proofs.Archive.RoundTrip
import MarketDag.Proofs.Cbor.Length

/-!
# Archives that were read

Whatever bytes an archive is read from, it has a root, and it is read back from the bytes that it is
written with unless it has no blocks (`ofBytes_stable`).  An archive without blocks is read from the
frame of a header alone, but is written without any bytes, of which nothing is read.  What is read
from frames that are not too large is written in such frames, since nothing is read from fewer bytes
than it is written with.
-/

namespace MarketDag.Archive

/-! ## Headers -/

/-- How many bytes the list of some roots takes where it is written. -/
def rootsCost (roots : List Cid) : Nat :=
  (Cbor.writeHead .list roots.length).length + (roots.flatMap Cbor.writeLink).length

namespace HeaderSlots

/-- How many bytes the entries that were read take where they are written. -/
def cost (slots : HeaderSlots) : Nat :=
  (slots.roots.elim 0 fun roots => 6 + rootsCost roots) + slots.version.elim 0 fun _ => 9

theorem cost_roots {slots : HeaderSlots} (h : slots.roots = none) (roots : List Cid) :
    cost { slots with roots := some roots } = slots.cost + (6 + rootsCost roots) := by
  rw [cost, cost, h]
  simp only [Option.elim]
  omega

theorem cost_version {slots : HeaderSlots} (h : slots.version = none) (number : Nat) :
    cost { slots with version := some number } = slots.cost + 9 := by
  rw [cost, cost, h]
  rfl

end HeaderSlots

/-- The entries of a whole header take fifteen bytes besides its roots. -/
theorem cost_of_finish {slots : HeaderSlots} {roots : List Cid} {number : Nat}
    (h : (match slots.roots, slots.version with
      | some roots, some number => .ok (roots, number)
      | _, _ => .error .malformed : Except DecodeFault (List Cid × Nat)) = .ok (roots, number)) :
    slots.cost = rootsCost roots + 15 := by
  split at h
  · rename_i hroots hversion
    cases h
    rw [HeaderSlots.cost, hroots, hversion]
    simp only [Option.elim]
    omega
  · cases h

/-- An entry takes its key and its value. -/
theorem takes_readEntry (depth : Nat) (key : String) (slots : HeaderSlots) :
    Cbor.Takes (1 + key.length + slots.cost) HeaderSlots.cost
      ((readEntry key slots).run depth) := by
  change Cbor.Takes _ _ (readEntry key slots depth)
  unfold readEntry
  split
  · rename_i hkey
    split
    · exact Cbor.takes_malformed
    · rename_i hnone
      rw [Option.not_isSome_iff_eq_none] at hnone
      have hlist : Cbor.Takes 0 rootsCost (Cbor.source.list Cbor.readLink depth) :=
        Cbor.takes_list depth Cbor.takes_readLink
      -- the roots are written under this key again, and the entry pays for them
      refine (hlist.after _).bind fun roots => Cbor.takes_pure ?_
      have hlength : key.length = 5 := hkey ▸ rfl
      rw [HeaderSlots.cost_roots hnone, hlength]
      omega
  split
  · rename_i hkey
    split
    · exact Cbor.takes_malformed
    · rename_i hnone
      rw [Option.not_isSome_iff_eq_none] at hnone
      have hnumber : Cbor.Takes 0 (fun _ => 1) (Cbor.readHead .unsigned) :=
        (Cbor.takes_readHead .unsigned).mono fun n =>
          List.length_pos_iff.mpr (Cbor.writeHead_ne_nil .unsigned n)
      refine (hnumber.after _).bind fun number => Cbor.takes_pure ?_
      have hlength : key.length = 7 := hkey ▸ rfl
      rw [HeaderSlots.cost_version hnone, hlength]
      omega
  · -- an unknown entry is not written again
    refine ((Cbor.shrinks_readBuffered depth).after _).bind fun _ => Cbor.takes_pure ?_
    rw [Nat.zero_add]
    exact Nat.le_add_left _ _

theorem takes_readHeaderTree (depth : Nat) :
    Cbor.Takes 0 (fun header => rootsCost header.1 + 16) (readHeaderTree depth) := by
  cases depth with
  | zero => exact Cbor.takes_malformed
  | succ depth =>
    rintro bytes ⟨roots, number⟩ rest h
    obtain ⟨n, mid, hmap, h⟩ := Cbor.read_bind_eq_ok.mp h
    obtain ⟨slots, last, hfields, hfinish⟩ := Cbor.read_bind_eq_ok.mp h
    obtain ⟨hheader, rfl⟩ := Cbor.ofExcept_eq_ok.mp hfinish
    have hhead : (Cbor.writeHead .map n).length + mid.length ≤ 0 + bytes.length :=
      Cbor.takes_readHead .map _ _ _ hmap
    have hpos := List.length_pos_iff.mpr (Cbor.writeHead_ne_nil .map n)
    have hslots : slots.cost + last.length ≤ 0 + mid.length :=
      Cbor.takes_readFields (takes_readEntry depth) n {} _ _ _ hfields
    have hcost := cost_of_finish hheader
    change rootsCost roots + 16 + last.length ≤ 0 + bytes.length
    omega

/-- A header is written with no more bytes than it was read from. -/
theorem length_writeHeader_le_of_readHeader {bytes : List UInt8} {root : Cid}
    {otherRoots : List Cid} (h : readHeader bytes = .ok (root, otherRoots)) :
    (writeHeader (root :: otherRoots)).length ≤ bytes.length := by
  unfold readHeader at h
  split at h
  · cases h
  · cases h
  · rename_i number htree
    split at h
    · cases h
      have hcost : rootsCost (root :: otherRoots) + 16 + 0 ≤ 0 + bytes.length :=
        takes_readHeaderTree _ _ _ _ (Cbor.run_of_readAll htree)
      rw [length_writeHeader]
      rw [rootsCost] at hcost
      omega
    · cases h

/-! ## Blocks -/

/-- A block that was read from a frame that is not too large fits into one. -/
theorem fits_of_readBlock {bytes : List UInt8} {b : Block} (h : readBlock bytes = .ok b)
    (hsize : bytes.length ≤ maxFrame) : Fits b := by
  have hlength := Cid.length_toBytes_le_of_decode (decode_of_readBlock h)
  rw [Fits, List.length_append]
  exact hlength.trans hsize

theorem fits_of_mem_readBlocks {fuel : Nat} {bytes : List UInt8} {bs : List Block}
    (h : readBlocks fuel bytes = .ok bs) : ∀ b ∈ bs, Fits b := by
  induction fuel generalizing bytes bs with
  | zero =>
    cases h
    exact List.forall_mem_nil _
  | succ fuel ih =>
    rcases readBlocks_succ_cases h with ⟨-, rfl⟩ | ⟨size, rest, front, rest', b, bs', -, hframe,
      hblock, hrest, rfl⟩
    · exact List.forall_mem_nil _
    · obtain ⟨hsize, hlength, -⟩ := readFrame_eq_ok hframe
      exact List.forall_mem_cons.mpr ⟨fits_of_readBlock hblock (hlength ▸ hsize), ih hrest⟩

/-! ## Archives -/

/-- The frames of an archive that was read are not too large. -/
theorem fits_of_read {bytes : List UInt8} {a : Archive} (h : read bytes = .ok a) :
    (writeHeader a.roots).length ≤ maxFrame ∧ ∀ b ∈ a.blocks, Fits b := by
  unfold read at h
  split at h
  · cases h
  · cases h
  · obtain ⟨⟨front, rest⟩, hframe, h⟩ := bind_eq_ok.mp h
    obtain ⟨⟨root, otherRoots⟩, hheader, h⟩ := bind_eq_ok.mp h
    obtain ⟨bs, hblocks, h⟩ := bind_eq_ok.mp h
    cases h
    obtain ⟨hsize, hlength, -⟩ := readFrame_eq_ok hframe
    exact ⟨(length_writeHeader_le_of_readHeader hheader).trans (hlength ▸ hsize),
      fits_of_mem_readBlocks hblocks⟩

theorem toBytes_of_nil {a : Archive} (h : a.blocks = []) : a.toBytes = [] := by
  rw [toBytes, h, List.isEmpty_nil, if_pos rfl]

/-- The frame of a header alone is read as an archive without blocks. -/
theorem ofBytes_frame_header {a : Archive} (h : a.blocks = [])
    (hheader : (writeHeader a.roots).length ≤ maxFrame) :
    ofBytes (frame (writeHeader a.roots)) = .ok a := by
  have hread := read_append hheader []
  rw [List.append_nil, List.length_nil, readBlocks_nil] at hread
  rw [ofBytes, hread]
  exact congrArg (fun bs => Except.ok { a with blocks := bs }) h.symm

/-- An archive is read from bytes, or they are refused.  An archive that was read has a root, and
if it has blocks it is read back from its own bytes; if it has none, its own bytes are none and are
refused. -/
theorem ofBytes_stable (bytes : List UInt8) :
    (∃ e, ofBytes bytes = .error e ∧ e.kind = .transportFormat) ∨
      ∃ a, ofBytes bytes = .ok a ∧ a.roots ≠ [] ∧
        (a.blocks ≠ [] → ofBytes a.toBytes = .ok a) ∧
        (a.blocks = [] → a.toBytes = [] ∧
          ∃ e, ofBytes a.toBytes = .error e ∧ e.kind = .transportFormat) := by
  cases hread : read bytes with
  | error fault => exact .inl ⟨_, by rw [ofBytes, hread]; rfl, rfl⟩
  | ok a =>
    obtain ⟨hheader, hfits⟩ := fits_of_read hread
    refine .inr ⟨a, by rw [ofBytes, hread]; rfl, List.cons_ne_nil _ _, fun hblocks => ?_,
      fun hnone => ?_⟩
    · exact ofBytes_toBytes hblocks hheader hfits
    · rw [toBytes_of_nil hnone]
      exact ⟨rfl, _, rfl, rfl⟩

/-- The frame of a header alone is read as an archive without blocks, which is not read back. -/
theorem not_stable :
    ¬ ∀ bytes, (∃ e, ofBytes bytes = .error e ∧ e.kind = .transportFormat) ∨
      ∃ a, ofBytes bytes = .ok a ∧ a.roots ≠ [] ∧ ofBytes a.toBytes = .ok a := by
  intro hstable
  let cid : Cid := .v0 ⟨List.replicate 32 0, rfl⟩
  have hread : ofBytes (frame (writeHeader [cid])) = .ok ⟨cid, [], []⟩ :=
    ofBytes_frame_header (a := ⟨cid, [], []⟩) rfl (length_writeHeader_le cid)
  rcases hstable (frame (writeHeader [cid])) with ⟨e, herror, -⟩ | ⟨a, hok, -, hback⟩
  · cases hread.symm.trans herror
  · cases hread.symm.trans hok
    cases hback

end MarketDag.Archive
