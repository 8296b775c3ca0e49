import MarketDag.Archive.Header
import MarketDag.Dag.Block

/-!
# Archives

An archive is a sequence of blocks with one or more roots.  Its bytes are frames, each with its
size in front: the header, then every block as its identifier and its data.  The header goes out
with the first block, so that an archive without blocks has no bytes.

A block store imports archives and gives blocks by their identifiers.  What else it does meanwhile
is the business of a monad.
-/

namespace MarketDag

/-- Blocks with one or more roots. -/
structure Archive where
  root : Cid
  otherRoots : List Cid
  blocks : List Block
deriving DecidableEq

namespace Archive

/-- All roots. -/
def roots (a : Archive) : List Cid := a.root :: a.otherRoots

/-- The archive of some blocks, whose root is the first of them. -/
def ofBlocks : List Block → Except Error Archive
  | [] => .error (.invalid .emptyArchive)
  | b :: bs => .ok ⟨b.cid, [], b :: bs⟩

/-! ## Writing -/

/-- Bytes with their number in front. -/
def frame (bytes : List UInt8) : List UInt8 := Varint.encode bytes.length ++ bytes

/-- The frame of a block. -/
def blockFrame (b : Block) : List UInt8 := frame (b.cid.toBytes ++ b.data)

/-- The bytes of an archive. -/
def toBytes (a : Archive) : List UInt8 :=
  if a.blocks.isEmpty then []
  else frame (writeHeader a.roots) ++ a.blocks.flatMap blockFrame

/-! ## Reading -/

/-- The first frame's bytes, and what follows it. -/
def readFrame (size : UInt64) (bytes : List UInt8) : Except Fault (List UInt8 × List UInt8) :=
  if maxFrame < size.toNat then .error (.tooLarge size.toNat)
  else
    match Multihash.takeExactly size.toNat bytes with
    | some (front, rest) => .ok (front.1, rest)
    | none => .error .ended

/-- The block of a frame's bytes. -/
def readBlock (bytes : List UInt8) : Except Fault Block :=
  match Cid.decode bytes with
  | .ok (cid, data) => .ok ⟨cid, data⟩
  | .error fault => .error (.badCid fault)

/-- The blocks of the frames up to the end, which may also come inside a frame's size; `fuel` is at
least the number of bytes. -/
def readBlocks : (fuel : Nat) → List UInt8 → Except Fault (List Block)
  | 0, _ => .ok []
  | fuel + 1, bytes =>
    match Varint.decode bytes with
    -- an end inside a size cannot be told from the end of the archive
    | .error .ended => .ok []
    | .error _ => .error .badSize
    | .ok (size, rest) => do
      let (front, rest) ← readFrame size rest
      let block ← readBlock front
      return block :: (← readBlocks fuel rest)

/-- Reads an archive. -/
def read (bytes : List UInt8) : Except Fault Archive :=
  match Varint.decode bytes with
  | .error .ended => .error .noHeaderSize
  | .error _ => .error .badSize
  | .ok (size, rest) => do
    let (front, rest) ← readFrame size rest
    let (root, otherRoots) ← readHeader front
    return ⟨root, otherRoots, ← readBlocks rest.length rest⟩

/-- The archive of some bytes. Whether the blocks' data belong to their identifiers is not looked
at. -/
def ofBytes (bytes : List UInt8) : Except Error Archive :=
  (read bytes).mapError fun fault => .unexpectedResponse (.badArchive fault)

end Archive

/-! ## Block stores -/

/-- What a block store can be asked for, in a monad. -/
structure BlockStore (m : Type → Type) where
  /-- Takes in all blocks of an archive, and tells the root that it found. -/
  importArchive : Archive → ExceptT Error m Cid
  /-- The bytes under an identifier. -/
  getBlock : Cid → ExceptT Error m (List UInt8)

end MarketDag
