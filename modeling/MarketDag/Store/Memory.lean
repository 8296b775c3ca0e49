import MarketDag.Archive.Basic
import MarketDag.Table

/-!
# A block store in memory

A store of its own, which counts how often each block is asked for.  An archive is imported from
its bytes, as it would be by a distant store, and only when all its blocks have the digests that
they claim.
-/

namespace MarketDag

/-- Blocks by their identifiers, and how often each identifier was asked for. -/
structure Memory where
  blocks : Table Cid (List UInt8) := {}
  fetches : Table Cid Nat := {}

namespace Memory

/-! ## Blocks -/

/-- The bytes under an identifier. -/
def find? (m : Memory) (cid : Cid) : Option (List UInt8) := m.blocks.get? cid

/-- The number of blocks. -/
def size (m : Memory) : Nat := m.blocks.size

/-- Without the bytes under an identifier. -/
def erase (m : Memory) (cid : Cid) : Memory := { m with blocks := m.blocks.erase cid }

/-- With these bytes under an identifier, whether or not they belong there. -/
def insert (m : Memory) (cid : Cid) (data : List UInt8) : Memory :=
  { m with blocks := (m.blocks.insert cid data).2 }

@[simp] theorem find?_erase (m : Memory) (cid x : Cid) :
    (m.erase cid).find? x = if x = cid then none else m.find? x :=
  m.blocks.get?_erase cid x

@[simp] theorem find?_insert (m : Memory) (cid x : Cid) (data : List UInt8) :
    (m.insert cid data).find? x = if x = cid then some data else m.find? x :=
  m.blocks.get?_insert cid x data

/-- With all of some blocks, later ones in place of earlier ones. -/
def insertAll (m : Memory) (bs : List Block) : Memory :=
  bs.foldl (fun m b => m.insert b.cid b.data) m

/-! ## Fetches -/

/-- How often an identifier was asked for. -/
def fetchCount (m : Memory) (cid : Cid) : Nat := (m.fetches.get? cid).getD 0

/-- With one more fetch of an identifier. -/
def countFetch (m : Memory) (cid : Cid) : Memory :=
  { m with fetches := (m.fetches.insert cid (m.fetchCount cid + 1)).2 }

@[simp] theorem fetchCount_countFetch (m : Memory) (cid x : Cid) :
    (m.countFetch cid).fetchCount x = m.fetchCount x + if x = cid then 1 else 0 := by
  rw [fetchCount, countFetch, Table.get?_insert]
  by_cases hx : x = cid <;> simp [hx, fetchCount]

@[simp] theorem find?_countFetch (m : Memory) (cid x : Cid) :
    (m.countFetch cid).find? x = m.find? x := rfl

/-! ## The store -/

/-- The path under which blocks are fetched. -/
def blockPath : String := "/api/v0/block/get"

/-- The error for a block that is not there. -/
def missing (cid : Cid) : Error :=
  .refused .notFound .post blockPath s!"block {cid} not found"

/-- The archive that is read back from an archive's bytes, if every block has its digest. -/
def accept (a : Archive) : Except Error Archive := do
  let a ← Archive.ofBytes a.toBytes
  a.blocks.forM fun b => b.cid.verify b.data
  return a

/-- Memory as a block store. -/
def store : BlockStore (StateM Memory) where
  importArchive a := do
    let a ← (accept a : Except Error Archive)
    modifyThe Memory (·.insertAll a.blocks)
    return a.root
  getBlock cid := do
    modifyThe Memory (·.countFetch cid)
    match (← getThe Memory).find? cid with
    | some data => return data
    | none => throw (missing cid)

end Memory

end MarketDag
