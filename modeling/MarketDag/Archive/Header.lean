import MarketDag.Archive.Fault
import MarketDag.Cbor.Reader
import MarketDag.Cbor.Writer

/-!
# Headers of archives

The header of an archive is a binary tree: a map with its roots and its version.  Other entries of
the map do not matter.
-/

namespace MarketDag.Archive

/-- The version of all archives. -/
def version : Nat := 1

/-- The bytes of a header with these roots. -/
def writeHeader (roots : List Cid) : List UInt8 :=
  Cbor.write (.map [("roots", .list (roots.map .link)), ("version", .integer version)])

/-- The entries of a header that were read so far. -/
structure HeaderSlots where
  roots : Option (List Cid) := none
  version : Option Nat := none

/-- Reads the value of one entry. -/
def readEntry (key : String) (slots : HeaderSlots) : Cbor.Read HeaderSlots := fun depth => do
  if key = "roots" then
    if slots.roots.isSome then Cbor.malformed
    else
      let roots ← Cbor.source.list Cbor.readLink depth
      return { slots with roots := some roots }
  else if key = "version" then
    if slots.version.isSome then Cbor.malformed
    else
      let number ← Cbor.readHead .unsigned
      return { slots with version := some number }
  else
    let _ ← Cbor.readBuffered depth
    return slots

/-- The roots and the version of a header. -/
def readHeaderTree : Cbor.Read (List Cid × Nat) :=
  Cbor.source.record "" [] {} readEntry fun _ slots =>
    match slots.roots, slots.version with
    | some roots, some number => .ok (roots, number)
    | _, _ => .error .malformed

/-- The first root of a header, and the other ones. -/
def readHeader (bytes : List UInt8) : Except Fault (Cid × List Cid) :=
  match Cbor.readAll (readHeaderTree Cbor.maxDepth) bytes with
  | .error _ => .error .badHeader
  | .ok ([], _) => .error .noRoots
  | .ok (root :: roots, number) =>
    if number = version then .ok (root, roots) else .error .badVersion

end MarketDag.Archive
