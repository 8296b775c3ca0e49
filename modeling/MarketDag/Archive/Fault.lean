import MarketDag.Address.Cid

/-!
# Faults of archives

Why a byte string is no archive.
-/

namespace MarketDag.Archive

/-- The most bytes of a frame. -/
def maxFrame : Nat := 4194304

/-- Why a byte string is no archive. -/
inductive Fault where
  /-- No bytes for the size of the header. -/
  | noHeaderSize
  /-- A size that is no varint. -/
  | badSize
  | tooLarge (size : Nat)
  /-- The bytes end inside a frame. -/
  | ended
  /-- A header that does not read. -/
  | badHeader
  /-- A header without roots. -/
  | noRoots
  | badVersion
  /-- A frame that does not start with an identifier. -/
  | badCid (fault : Cid.Fault)
deriving DecidableEq, Repr

/-- The wording of a fault of reading, before its detail. -/
def unreadable : String := "Failed to parse CAR file"

/-- The wording of a fault. -/
def Fault.message : Fault → String
  | .noHeaderSize => unreadable ++ ": failed to parse uvarint for header"
  | .badSize => unreadable
  | .tooLarge size => s!"ld read too large {size}"
  | .ended => unreadable ++ ": early eof"
  | .badHeader => unreadable
  | .noRoots => unreadable ++ ": empty CAR file"
  | .badVersion => "Invalid CAR file: Only CAR file version 1 is supported"
  | .badCid .ended => unreadable
  | .badCid fault => unreadable ++ ": " ++ fault.message

end MarketDag.Archive
