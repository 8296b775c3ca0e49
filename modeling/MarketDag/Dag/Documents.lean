import MarketDag.Dag.Block
import MarketDag.Document.Validation

/-!
# Documents as blocks

A document is written as the block of its body, and read as a document of a given kind.
-/

namespace MarketDag

namespace Document

/-- The canonical tree of a document. -/
def canonical (d : Document) : Except Error Ipld := Block.canonical d.body

/-- The block of a document. -/
def encode (d : Document) : Except Error Block := Block.encode d.body

end Document

namespace Kind

/-- The document of a kind in some bytes, which may break rules. -/
def decodeRaw (k : Kind) (cid : Cid) (data : List UInt8) : Except Error Document :=
  (⟨k, ·⟩) <$> Block.decode k.Body cid data

/-- The document of a kind in some bytes, if it keeps the rules. Whether the bytes belong to the
identifier is not looked at. -/
def decode (k : Kind) (cid : Cid) (data : List UInt8) : Except Error Document := do
  let d ← k.decodeRaw cid data
  d.validate.mapError .invalid
  return d

end Kind

/-- A document of one family. -/
abbrev DocumentIn (f : Family) := { d : Document // d.family = f }

/-- A document as one of a family. -/
def Document.into (f : Family) (d : Document) : Except Error (DocumentIn f) :=
  if h : d.family = f then .ok ⟨d, h⟩ else .error (.invalid (.wrongFamily f d.family))

end MarketDag
