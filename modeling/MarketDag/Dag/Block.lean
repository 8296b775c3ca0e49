import MarketDag.Cbor.Reader
import MarketDag.Cbor.Writer
import MarketDag.Error
import MarketDag.Json.Reader

/-!
# Blocks

A block is bytes under a content identifier.  A value becomes a block by way of its canonical
tree, so that equal values become equal blocks; a block is read with the codec that its identifier
names, and checked against the digest that it carries.
-/

namespace MarketDag

/-- Bytes under an identifier, which need not belong to them. -/
structure Block where
  cid : Cid
  data : List UInt8
deriving DecidableEq

/-! ## Codecs and digests -/

/-- Fails unless an identifier names a codec that can be read. -/
def Cid.ensureSupported (cid : Cid) : Except Error Unit :=
  if cid.codec = dagCbor ∨ cid.codec = dagJson then .ok ()
  else .error (.unsupportedCodec cid cid.codec)

/-- Fails unless bytes have the digest that their identifier carries. -/
def Cid.verify (cid : Cid) (data : List UInt8) : Except Error Unit :=
  if cid.hash.code ≠ Multihash.sha256Code then .error (.unsupportedCodec cid cid.hash.code)
  else if Multihash.sha256 data = cid.hash then .ok ()
  else .error (.mismatch (.ofData cid.codec data) cid)

namespace Block

/-! ## Writing -/

/-- The canonical tree of a value. -/
def canonical {α : Type} [Shaped α] (a : α) : Except Error Ipld :=
  match layout a with
  | .ok tree => .ok tree.canonical
  | .error fault => .error (.noLayout fault)

/-- The block of a canonical tree. -/
def ofCanonical (tree : Ipld) : Except Error Block :=
  if tree.isFinite then
    let data := Cbor.write tree
    .ok ⟨.ofData Cid.dagCbor data, data⟩
  else .error .notFinite

/-- The block of a tree. -/
def ofTree (tree : Ipld) : Except Error Block := ofCanonical tree.canonical

/-- The block of a value. -/
def encode {α : Type} [Shaped α] (a : α) : Except Error Block := do ofCanonical (← canonical a)

/-! ## Reading -/

/-- Reads bytes with one of two readers, by the codec that their identifier names. -/
def decodeWith {α : Type} (cid : Cid) (data : List UInt8)
    (cbor json : List UInt8 → Except DecodeFault α) : Except Error α :=
  if cid.codec = Cid.dagCbor then (cbor data).mapError .undecodable
  else if cid.codec = Cid.dagJson then (json data).mapError .undecodable
  else .error (.unsupportedCodec cid cid.codec)

/-- The tree of bytes. -/
def decodeTree (cid : Cid) (data : List UInt8) : Except Error Ipld :=
  decodeWith cid data Cbor.decodeTree Json.decodeTree

/-- The value of bytes. -/
def decode (α : Type) [Shaped α] (cid : Cid) (data : List UInt8) : Except Error α :=
  let shape := Shaped.shape α
  Shaped.ofValue <$> decodeWith cid data (Cbor.decode shape) (Json.decode shape)

end Block

end MarketDag
