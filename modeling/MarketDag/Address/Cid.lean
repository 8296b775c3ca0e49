import MarketDag.Address.Multibase
import MarketDag.Address.Multihash

/-!
# Content identifiers

A content identifier names bytes by their multihash, and says with which codec they are read.
The old form holds a SHA-256 digest and nothing else; the new one holds a codec and any
multihash.  Both have a binary form and a text.
-/

namespace MarketDag

/-- A content identifier of either form. -/
inductive Cid where
  /-- The old form: a SHA-256 digest. -/
  | v0 (digest : { bytes : List UInt8 // bytes.length = 32 })
  /-- The new form: a codec and a multihash. -/
  | v1 (codec : UInt64) (hash : Multihash)
deriving DecidableEq

namespace Cid

/-! ## Codecs -/

/-- The codec that the old form stands for. -/
def dagPb : UInt64 := 0x70

/-- The codec of concise binary trees. -/
def dagCbor : UInt64 := 0x71

/-- The codec of trees as JSON text. -/
def dagJson : UInt64 := 0x0129

/-! ## Parts -/

/-- The number of the form. -/
def version : Cid → Nat
  | .v0 _ => 0
  | .v1 _ _ => 1

/-- The codec that the named bytes are read with. -/
def codec : Cid → UInt64
  | .v0 _ => dagPb
  | .v1 codec _ => codec

/-- The multihash of the named bytes. -/
def hash : Cid → Multihash
  | .v0 digest => ⟨Multihash.sha256Code, digest.1, by rw [digest.2]; decide⟩
  | .v1 _ hash => hash

/-- The identifier of a byte string under a codec. -/
def ofData (codec : UInt64) (data : List UInt8) : Cid := .v1 codec (Multihash.sha256 data)

/-! ## Writing -/

/-- The binary form. -/
def toBytes : Cid → List UInt8
  | .v0 digest => 0x12 :: 0x20 :: digest.1
  | .v1 codec hash => Varint.encode 1 ++ Varint.encode codec.toNat ++ hash.toBytes

/-- The characters of the text: base 58 for the old form, base 32 and its code for the new. -/
def toChars (cid : Cid) : List Char :=
  match cid with
  | .v0 _ => Multibase.base58btc.encodeNumber cid.toBytes
  | .v1 _ _ => Multibase.base32Lower.code :: Multibase.base32Lower.encodeGroups 5 cid.toBytes

/-- The text. -/
def toText (cid : Cid) : String := String.ofList cid.toChars

instance : ToString Cid := ⟨toText⟩

/-! ## Reading -/

/-- Why something is no content identifier. -/
inductive Fault where
  /-- A text of fewer than two bytes. -/
  | tooShort
  /-- A base or a multihash that does not read. -/
  | badMultihash
  /-- The old form's number written where the new form has its own. -/
  | explicitV0
  /-- A number of neither form. -/
  | unknownVersion
  /-- A version or codec that is no varint. -/
  | badVarint
  /-- The bytes end inside the version or the codec. -/
  | ended
  /-- The bytes end inside the old form's digest. -/
  | shortDigest
deriving DecidableEq, Repr

/-- The wording of a fault. -/
def Fault.message : Fault → String
  | .tooShort => "Input too short"
  | .badMultihash => "Failed to parse multihash"
  | .explicitV0 => "CIDv0 cannot be specified in CIDv1 format"
  | .unknownVersion => "Unrecognized CID version"
  | .badVarint => "Failed to decode unsigned varint format"
  | .ended => "unexpected end of file"
  | .shortDigest => "failed to fill whole buffer"

/-- A number at the front of a binary form. -/
def decodeNumber (bytes : List UInt8) : Except Fault (UInt64 × List UInt8) :=
  match Varint.decode bytes with
  | .ok r => .ok r
  | .error .ended => .error .ended
  | .error _ => .error .badVarint

/-- The identifier at the front of a byte string, and the bytes after it. -/
def decode (bytes : List UInt8) : Except Fault (Cid × List UInt8) := do
  let (version, bytes) ← decodeNumber bytes
  let (codec, bytes) ← decodeNumber bytes
  if version = 0x12 ∧ codec = 0x20 then
    match Multihash.takeExactly 32 bytes with
    | some (digest, bytes) => .ok (.v0 digest, bytes)
    | none => .error .shortDigest
  else if version = 0 then .error .explicitV0
  else if version = 1 then
    match Multihash.decode? bytes with
    | some (hash, bytes) => .ok (.v1 codec hash, bytes)
    | none => .error .badMultihash
  else .error .unknownVersion

/-- The identifier at the front of a byte string; the bytes after it do not matter. -/
def ofBytes (bytes : List UInt8) : Except Fault Cid := Prod.fst <$> decode bytes

/-- The part of a path under which content is named by its identifier. -/
def gateway : List Char := "/ipfs/".toList

/-- What stands after the first `/ipfs/`, if there is one. -/
def afterGateway? : List Char → Option (List Char)
  | [] => none
  | c :: cs =>
    if gateway.isPrefixOf (c :: cs) then some ((c :: cs).drop gateway.length)
    else afterGateway? cs

/-- Reads a text: what stands after a gateway path, in base 58 if it has the old form's length
and beginning, else in the base that its first character names. -/
def ofText (s : String) : Except Fault Cid := do
  let cs := (afterGateway? s.toList).getD s.toList
  let size := (cs.flatMap Utf8.encodeChar).length
  if size < 2 then throw .tooShort
  let bytes :=
    if size = 46 ∧ cs.take 2 = ['Q', 'm'] then Multibase.base58btc.decode? cs
    else Multibase.decode? cs
  match bytes with
  | some bytes => ofBytes bytes
  | none => throw .badMultihash

end Cid

end MarketDag
