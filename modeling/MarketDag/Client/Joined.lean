import MarketDag.Client

/-!
# Downloads that ask for all documents at once

Over a network a client does not wait for one document before it asks for the next.  Once the kinds
of all documents are known it asks for all four blocks; they are delivered in any order, each is
read when it comes, and the first that is refused ends the download.  A store in memory answers at
once, so that there the documents come one after the other, as in `Client.download`.
-/

namespace MarketDag

/-- Reads the block of a link as a document of the link's kind, and checks it. -/
def ResolvedLink.accept {slot : Family} (link : ResolvedLink slot) (data : List UInt8) :
    Except Error Document := do
  let document ← link.kind.decode link.data data
  link.data.verify data
  return document

/-! ## Arrivals -/

/-- The documents that have come so far. -/
abbrev Arrivals := Slots fun _ => Option Document

namespace Arrivals

/-- Nothing has come yet. -/
def empty : Arrivals := .ofFn fun _ => none

/-- With the document of a slot. -/
def put (arrivals : Arrivals) (slot : Family) (document : Document) : Arrivals :=
  .ofFn fun f => if f = slot then some document else arrivals.get f

/-- The block of a slot is delivered, or that there is none. -/
def deliver (links : Slots ResolvedLink) (blocks : Slots fun _ => Except Error (List UInt8))
    (arrivals : Arrivals) (slot : Family) : Except Error Arrivals := do
  let data ← blocks.get slot
  let document ← (links.get slot).accept data
  return arrivals.put slot document

/-- The documents, once all of them have come. -/
def all? (arrivals : Arrivals) : Option (Slots fun _ => Document) := arrivals.mapM fun _ d => d

end Arrivals

/-! ## Downloads -/

namespace Client

variable {m : Type → Type} [Monad m]

/-- Downloads the root under an identifier, and finds the kinds of all documents. -/
def links (client : Client m) (cid : Cid) : ExceptT Error m (Slots ResolvedLink) := do
  (cid.ensureSupported : Except Error Unit)
  let data ← client.store.getBlock cid
  let root ← (Block.decode Root cid data : Except Error Root)
  (cid.verify data : Except Error Unit)
  (Root.resolve client.registry root : Except Error (Slots ResolvedLink))

/-- Asks for the blocks of all links, whether or not they are given. -/
def askAll (client : Client m) (links : Slots ResolvedLink) :
    ExceptT Error m (Slots fun _ => Except Error (List UInt8)) :=
  links.mapM fun _ link => observing (client.store.getBlock link.data)

/-- Downloads the metadata under a root, with the blocks of the documents delivered in an order.
There are no metadata as long as a block is outstanding. -/
def downloadJoined (client : Client m) (order : List Family) (cid : Cid) :
    ExceptT Error m (Option Metadata) := do
  let links ← client.links cid
  let blocks ← client.askAll links
  let arrivals ← (order.foldlM (Arrivals.deliver links blocks) .empty : Except Error Arrivals)
  match arrivals.all? with
  | none => return none
  | some documents =>
    let metadata ← (documents.mapM fun slot d => d.into slot : Except Error Metadata)
    return some metadata

end Client

end MarketDag
