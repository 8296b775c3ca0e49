import MarketDag.Archive.Basic
import MarketDag.Dag.Metadata

/-!
# Clients

A client uploads the metadata of products to a block store and downloads them again.  It takes
nothing on trust: the root that a store tells has to be the computed one, and every block that is
fetched has to be of the right form, keep the rules and have the digest that its identifier
carries.
-/

namespace MarketDag

/-- A block store and the kinds that are known. -/
structure Client (m : Type → Type) where
  store : BlockStore m
  registry : Registry := .full

namespace Client

variable {m : Type → Type} [Monad m]

/-- Uploads metadata that keep the rules, and tells their root. -/
def upload (client : Client m) (metadata : Metadata) : ExceptT Error m Cid := do
  (metadata.validate : Except Error Unit)
  let blocks ← (metadata.assemble client.registry : Except Error (List Block))
  let archive ← (Archive.ofBlocks blocks : Except Error Archive)
  let told ← client.store.importArchive archive
  if told = archive.root then return told else throw (.mismatch archive.root told)

/-- Fetches the document of a link. -/
def fetch (client : Client m) {slot : Family} (link : ResolvedLink slot) :
    ExceptT Error m Document := do
  let data ← client.store.getBlock link.data
  -- bytes of another form are told as such, not as tampered ones
  let document ← (link.kind.decode link.data data : Except Error Document)
  (link.data.verify data : Except Error Unit)
  return document

/-- Downloads the metadata under a root. All schemas are resolved before any document is fetched. -/
def download (client : Client m) (cid : Cid) : ExceptT Error m Metadata := do
  (cid.ensureSupported : Except Error Unit)
  let data ← client.store.getBlock cid
  -- as for documents, the form comes before the digest
  let root ← (Block.decode Root cid data : Except Error Root)
  (cid.verify data : Except Error Unit)
  let links ← (Root.resolve client.registry root : Except Error (Slots ResolvedLink))
  let documents ← links.mapM (β := fun _ => Document) fun _ link => client.fetch link
  (documents.mapM fun slot d => d.into slot : Except Error Metadata)

end Client

end MarketDag
