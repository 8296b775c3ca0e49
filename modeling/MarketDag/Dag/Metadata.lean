import MarketDag.Dag.Documents
import MarketDag.Dag.Root

/-!
# Metadata

The metadata of a product: one document of each family.  It is assembled into five blocks, the
root first.
-/

namespace MarketDag

/-- One document of each family. -/
abbrev Metadata := Slots DocumentIn

namespace Metadata

/-- The violations of all documents, slot by slot. -/
def violations (m : Metadata) : List Violation :=
  m.outcomeSpace.1.violations ++ m.outcomePoint.1.violations ++ m.oracleConfig.1.violations ++
    m.oracleFallback.1.violations

/-- The first violation of the documents. -/
def validate (m : Metadata) : Except Error Unit :=
  (firstViolation m.violations).mapError .invalid

/-- The tree of the documents under the names of their families. -/
def layout (m : Metadata) : Except LayoutFault Ipld := do
  let trees ← m.mapM (β := fun _ => Ipld) fun _ d => d.1.layout
  return .map (Family.all.map fun f => (f.name, trees.get f))

/-- The block of a document, and the link to it. -/
def link (registry : Registry) (d : Document) : Except Error (ComponentLink × Block) := do
  match registry.schema? d.kind with
  | none => throw (.misconfigured (.unregistered d.kind))
  | some schema =>
    let block ← d.encode
    return (⟨block.cid, schema⟩, block)

/-- The blocks of the metadata: the root, and the documents in the order of their slots. -/
def assemble (registry : Registry) (m : Metadata) : Except Error (List Block) := do
  let links ← m.mapM (β := fun _ => ComponentLink × Block) fun _ d => link registry d.1
  let root : Root := links.map fun _ l => l.1
  let block ← Block.encode root
  return block :: (links.map (β := fun _ => Block) fun _ l => l.2).toList

end Metadata

end MarketDag
