import MarketDag.Dag.Block
import MarketDag.Dag.Registry
import MarketDag.Dag.Slots

/-!
# Roots

The root of a product's metadata links to its four documents, and says which schema each of them
has.  To resolve a root is to find the kind of every document, before any of them is fetched.
-/

namespace MarketDag

/-! ## Links -/

/-- A link to a document, and the document's schema. -/
structure ComponentLink where
  data : Cid
  schema : Cid
deriving DecidableEq

instance : Shaped ComponentLink where
  shape :=
    .record "ComponentLink" <|
      .required "data" (.leaf .link) <|
      .required "schema" (.leaf .link) .nil
  toValue l := (l.data, l.schema, ())
  ofValue
    | (data, schema, ()) => ⟨data, schema⟩

/-- The root of a product's metadata. -/
abbrev Root := Slots fun _ => ComponentLink

instance : Shaped Root where
  shape :=
    let link := Shaped.shape ComponentLink
    .record "ExtendedMetadataDag" <|
      .required Family.outcomeSpace.name link <|
      .required Family.outcomePoint.name link <|
      .required Family.oracleConfig.name link <|
      .required Family.oracleFallback.name link .nil
  toValue r :=
    (Shaped.toValue r.outcomeSpace, Shaped.toValue r.outcomePoint, Shaped.toValue r.oracleConfig,
      Shaped.toValue r.oracleFallback, ())
  ofValue
    | (outcomeSpace, outcomePoint, oracleConfig, oracleFallback, ()) =>
      ⟨Shaped.ofValue outcomeSpace, Shaped.ofValue outcomePoint, Shaped.ofValue oracleConfig,
        Shaped.ofValue oracleFallback⟩

/-! ## Resolution -/

/-- A link whose document is of a known kind of the right family. -/
structure ResolvedLink (slot : Family) where
  data : Cid
  kind : Kind
  family_kind : kind.family = slot

/-- Finds the kind of a link's document. -/
def ComponentLink.resolve (registry : Registry) (slot : Family) (l : ComponentLink) :
    Except Error (ResolvedLink slot) := do
  let kind ← registry.resolve l.schema
  if h : kind.family = slot then
    l.data.ensureSupported
    return ⟨l.data, kind, h⟩
  else throw (.invalid (.wrongSlot slot l.schema kind))

/-- Finds the kinds of all documents of a root. -/
def Root.resolve (registry : Registry) (r : Root) : Except Error (Slots ResolvedLink) :=
  r.mapM fun slot l => l.resolve registry slot

end MarketDag
