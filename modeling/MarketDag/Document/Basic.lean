import MarketDag.Document.Kind
import MarketDag.Document.OutcomePoint
import MarketDag.Document.OutcomeSpace
import MarketDag.Document.Oracle

/-!
# Documents

A document is a kind and a body of the type of that kind.
-/

namespace MarketDag

namespace Kind

/-- The type of the bodies of a kind. -/
@[reducible] def Body : Kind → Type
  | .outcomeSpace => OutcomeSpace
  | .outcomeSpaceScalar => ScalarSpace
  | .outcomeSpaceTimeSeries => SeriesSpace
  | .outcomePoint => OutcomePoint
  | .outcomePointEvent => EventPoint
  | .outcomePointTimeSeries => SeriesPoint
  | .oracleConfig => OracleConfig
  | .oracleConfigPrototype1 => PrototypeOracle
  | .oracleFallback => Fallback

instance shapedBody : (k : Kind) → Shaped k.Body
  | .outcomeSpace => inferInstanceAs (Shaped OutcomeSpace)
  | .outcomeSpaceScalar => inferInstanceAs (Shaped ScalarSpace)
  | .outcomeSpaceTimeSeries => inferInstanceAs (Shaped SeriesSpace)
  | .outcomePoint => inferInstanceAs (Shaped OutcomePoint)
  | .outcomePointEvent => inferInstanceAs (Shaped EventPoint)
  | .outcomePointTimeSeries => inferInstanceAs (Shaped SeriesPoint)
  | .oracleConfig => inferInstanceAs (Shaped OracleConfig)
  | .oracleConfigPrototype1 => inferInstanceAs (Shaped PrototypeOracle)
  | .oracleFallback => inferInstanceAs (Shaped Fallback)

end Kind

/-- A document of any kind. -/
structure Document where
  kind : Kind
  body : kind.Body

namespace Document

/-- The family of a document. -/
def family (d : Document) : Family := d.kind.family

/-- The description of a document that has one. -/
def description? : Document → Option String
  | ⟨.outcomeSpace, s⟩ => some s.description
  | ⟨.outcomeSpaceScalar, s⟩ => some s.description
  | ⟨.outcomeSpaceTimeSeries, s⟩ => some s.description
  | ⟨.oracleConfig, o⟩ => some o.description
  | ⟨.oracleConfigPrototype1, o⟩ => some o.description
  | ⟨.outcomePoint, _⟩ => none
  | ⟨.outcomePointEvent, _⟩ => none
  | ⟨.outcomePointTimeSeries, _⟩ => none
  | ⟨.oracleFallback, _⟩ => none

/-- The tree of a document, the fields of records in their own order. -/
def layout (d : Document) : Except LayoutFault Ipld := MarketDag.layout d.body

end Document

end MarketDag
