import MarketDag.Document.ApiSpec

/-!
# Outcome spaces

What a product is about and how its final value is found: in general, against a number that a
source publishes, or against a series of such numbers.
-/

namespace MarketDag

/-! ## Cases -/

/-- A condition and what it resolves to. -/
structure Case where
  condition : String
  resolution : String
deriving DecidableEq, Repr

namespace Case

/-- The form of a case under a name. -/
abbrev shape (name : String) : Shape :=
  .record name <|
    .required "condition" (.leaf .text) <|
    .required "fsp_resolution" (.leaf .text) .nil

/-- A case as a value of its form. -/
def toValue (name : String) (c : Case) : (shape name).Value := (c.condition, c.resolution, ())

/-- A case from a value of its form. -/
def ofValue (name : String) : (shape name).Value → Case
  | (condition, resolution, ()) => ⟨condition, resolution⟩

@[simp] theorem ofValue_toValue (name : String) (c : Case) : ofValue name (toValue name c) = c :=
  rfl

/-- The form of the case that holds as a rule. -/
abbrev base : Shape := shape "BaseCase"

/-- The form of the cases that are exceptions. -/
abbrev edges : Shape := .list (shape "EdgeCase")

/-- Exceptions as a value of their form. -/
def toEdges (cs : List Case) : edges.Value := cs.map (toValue "EdgeCase")

/-- Exceptions from a value of their form. -/
def ofEdges (vs : edges.Value) : List Case := vs.map (ofValue "EdgeCase")

@[simp] theorem ofEdges_toEdges (cs : List Case) : ofEdges (toEdges cs) = cs := by
  simp [ofEdges, toEdges, Function.comp_def]

end Case

/-! ## Frequencies -/

/-- How often a source publishes. -/
inductive Frequency where
  | daily
  | weekly
  | monthly
  | quarterly
  | yearly
deriving DecidableEq, Repr

instance : Choice Frequency where
  names := ["daily", "weekly", "monthly", "quarterly", "yearly"]
  index
    | .daily => 0
    | .weekly => 1
    | .monthly => 2
    | .quarterly => 3
    | .yearly => 4
  ofIndex
    | 0 => .daily
    | 1 => .weekly
    | 2 => .monthly
    | 3 => .quarterly
    | 4 => .yearly
  ofIndex_index a := by cases a <;> rfl

/-! ## Spaces -/

/-- What all outcome spaces have. -/
structure OutcomeSpace where
  fspType : String
  description : String
  baseCase : Case
  edgeCases : List Case := []

/-- An outcome space settled by a number that a source publishes. -/
structure ScalarSpace extends OutcomeSpace where
  units : String
  sourceName : String
  sourceUri : String

/-- An outcome space settled by a number of a series. -/
structure SeriesSpace extends ScalarSpace where
  frequency : Frequency
  historySpec : Option ApiSpec := none

/-! ## Form -/

namespace OutcomeSpace

/-- The fields that all outcome spaces have, before others. -/
abbrev fields (rest : Fields) : Fields :=
  .required "fsp_type" (.leaf .text) <|
  .required "description" (.leaf .text) <|
  .required "base_case" Case.base <|
  .required "edge_cases" Case.edges rest

/-- The values of these fields, before those of others. -/
abbrev toFields {rest : Fields} (s : OutcomeSpace) (more : rest.Value) : (fields rest).Value :=
  (s.fspType, s.description, Case.toValue "BaseCase" s.baseCase, Case.toEdges s.edgeCases, more)

instance : Shaped OutcomeSpace where
  shape := .record "BaseOutcomeSpace" (fields .nil)
  toValue s := s.toFields ()
  ofValue
    | (fspType, description, baseCase, edgeCases, ()) =>
      ⟨fspType, description, Case.ofValue "BaseCase" baseCase, Case.ofEdges edgeCases⟩
  ofValue_toValue s := by simp

end OutcomeSpace

namespace ScalarSpace

/-- The fields of spaces with a source, before others. -/
abbrev fields (rest : Fields) : Fields :=
  OutcomeSpace.fields <|
  .required "units" (.leaf .text) <|
  .required "source_name" (.leaf .text) <|
  .required "source_uri" (.leaf .text) rest

/-- The values of these fields, before those of others. -/
abbrev toFields {rest : Fields} (s : ScalarSpace) (more : rest.Value) : (fields rest).Value :=
  s.toOutcomeSpace.toFields (s.units, s.sourceName, s.sourceUri, more)

instance : Shaped ScalarSpace where
  shape := .record "ScalarOutcomeSpace" (fields .nil)
  toValue s := s.toFields ()
  ofValue
    | (fspType, description, baseCase, edgeCases, units, sourceName, sourceUri, ()) =>
      ⟨⟨fspType, description, Case.ofValue "BaseCase" baseCase, Case.ofEdges edgeCases⟩, units,
        sourceName, sourceUri⟩
  ofValue_toValue s := by simp

end ScalarSpace

namespace SeriesSpace

/-- The fields of spaces with a series. -/
abbrev fields : Fields :=
  ScalarSpace.fields <|
  .required "frequency" (.leaf (Choice.leaf Frequency)) <|
  .optional "history_api_spec" (Shaped.shape ApiSpec) .nil

instance : Shaped SeriesSpace where
  shape := .record "TimeSeriesOutcomeSpace" fields
  toValue s :=
    s.toScalarSpace.toFields
      (Choice.index s.frequency, s.historySpec.map Shaped.toValue, ())
  ofValue
    | (fspType, description, baseCase, edgeCases, units, sourceName, sourceUri, frequency,
        historySpec, ()) =>
      ⟨⟨⟨fspType, description, Case.ofValue "BaseCase" baseCase, Case.ofEdges edgeCases⟩, units,
        sourceName, sourceUri⟩, Choice.ofIndex frequency, historySpec.map Shaped.ofValue⟩
  ofValue_toValue s := by
    simp [Choice.ofIndex_index, Function.comp_def, Shaped.ofValue_toValue]

end SeriesSpace

end MarketDag
