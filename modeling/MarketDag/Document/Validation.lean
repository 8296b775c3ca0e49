import MarketDag.Document.Violation

/-!
# Validation

All violations of a document, in the order in which its rules are checked.  A document is valid
when there are none; otherwise the first one is told.
-/

namespace MarketDag

/-! ## Rules -/

/-- A violation, unless a rule holds. -/
def require (holds : Bool) (v : Violation) : List Violation := if holds then [] else [v]

/-- A field has to have text. -/
def notBlank (field s : String) : List Violation := require (! s.isEmpty) (.blank field)

/-- A field has to be an absolute address that is not too long. -/
def validUrl (field s : String) : List Violation :=
  if s.isEmpty then [.blank field]
  else if maxUrlLength < s.utf8ByteSize then [.longUrl field]
  else
    match Url.ofText s with
    | .ok _ => []
    | .error fault => [.badUrl field fault]

/-- Has a setting text? -/
def hasText (setting : Option String) : Bool := setting.any (! ·.isEmpty)

/-! ## Interfaces -/

/-- The violations of a description by paths. -/
def JsonPathSpec.violations (s : JsonPathSpec) : List Violation :=
  validUrl "url" s.url ++
  notBlank "date_path" s.datePath ++
  notBlank "value_path" s.valuePath ++
  notBlank "timezone" s.timezone ++
  require (s.authLocation = .nowhere || hasText s.authName) (.authNameMissing s.authLocation) ++
  require (s.dateFormat ≠ .custom || hasText s.customDateFormat) .dateFormatMissing ++
  require (s.maxPages.all fun n => 0 < n.val) .noPages ++
  require (¬ s.timestampScale.Less .one) (.smallScale s.timestampScale)

/-- The violations of a described interface. -/
def ApiSpec.violations : ApiSpec → List Violation
  | .jsonPath spec => spec.violations
  | .generic _ => []

/-! ## Outcome spaces -/

/-- The violations of a case. -/
def Case.violations (field : String) (c : Case) : List Violation :=
  notBlank (field ++ ".condition") c.condition ++
  notBlank (field ++ ".fsp_resolution") c.resolution

/-- The violations of an outcome space. -/
def OutcomeSpace.violations (s : OutcomeSpace) : List Violation :=
  notBlank "fsp_type" s.fspType ++
  notBlank "description" s.description ++
  s.baseCase.violations "base_case" ++
  s.edgeCases.flatMap (Case.violations "edge_cases")

/-- The violations of a space with a source. -/
def ScalarSpace.violations (s : ScalarSpace) : List Violation :=
  s.toOutcomeSpace.violations ++
  notBlank "units" s.units ++
  notBlank "source_name" s.sourceName ++
  validUrl "source_uri" s.sourceUri

/-- The violations of a space with a series. -/
def SeriesSpace.violations (s : SeriesSpace) : List Violation :=
  s.toScalarSpace.violations ++ s.historySpec.elim [] ApiSpec.violations

/-! ## Outcome points -/

/-- The violations of an outcome point. -/
def OutcomePoint.violations (p : OutcomePoint) : List Violation := notBlank "fsp_type" p.fspType

/-- The violations of the outcome of an event. -/
def EventPoint.violations (p : EventPoint) : List Violation :=
  p.toOutcomePoint.violations ++ notBlank "outcome" p.outcome

/-- A number is not published before the date that it is about. -/
def Observation.violations (o : Observation) : List Violation :=
  o.release.elim [] fun release =>
    require (¬ release.Before o.reference) (.releaseBeforeReference release o.reference)

/-- The violations of the observation of a series. -/
def SeriesPoint.violations (p : SeriesPoint) : List Violation :=
  p.toOutcomePoint.violations ++ p.observation.violations

/-! ## Oracles -/

/-- The violations of an oracle configuration. -/
def OracleConfig.violations (o : OracleConfig) : List Violation :=
  notBlank "description" o.description ++ o.projectUrl.elim [] (validUrl "project_url")

/-- The violations of an oracle that is told where to look. -/
def PrototypeOracle.violations (o : PrototypeOracle) : List Violation :=
  o.toOracleConfig.violations ++ o.evaluationSpec.violations

/-- A fallback time is a whole second from the start of 1970 to the end of 9999. -/
def Fallback.violations (f : Fallback) : List Violation :=
  require (! f.time.beforeEpoch) (.beforeEpoch f.time) ++
  require (f.time.date.year ≤ maxFallbackYear) (.afterLastYear f.time) ++
  require (! f.time.isFractional) (.fractional f.time)

/-! ## Documents -/

namespace Document

/-- The violations of a document. -/
def violations : Document → List Violation
  | ⟨.outcomeSpace, s⟩ => s.violations
  | ⟨.outcomeSpaceScalar, s⟩ => s.violations
  | ⟨.outcomeSpaceTimeSeries, s⟩ => s.violations
  | ⟨.outcomePoint, p⟩ => p.violations
  | ⟨.outcomePointEvent, p⟩ => p.violations
  | ⟨.outcomePointTimeSeries, p⟩ => p.violations
  | ⟨.oracleConfig, o⟩ => o.violations
  | ⟨.oracleConfigPrototype1, o⟩ => o.violations
  | ⟨.oracleFallback, f⟩ => f.violations

end Document

/-- Nothing if there is no violation, else the first one. -/
def firstViolation : List Violation → Except Violation Unit
  | [] => .ok ()
  | v :: _ => .error v

/-- The first violation of a described interface. -/
def ApiSpec.validate (s : ApiSpec) : Except Violation Unit := firstViolation s.violations

/-- The first violation of a document. -/
def Document.validate (d : Document) : Except Violation Unit := firstViolation d.violations

end MarketDag
