import MarketDag.Proofs.Dag.Failures
import MarketDag.Proofs.Document.Rules

/-!
# Validation

Every kind of documents has its rules, in the order of their checks (`Document.rules`).  All
violations of a document are those of its rules one after the other (`Document.violations_eq`),
and by induction on the rules the first violation is that of the first rule that is broken
(`firstViolation_eq_error`).  The rules of a kind ask for no less and no more than what makes a
document valid (`Document.valid_iff_rules`), so that validation finds every valid document valid,
and tells of the first rule that any other one breaks (`Document.validate_exact`).
-/

namespace MarketDag

/-! ## Rules in their order -/

/-- The rules of a description by paths. -/
def JsonPathSpec.rules (s : JsonPathSpec) : List Rule :=
  [.url "url" s.url, .text "date_path" s.datePath, .text "value_path" s.valuePath,
    .text "timezone" s.timezone, .authName s.authLocation s.authName,
    .customDateFormat s.dateFormat s.customDateFormat, .maxPages s.maxPages,
    .timestampScale s.timestampScale]

/-- The rules of a described interface. -/
def ApiSpec.rules : ApiSpec → List Rule
  | .jsonPath spec => spec.rules
  | .generic _ => []

/-- The rules of a case. -/
def Case.rules (field : String) (c : Case) : List Rule :=
  [.text (field ++ ".condition") c.condition, .text (field ++ ".fsp_resolution") c.resolution]

/-- The rules of an outcome space: first those of the usual case, then those of the exceptions. -/
def OutcomeSpace.rules (s : OutcomeSpace) : List Rule :=
  [.text "fsp_type" s.fspType, .text "description" s.description] ++
  s.baseCase.rules "base_case" ++ s.edgeCases.flatMap (Case.rules "edge_cases")

/-- The rules of a space with a source. -/
def ScalarSpace.rules (s : ScalarSpace) : List Rule :=
  s.toOutcomeSpace.rules ++
  [.text "units" s.units, .text "source_name" s.sourceName, .url "source_uri" s.sourceUri]

/-- The rules of an observation. -/
def Observation.rules (o : Observation) : List Rule :=
  o.release.elim [] fun release => [.dates release o.reference]

/-- The rules of an oracle configuration. -/
def OracleConfig.rules (o : OracleConfig) : List Rule :=
  .text "description" o.description :: o.projectUrl.elim [] fun url => [.url "project_url" url]

/-- The rules of a fallback. -/
def Fallback.rules (f : Fallback) : List Rule :=
  [.epoch f.time, .lastYear f.time, .wholeSecond f.time]

namespace Document

/-- The rules of a document in the order of their checks. -/
def rules : Document → List Rule
  | ⟨.outcomeSpace, s⟩ => s.rules
  | ⟨.outcomeSpaceScalar, s⟩ => s.rules
  | ⟨.outcomeSpaceTimeSeries, s⟩ => s.toScalarSpace.rules ++ s.historySpec.elim [] ApiSpec.rules
  | ⟨.outcomePoint, p⟩ => [.text "fsp_type" p.fspType]
  | ⟨.outcomePointEvent, p⟩ => [.text "fsp_type" p.fspType, .text "outcome" p.outcome]
  | ⟨.outcomePointTimeSeries, p⟩ => .text "fsp_type" p.fspType :: p.observation.rules
  | ⟨.oracleConfig, o⟩ => o.rules
  | ⟨.oracleConfigPrototype1, o⟩ => o.toOracleConfig.rules ++ o.evaluationSpec.rules
  | ⟨.oracleFallback, f⟩ => f.rules

end Document

/-! ### All violations -/

theorem JsonPathSpec.violations_eq (s : JsonPathSpec) :
    s.violations = s.rules.flatMap Rule.violations := by
  simp [violations, rules, Rule.violations]

theorem ApiSpec.violations_eq (s : ApiSpec) : s.violations = s.rules.flatMap Rule.violations := by
  cases s with
  | jsonPath s => exact s.violations_eq
  | generic s => rfl

theorem Case.violations_eq (field : String) (c : Case) :
    c.violations field = (c.rules field).flatMap Rule.violations := by
  simp [violations, rules, Rule.violations]

theorem OutcomeSpace.violations_eq (s : OutcomeSpace) :
    s.violations = s.rules.flatMap Rule.violations := by
  have hedges : s.edgeCases.flatMap (Case.violations "edge_cases") =
      (s.edgeCases.flatMap (Case.rules "edge_cases")).flatMap Rule.violations := by
    rw [List.flatMap_assoc]
    exact congrArg (fun f => s.edgeCases.flatMap f) (funext fun c => c.violations_eq "edge_cases")
  simp [violations, rules, Rule.violations, hedges, Case.violations_eq]

theorem ScalarSpace.violations_eq (s : ScalarSpace) :
    s.violations = s.rules.flatMap Rule.violations := by
  simp [violations, rules, Rule.violations, OutcomeSpace.violations_eq]

theorem Observation.violations_eq (o : Observation) :
    o.violations = o.rules.flatMap Rule.violations := by
  cases hrelease : o.release <;> simp [violations, rules, Rule.violations, hrelease]

theorem OracleConfig.violations_eq (o : OracleConfig) :
    o.violations = o.rules.flatMap Rule.violations := by
  cases hurl : o.projectUrl <;> simp [violations, rules, Rule.violations, hurl]

namespace Document

/-- The violations of a document are those of its rules one after the other. -/
theorem violations_eq (d : Document) : d.violations = d.rules.flatMap Rule.violations := by
  obtain ⟨k, body⟩ := d
  cases k with
  | outcomeSpace => exact OutcomeSpace.violations_eq body
  | outcomeSpaceScalar => exact ScalarSpace.violations_eq body
  | outcomeSpaceTimeSeries =>
    have hspec : body.historySpec.elim [] ApiSpec.violations =
        (body.historySpec.elim [] ApiSpec.rules).flatMap Rule.violations := by
      cases body.historySpec with
      | none => rfl
      | some spec => exact spec.violations_eq
    simp [violations, rules, SeriesSpace.violations, ScalarSpace.violations_eq, hspec]
  | outcomePoint => simp [violations, rules, OutcomePoint.violations, Rule.violations]
  | outcomePointEvent =>
    simp [violations, rules, EventPoint.violations, OutcomePoint.violations, Rule.violations]
  | outcomePointTimeSeries =>
    simp [violations, rules, SeriesPoint.violations, OutcomePoint.violations, Rule.violations,
      Observation.violations_eq]
  | oracleConfig => exact OracleConfig.violations_eq body
  | oracleConfigPrototype1 =>
    simp [violations, rules, PrototypeOracle.violations, OracleConfig.violations_eq,
      ApiSpec.violations_eq]
  | oracleFallback => simp [violations, rules, Fallback.violations, Fallback.rules, Rule.violations]

end Document

/-! ## The first broken rule -/

/-- Does a violation tell of the first rule of a list that is broken? -/
def FirstBroken (rules : List Rule) (r : Rule) (v : Violation) : Prop :=
  ∃ before after, rules = before ++ r :: after ∧ (∀ x ∈ before, x.Holds) ∧ ¬ r.Holds ∧ r.Told v

/-- Checking rules one after the other finds the first one that is broken. -/
theorem firstViolation_eq_error {rules : List Rule} {v : Violation} :
    firstViolation (rules.flatMap Rule.violations) = .error v ↔ ∃ r, FirstBroken rules r v := by
  induction rules with
  | nil => simp [firstViolation, FirstBroken]
  | cons x rules ih =>
    rw [List.flatMap_cons]
    cases hx : x.violations with
    | nil =>
      -- the rule is kept, so what is broken first is behind it
      have hholds : x.Holds := Rule.violations_eq_nil.mp hx
      rw [List.nil_append, ih]
      constructor
      · rintro ⟨r, before, after, rfl, hbefore, hr, htold⟩
        exact ⟨r, x :: before, after, rfl, List.forall_mem_cons.mpr ⟨hholds, hbefore⟩, hr, htold⟩
      · rintro ⟨r, before, after, heq, hbefore, hr, htold⟩
        cases before with
        | nil =>
          obtain ⟨rfl, rfl⟩ := List.cons.inj heq
          exact absurd hholds hr
        | cons b before =>
          obtain ⟨rfl, rfl⟩ := List.cons.inj heq
          exact ⟨r, before, after, rfl, (List.forall_mem_cons.mp hbefore).2, hr, htold⟩
    | cons w ws =>
      -- the rule is broken, and nothing behind it is told
      have htold (u : Violation) : x.Told u ↔ w = u := by
        rw [← Rule.head?_violations, hx, List.head?_cons, Option.some_inj]
      have hbroken : ¬ x.Holds := Rule.not_holds_of_told ((htold w).mpr rfl)
      rw [List.cons_append, firstViolation, Except.error.injEq, ← htold]
      constructor
      · intro h
        exact ⟨x, [], rules, rfl, List.forall_mem_nil _, hbroken, h⟩
      · rintro ⟨r, before, after, heq, hbefore, hr, h⟩
        cases before with
        | nil =>
          obtain ⟨rfl, rfl⟩ := List.cons.inj heq
          exact h
        | cons b before =>
          obtain ⟨rfl, rfl⟩ := List.cons.inj heq
          exact absurd (hbefore x List.mem_cons_self) hbroken

/-! ## Valid documents -/

theorem JsonPathSpec.valid_iff_rules {s : JsonPathSpec} : s.Valid ↔ ∀ r ∈ s.rules, r.Holds := by
  have hauth : (s.authLocation = .query ∨ s.authLocation = .header → Given s.authName) ↔
      (s.authLocation = .nowhere ∨ Given s.authName) := by
    cases s.authLocation <;> simp
  have hformat : (s.dateFormat = .custom → Given s.customDateFormat) ↔
      (s.dateFormat ≠ .custom ∨ Given s.customDateFormat) := imp_iff_not_or
  rw [valid_iff, hauth, hformat]
  simp [rules, Rule.Holds]

theorem ApiSpec.holds_rules_iff {s : ApiSpec} :
    (∀ r ∈ s.rules, r.Holds) ↔ ∀ spec, s = .jsonPath spec → spec.Valid := by
  cases s with
  | jsonPath spec => simp [rules, JsonPathSpec.valid_iff_rules]
  | generic spec => simp [rules]

theorem Case.holds_rules_iff {field : String} {c : Case} :
    (∀ r ∈ c.rules field, r.Holds) ↔ c.condition ≠ "" ∧ c.resolution ≠ "" := by
  simp [rules, Rule.Holds]

theorem OutcomeSpace.holds_rules_iff {s : OutcomeSpace} :
    (∀ r ∈ s.rules, r.Holds) ↔ s.fspType ≠ "" ∧ s.description ≠ "" ∧
      ∀ c ∈ s.baseCase :: s.edgeCases, c.condition ≠ "" ∧ c.resolution ≠ "" := by
  have hedges : (∀ r ∈ s.edgeCases.flatMap (Case.rules "edge_cases"), r.Holds) ↔
      ∀ c ∈ s.edgeCases, c.condition ≠ "" ∧ c.resolution ≠ "" := by
    simp only [List.forall_mem_flatMap, Case.holds_rules_iff]
  rw [rules, List.forall_mem_append, List.forall_mem_append, hedges, Case.holds_rules_iff,
    List.forall_mem_cons, ← and_assoc (a := s.fspType ≠ ""), and_assoc]
  simp [Rule.Holds]

theorem ScalarSpace.holds_rules_iff {s : ScalarSpace} :
    (∀ r ∈ s.rules, r.Holds) ↔ (∀ r ∈ s.toOutcomeSpace.rules, r.Holds) ∧
      s.units ≠ "" ∧ s.sourceName ≠ "" ∧ AcceptedUrl s.sourceUri := by
  rw [rules, List.forall_mem_append]
  simp [Rule.Holds]

theorem Observation.holds_rules_iff {o : Observation} :
    (∀ r ∈ o.rules, r.Holds) ↔ ∀ release ∈ o.release, ¬ release.Before o.reference := by
  cases hrelease : o.release <;> simp [rules, Rule.Holds, hrelease]

theorem OracleConfig.holds_rules_iff {o : OracleConfig} :
    (∀ r ∈ o.rules, r.Holds) ↔
      o.description ≠ "" ∧ ∀ url ∈ o.projectUrl, AcceptedUrl url := by
  cases hurl : o.projectUrl <;> simp [rules, Rule.Holds, hurl]

theorem Fallback.valid_iff_rules {f : Fallback} : f.Valid ↔ ∀ r ∈ f.rules, r.Holds := by
  have hrules : (∀ r ∈ f.rules, r.Holds) ↔
      ¬ f.time.Before .epoch ∧ f.time.date.year ≤ maxFallbackYear ∧ f.time.nanos = 0 := by
    simp [rules, Rule.Holds]
  rw [valid_iff, hrules]
  -- Only for a whole second does the last second of the year decide.
  constructor
  · rintro ⟨hwhole, hbefore, hafter⟩
    rw [Instant.lastSecond_before_iff hwhole] at hafter
    exact ⟨hbefore, not_lt.mp hafter, hwhole⟩
  · rintro ⟨hbefore, hyear, hwhole⟩
    rw [Instant.lastSecond_before_iff hwhole]
    exact ⟨hwhole, hbefore, not_lt.mpr hyear⟩

namespace Document

theorem validate_eq_ok_iff_rules {d : Document} :
    d.validate = .ok () ↔ ∀ r ∈ d.rules, r.Holds := by
  rw [validate, violations_eq, firstViolation_eq_ok, List.flatMap_eq_nil_iff]
  simp only [Rule.violations_eq_nil]

/-- The parts of a document are as they should be when the rules of its kind hold. -/
theorem valid_iff_rules {d : Document} : d.Valid ↔ ∀ r ∈ d.rules, r.Holds := by
  obtain ⟨k, body⟩ := d
  cases k with
  | outcomeSpace =>
    rw [rules, OutcomeSpace.holds_rules_iff, valid_iff]
    simp [space?, scalar?, point?, event?, observation?, oracle?, spec?, fallback?]
  | outcomeSpaceScalar =>
    rw [rules, ScalarSpace.holds_rules_iff, OutcomeSpace.holds_rules_iff, valid_iff]
    simp [space?, scalar?, point?, event?, observation?, oracle?, spec?, fallback?]
    tauto
  | outcomeSpaceTimeSeries =>
    -- a description by name has no rules of its own
    have hspec : (∀ r ∈ body.historySpec.elim [] ApiSpec.rules, r.Holds) ↔
        ∀ spec, body.historySpec = some (.jsonPath spec) → spec.Valid := by
      cases body.historySpec with
      | none => simp
      | some spec => simp [ApiSpec.holds_rules_iff]
    rw [rules, List.forall_mem_append, ScalarSpace.holds_rules_iff,
      OutcomeSpace.holds_rules_iff, hspec, valid_iff]
    simp [space?, scalar?, point?, event?, observation?, oracle?, spec?, fallback?]
    tauto
  | outcomePoint =>
    rw [rules, valid_iff]
    simp [space?, scalar?, point?, event?, observation?, oracle?, spec?, fallback?, Rule.Holds]
  | outcomePointEvent =>
    rw [rules, valid_iff]
    simp [space?, scalar?, point?, event?, observation?, oracle?, spec?, fallback?, Rule.Holds]
  | outcomePointTimeSeries =>
    rw [rules, List.forall_mem_cons, Observation.holds_rules_iff, valid_iff]
    simp [space?, scalar?, point?, event?, observation?, oracle?, spec?, fallback?, Rule.Holds]
  | oracleConfig =>
    rw [rules, OracleConfig.holds_rules_iff, valid_iff]
    simp [space?, scalar?, point?, event?, observation?, oracle?, spec?, fallback?]
  | oracleConfigPrototype1 =>
    rw [rules, List.forall_mem_append, OracleConfig.holds_rules_iff, ApiSpec.holds_rules_iff,
      valid_iff]
    simp [space?, scalar?, point?, event?, observation?, oracle?, spec?, fallback?]
    tauto
  | oracleFallback =>
    rw [rules, ← Fallback.valid_iff_rules, valid_iff]
    simp [space?, scalar?, point?, event?, observation?, oracle?, spec?, fallback?]

/-- The message about a violation: the kind of the error, then the wording. -/
theorem message_invalid (v : Violation) :
    (Error.invalid v).message = some ("Validation: invalid: " ++ v.reason) := by
  have hcause : (Error.invalid v).cause = some ("invalid: " ++ v.reason) := rfl
  have hfront : "Validation" ++ ": " ++ "invalid: " = "Validation: invalid: " := by decide
  exact Error.message_of_cause hcause hfront

/-- A document of any kind is found valid exactly when all of its parts are as they should be.
Else the error is one of validation, and tells of the first rule that is broken, in the order of
the checks of its kind, by the name of the field that the rule is about. -/
theorem validate_exact (d : Document) :
    (d.validate.mapError Error.invalid = .ok () ↔ d.Valid) ∧ (d.Valid ↔ ∀ r ∈ d.rules, r.Holds) ∧
    ∀ e, d.validate.mapError Error.invalid = .error e ↔ ∃ r v, FirstBroken d.rules r v ∧
      e = .invalid v ∧ e.kind = .validation ∧
      ∃ wording, e.message = some ("Validation: invalid: " ++ wording) ∧
        Rule.Names r.field wording := by
  refine ⟨?_, valid_iff_rules, fun e => ?_⟩
  · rw [mapError_eq_ok, validate_eq_ok_iff_rules, valid_iff_rules]
  · constructor
    · intro h
      cases hvalidate : d.validate with
      | ok _ =>
        rw [hvalidate] at h
        cases h
      | error v =>
        rw [hvalidate] at h
        cases h
        rw [validate, violations_eq] at hvalidate
        obtain ⟨r, hr⟩ := firstViolation_eq_error.mp hvalidate
        have htold : r.Told v := by
          obtain ⟨before, after, -, -, -, htold⟩ := hr
          exact htold
        exact ⟨r, v, hr, rfl, rfl, v.reason, message_invalid v, Rule.names_of_told htold⟩
    · rintro ⟨r, v, hr, rfl, -, -⟩
      have hvalidate : d.validate = .error v := by
        rw [validate, violations_eq]
        exact firstViolation_eq_error.mpr ⟨r, hr⟩
      rw [hvalidate]
      rfl

end Document

end MarketDag
