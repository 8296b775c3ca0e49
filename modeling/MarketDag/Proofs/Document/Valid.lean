import Mathlib.Tactic.MkIffOfInductiveProp
import MarketDag.Document.Validation
import MarketDag.Proofs.Dag.Coherence
import MarketDag.Proofs.Json.Reserved
import MarketDag.Proofs.Number.Decimal

/-!
# Valid documents

What it takes for a document to be valid, said of the parts that it has, whatever its kind
(`Document.Valid`).  Scales are compared as the numbers that they denote, times as they follow one
another (`Instant.Before`).
-/

namespace MarketDag

/-! ## Times -/

namespace Instant

/-- Does an instant come before another one? -/
def Before (a b : Instant) : Prop :=
  a.date.Before b.date ∨ (a.date = b.date ∧
    (a.second < b.second ∨ (a.second = b.second ∧ a.nanos < b.nanos)))

/-- The first second of 1970. -/
def epoch : Instant := ⟨⟨1970, 1, 1, by decide⟩, 0, 0, Nat.succ_pos _, Nat.succ_pos _⟩

/-- The last second of 9999. -/
def lastSecond : Instant :=
  ⟨⟨9999, 12, 31, by decide⟩, 86399, 0, Nat.lt_succ_self _, Nat.succ_pos _⟩

theorem before_epoch_iff {t : Instant} : t.Before epoch ↔ t.date.year < 1970 := by
  obtain ⟨-, hmonth, hday⟩ := t.date.valid
  simp only [Before, Date.Before, epoch]
  omega

theorem lastSecond_before_iff {t : Instant} (h : t.nanos = 0) :
    lastSecond.Before t ↔ 9999 < t.date.year := by
  obtain ⟨-, hmonth, hday⟩ := t.date.valid
  have hdays : Date.daysIn t.date.year 12 = 31 := rfl
  have hsecond := t.second_lt
  simp only [Before, Date.Before, lastSecond]
  constructor
  · rintro ((hlater | ⟨hyear, hlater | ⟨hlast, hlater⟩⟩) | ⟨-, hlater⟩)
    · exact hlater
    · omega
    · rw [← hlast, hdays] at hday
      omega
    · omega
  · exact fun hlater => .inl (.inl hlater)

end Instant

/-! ## What is valid -/

/-- Is a text an address that a document may hold? -/
def AcceptedUrl (s : String) : Prop :=
  s ≠ "" ∧ s.utf8ByteSize ≤ maxUrlLength ∧ ∃ url, Url.ofText s = .ok url

/-- Has an optional text at least one character? -/
def Given (s : Option String) : Prop := ∃ text, s = some text ∧ text ≠ ""

/-- Are the settings of a description by paths complete? -/
@[mk_iff]
structure JsonPathSpec.Valid (s : JsonPathSpec) : Prop where
  url : AcceptedUrl s.url
  datePath : s.datePath ≠ ""
  valuePath : s.valuePath ≠ ""
  timezone : s.timezone ≠ ""
  authName : s.authLocation = .query ∨ s.authLocation = .header → Given s.authName
  customDateFormat : s.dateFormat = .custom → Given s.customDateFormat
  maxPages : s.maxPages ≠ some 0
  timestampScale : 1 ≤ s.timestampScale.value

/-- Is the time of a fallback a whole second from the start of 1970 to the end of 9999? -/
@[mk_iff]
structure Fallback.Valid (f : Fallback) : Prop where
  whole : f.time.nanos = 0
  notBefore : ¬ f.time.Before .epoch
  notAfter : ¬ Instant.lastSecond.Before f.time

namespace Document

/-! ### Parts -/

/-- What a document has as an outcome space. -/
def space? : Document → Option OutcomeSpace
  | ⟨.outcomeSpace, s⟩ => some s
  | ⟨.outcomeSpaceScalar, s⟩ => some s.toOutcomeSpace
  | ⟨.outcomeSpaceTimeSeries, s⟩ => some s.toOutcomeSpace
  | _ => none

/-- What a document has as an outcome space with a source. -/
def scalar? : Document → Option ScalarSpace
  | ⟨.outcomeSpaceScalar, s⟩ => some s
  | ⟨.outcomeSpaceTimeSeries, s⟩ => some s.toScalarSpace
  | _ => none

/-- What a document has as an outcome point. -/
def point? : Document → Option OutcomePoint
  | ⟨.outcomePoint, p⟩ => some p
  | ⟨.outcomePointEvent, p⟩ => some p.toOutcomePoint
  | ⟨.outcomePointTimeSeries, p⟩ => some p.toOutcomePoint
  | _ => none

/-- What a document has as the outcome of an event. -/
def event? : Document → Option EventPoint
  | ⟨.outcomePointEvent, p⟩ => some p
  | _ => none

/-- The observation of a document. -/
def observation? : Document → Option Observation
  | ⟨.outcomePointTimeSeries, p⟩ => some p.observation
  | _ => none

/-- What a document has as an oracle configuration. -/
def oracle? : Document → Option OracleConfig
  | ⟨.oracleConfig, o⟩ => some o
  | ⟨.oracleConfigPrototype1, o⟩ => some o.toOracleConfig
  | _ => none

/-- Is a document valid?  This asks every part of it that it has for what such a part needs. -/
@[mk_iff]
structure Valid (d : Document) : Prop where
  fspType : ∀ s ∈ d.space?, s.fspType ≠ ""
  spaceDescription : ∀ s ∈ d.space?, s.description ≠ ""
  cases : ∀ s ∈ d.space?, ∀ c ∈ s.baseCase :: s.edgeCases, c.condition ≠ "" ∧ c.resolution ≠ ""
  units : ∀ s ∈ d.scalar?, s.units ≠ ""
  sourceName : ∀ s ∈ d.scalar?, s.sourceName ≠ ""
  sourceUri : ∀ s ∈ d.scalar?, AcceptedUrl s.sourceUri
  pointFspType : ∀ p ∈ d.point?, p.fspType ≠ ""
  outcome : ∀ p ∈ d.event?, p.outcome ≠ ""
  dates : ∀ o ∈ d.observation?, ∀ release ∈ o.release, ¬ release.Before o.reference
  oracleDescription : ∀ o ∈ d.oracle?, o.description ≠ ""
  projectUrl : ∀ o ∈ d.oracle?, ∀ url ∈ o.projectUrl, AcceptedUrl url
  spec : ∀ s, d.spec? = some (.jsonPath s) → s.Valid
  fallback : ∀ f ∈ d.fallback?, f.Valid

end Document

end MarketDag
