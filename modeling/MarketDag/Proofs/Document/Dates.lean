import MarketDag.Dag.Documents
import MarketDag.Proofs.Document.Validation
import MarketDag.Proofs.Ipld.Canonical
import MarketDag.Proofs.Time.DateText

/-!
# The dates of an observation

A point of a series is written with the texts of its dates (`Document.canonical_point`).  Validation
compares the dates but not their years with those that have the form `YYYY-MM-DD`, so that only for
years of four digits the texts of a valid point have this form and come in the order of the dates
(`Document.dates_of_valid_point`).
-/

namespace MarketDag

/-! ## The tree of a point -/

/-- The dates of an observation. -/
def Observation.dates (o : Observation) : List Date := o.reference :: o.release.toList

/-- The tree of an observation: its dates as texts, one that is not known as null. -/
def Observation.tree (o : Observation) : Ipld :=
  .map [("reference_date", .text o.reference.toText),
    ("release_date", o.release.elim .null fun release => .text release.toText)]

/-- The tree of a point. -/
def SeriesPoint.tree (p : SeriesPoint) : Ipld :=
  .map [("fsp_type", .text p.fspType), ("observation", p.observation.tree)]

theorem Observation.canonical_tree (o : Observation) : o.tree.canonical = o.tree := by
  have hkeys : "reference_date" < "release_date" := by decide
  refine Ipld.canonical_map_of_ascending (List.pairwise_pair.mpr hkeys) fun e he => ?_
  rcases List.mem_pair.mp he with rfl | rfl
  · rfl
  · cases o.release <;> rfl

theorem SeriesPoint.canonical_tree (p : SeriesPoint) : p.tree.canonical = p.tree := by
  have hkeys : "fsp_type" < "observation" := by decide
  refine Ipld.canonical_map_of_ascending (List.pairwise_pair.mpr hkeys) fun e he => ?_
  rcases List.mem_pair.mp he with rfl | rfl
  · rfl
  · exact p.observation.canonical_tree

theorem SeriesPoint.layout_eq (p : SeriesPoint) : layout p = .ok p.tree := by
  obtain ⟨⟨fspType⟩, reference, release⟩ := p
  cases release <;> rfl

namespace Document

/-- A point is written with the texts of its dates, whether it is valid or not. -/
theorem canonical_point (p : SeriesPoint) :
    canonical ⟨.outcomePointTimeSeries, p⟩ = .ok p.tree := by
  have hlayout := p.layout_eq
  change Block.canonical (α := SeriesPoint) p = _
  rw [Block.canonical, hlayout]
  exact congrArg Except.ok p.canonical_tree

/-! ## The form of the dates -/

/-- A valid point is written with its dates as texts.  Such a text has the form `YYYY-MM-DD`, which
are ten characters, exactly if the year of the date has four digits.  Between two dates of this form
the text of the release does not come before that of the reference, but the text of a release after
the year 9999 does, when the reference is no such date. -/
theorem dates_of_valid_point (p : SeriesPoint)
    (h : validate ⟨.outcomePointTimeSeries, p⟩ = .ok ()) :
    canonical ⟨.outcomePointTimeSeries, p⟩ = .ok (.map [("fsp_type", .text p.fspType),
      ("observation", .map [("reference_date", .text p.observation.reference.toText),
        ("release_date", p.observation.release.elim .null fun release => .text release.toText)])]) ∧
    (∀ d ∈ p.observation.dates, (Date.HasForm d.toText ↔ d.FourDigitYear) ∧
      (d.toText.length = 10 ↔ d.FourDigitYear)) ∧
    ∀ release ∈ p.observation.release,
      (p.observation.reference.FourDigitYear → release.FourDigitYear →
        ¬ release.toText < p.observation.reference.toText) ∧
      (p.observation.reference.year ≤ 9999 → 9999 < release.year →
        release.toText < p.observation.reference.toText) := by
  refine ⟨canonical_point p, fun d _ => ⟨Date.hasForm_iff, Date.length_toText_eq_ten_iff⟩,
    fun release hrelease => ⟨fun hreference hfour => ?_, Date.toText_lt_of_long⟩⟩
  have hdates : ∀ release ∈ p.observation.release, ¬ release.Before p.observation.reference := by
    refine Observation.holds_rules_iff.mp fun r hr => ?_
    exact validate_eq_ok_iff_rules.mp h r (List.mem_cons_of_mem _ hr)
  rw [Date.toText_lt_iff hfour hreference]
  exact hdates release hrelease

/-- A number of the last day of the year 9999 that is published on the day after. -/
def latePoint : SeriesPoint :=
  ⟨⟨"binary"⟩, Instant.lastSecond.date, some ⟨10000, 1, 1, by decide⟩⟩

/-- The late point is valid, but the text of its release comes first. -/
theorem dates_of_late_point : validate ⟨.outcomePointTimeSeries, latePoint⟩ = .ok () ∧
    latePoint.observation.reference.toText.length = 10 ∧
    ∀ release ∈ latePoint.observation.release,
      release.toText < latePoint.observation.reference.toText := by
  have hvalid : validate ⟨.outcomePointTimeSeries, latePoint⟩ = .ok () := rfl
  obtain ⟨-, hform, horder⟩ := dates_of_valid_point latePoint hvalid
  refine ⟨hvalid, (hform _ List.mem_cons_self).2.mpr (by decide), fun release hrelease => ?_⟩
  cases hrelease
  exact (horder _ rfl).2 (by decide) (by decide)

/-- Not all dates of valid points have the form, and not all are in the order of their texts. -/
theorem not_all_dates_of_form : ¬ ∀ p : SeriesPoint,
    validate ⟨.outcomePointTimeSeries, p⟩ = .ok () →
    (∀ d ∈ p.observation.dates, Date.HasForm d.toText ∧ d.toText.length = 10) ∧
    ∀ release ∈ p.observation.release, ¬ release.toText < p.observation.reference.toText := by
  intro h
  obtain ⟨hform, -⟩ := h latePoint rfl
  have hrelease := (hform ⟨10000, 1, 1, by decide⟩ (.tail _ (.head _))).1
  exact absurd (Date.hasForm_iff.mp hrelease) (by decide)

end Document

end MarketDag
