import MarketDag.Document.Validation
import MarketDag.Proofs.Document.Recoverable

/-!
# Equality of documents

Two documents are the same when they are of one kind and agree part by part, decimals by the
numbers that they denote.  What a block holds is the document with its decimals in canonical form,
which keeps the rules that the document keeps (`Document.violations_normal`).
-/

namespace MarketDag

/-! ## Shapes without decimals -/

/-- Has a leaf no decimals? -/
def Leaf.decimalFree : Leaf → Bool
  | .decimal => false
  | .optional inner => inner.decimalFree
  | _ => true

mutual

/-- Has a shape no decimals? -/
def Shape.decimalFree : Shape → Bool
  | .leaf leaf => leaf.decimalFree
  | .list item => item.decimalFree
  | .record _ fields => fields.decimalFree
  | .either _ first second => first.decimalFree && second.decimalFree

/-- Have fields no decimals? -/
def Fields.decimalFree : Fields → Bool
  | .nil => true
  | .required _ shape rest => shape.decimalFree && rest.decimalFree
  | .optional _ shape rest => shape.decimalFree && rest.decimalFree
  | .defaulted _ leaf _ rest => leaf.decimalFree && rest.decimalFree

end

theorem Leaf.normal_of_decimalFree {leaf : Leaf} (h : leaf.decimalFree = true) :
    leaf.normal = id := by
  cases leaf with
  | decimal => cases h
  | optional inner =>
    have hinner : inner.normal = id := normal_of_decimalFree h
    rw [normal, hinner, Option.map_id]
  | _ => rfl

mutual

/-- Without decimals every value is normal. -/
theorem Shape.normal_of_decimalFree : (shape : Shape) → shape.decimalFree = true →
    shape.normal = id
  | .leaf _, h => Leaf.normal_of_decimalFree h
  | .list item, h => by rw [Shape.normal, item.normal_of_decimalFree h, List.map_id_fun]
  | .record _ fields, h => fields.normal_of_decimalFree h
  | .either _ first second, h => by
    obtain ⟨hfirst, hsecond⟩ := Bool.and_eq_true_iff.mp h
    rw [Shape.normal, first.normal_of_decimalFree hfirst, second.normal_of_decimalFree hsecond,
      Sum.map_id_id]

theorem Fields.normal_of_decimalFree : (fields : Fields) → fields.decimalFree = true →
    fields.normal = id
  | .nil, _ => rfl
  | .required _ shape rest, h => by
    obtain ⟨hshape, hrest⟩ := Bool.and_eq_true_iff.mp h
    rw [Fields.normal, shape.normal_of_decimalFree hshape, rest.normal_of_decimalFree hrest]
    rfl
  | .optional _ shape rest, h => by
    obtain ⟨hshape, hrest⟩ := Bool.and_eq_true_iff.mp h
    rw [Fields.normal, shape.normal_of_decimalFree hshape, rest.normal_of_decimalFree hrest,
      Option.map_id]
    rfl
  | .defaulted _ leaf _ rest, h => by
    obtain ⟨hleaf, hrest⟩ := Bool.and_eq_true_iff.mp h
    rw [Fields.normal, leaf.normal_of_decimalFree hleaf, rest.normal_of_decimalFree hrest]
    rfl

end

/-! ## Values of types -/

namespace Shaped

variable {α : Type} [Shaped α]

/-- Do two values agree part by part, decimals by the numbers that they denote? -/
def Same (a b : α) : Prop := (shape α).Same (toValue a) (toValue b)

/-- The value with its decimals in canonical form. -/
def normal (a : α) : α := ofValue ((shape α).normal (toValue a))

theorem toValue_normal [Exact α] (a : α) :
    toValue (normal a) = (shape α).normal (toValue a) :=
  Exact.toValue_ofValue _

theorem same_normal [Exact α] (a : α) : Same (normal a) a := by
  rw [Same, toValue_normal]
  exact Shape.same_normal _ _

theorem same_iff [Exact α] (a b : α) : Same a b ↔ normal a = normal b := by
  rw [Same, Shape.same_iff]
  constructor
  · exact fun h => congrArg ofValue h
  · intro h
    rw [← toValue_normal a, ← toValue_normal b, h]

@[simp] theorem same_normal_iff [Exact α] (a b : α) : Same (normal a) b ↔ Same a b := by
  rw [same_iff, same_iff, (same_iff _ _).mp (same_normal a)]

theorem layout_eq_of_same {a b : α} (h : Same a b) : layout a = layout b :=
  Shape.layout_eq_of_same h

theorem normal_of_decimalFree (h : (shape α).decimalFree = true) (a : α) : normal a = a := by
  rw [normal, Shape.normal_of_decimalFree _ h, id, ofValue_toValue]

/-- Without decimals only equal values are the same. -/
theorem same_iff_eq [Exact α] (h : (shape α).decimalFree = true) (a b : α) :
    Same a b ↔ a = b := by
  rw [same_iff, normal_of_decimalFree h, normal_of_decimalFree h]

end Shaped

/-! ## Types with decimals -/

theorem JsonPathSpec.normal_eq (s : JsonPathSpec) :
    Shaped.normal s = { s with timestampScale := s.timestampScale.normalize } := by
  simp [Shaped.normal, Shaped.shape, Shaped.toValue, Shaped.ofValue, Shape.normal, Fields.normal,
    Leaf.normal, Choice.ofIndex_index]

theorem SeriesSpace.normal_eq (s : SeriesSpace) :
    Shaped.normal s = { s with historySpec := s.historySpec.map Shaped.normal } := by
  obtain ⟨⟨⟨fspType, description, baseCase, edgeCases⟩, units, sourceName, sourceUri⟩, frequency,
    historySpec⟩ := s
  have hedges : Case.edges.normal = id := Shape.normal_of_decimalFree _ (by decide)
  have hspec : ((historySpec.map Shaped.toValue).map (Shaped.shape ApiSpec).normal).map
      Shaped.ofValue = historySpec.map (Shaped.normal : ApiSpec → ApiSpec) := by
    rw [Option.map_map, Option.map_map]
    rfl
  change SeriesSpace.mk ⟨⟨fspType, description, baseCase,
    Case.ofEdges (Case.edges.normal (Case.toEdges edgeCases))⟩, units, sourceName, sourceUri⟩
    (Choice.ofIndex (Choice.index frequency)) (((historySpec.map Shaped.toValue).map
      (Shaped.shape ApiSpec).normal).map Shaped.ofValue) = _
  rw [hedges, hspec, Choice.ofIndex_index, id, Case.ofEdges_toEdges]

theorem PrototypeOracle.normal_eq (o : PrototypeOracle) :
    Shaped.normal o = { o with evaluationSpec := Shaped.normal o.evaluationSpec } := by
  obtain ⟨⟨description, projectUrl⟩, evaluationSpec⟩ := o
  cases projectUrl <;> rfl

theorem Fallback.normal_eq (f : Fallback) :
    Shaped.normal f = { f with fsp := f.fsp.normalize } := rfl

/-- Two fallbacks are the same when their times are equal and their values are the same number. -/
theorem Fallback.same_iff (a b : Fallback) :
    Shaped.Same a b ↔ a.time = b.time ∧ a.fsp.SameValue b.fsp := by
  rw [Shaped.same_iff, normal_eq, normal_eq, ← Decimal.normalize_eq_iff]
  cases a
  cases b
  simp

/-- Two descriptions by paths are the same when they are equal but for the scale of timestamps,
and these scales are the same number. -/
theorem JsonPathSpec.same_iff (a b : JsonPathSpec) :
    Shaped.Same a b ↔ { a with timestampScale := b.timestampScale } = b ∧
      a.timestampScale.SameValue b.timestampScale := by
  rw [Shaped.same_iff, normal_eq, normal_eq, ← Decimal.normalize_eq_iff]
  cases a
  cases b
  simp only [JsonPathSpec.mk.injEq, true_and]
  tauto

theorem ApiSpec.same_jsonPath_iff {a b : JsonPathSpec} :
    Shaped.Same (ApiSpec.jsonPath a) (.jsonPath b) ↔ Shaped.Same a b :=
  Sum.liftRel_inl_inl

/-! ## Documents -/

namespace Document

/-- Are two documents of one kind, and the same part by part? -/
inductive Same : Document → Document → Prop where
  | mk {k : Kind} {a b : k.Body} (h : Shaped.Same a b) : Same ⟨k, a⟩ ⟨k, b⟩

theorem Same.kind_eq {d e : Document} (h : d.Same e) : d.kind = e.kind := by
  cases h
  rfl

/-- The document with its decimals in canonical form. -/
def normal (d : Document) : Document := ⟨d.kind, Shaped.normal d.body⟩

theorem same_normal (d : Document) : d.normal.Same d := .mk (Shaped.same_normal d.body)

theorem same_iff (d e : Document) : d.Same e ↔ d.normal = e.normal := by
  constructor
  · rintro ⟨h⟩
    exact congrArg (Document.mk _) ((Shaped.same_iff _ _).mp h)
  · intro h
    obtain ⟨k, a⟩ := d
    obtain ⟨l, b⟩ := e
    have hk : k = l := congrArg Document.kind h
    subst hk
    have hbody : Shaped.normal a = Shaped.normal b := by
      simpa [normal] using h
    exact .mk ((Shaped.same_iff _ _).mpr hbody)

@[simp] theorem same_normal_iff (d e : Document) : d.normal.Same e ↔ d.Same e := by
  rw [same_iff, same_iff, (same_iff _ _).mp d.same_normal]

end Document

/-! ## Rules -/

theorem require_eq_nil {holds : Bool} {v : Violation} : require holds v = [] ↔ holds = true := by
  cases holds <;> simp [require]

theorem validUrl_eq_nil {field s : String} : validUrl field s = [] ↔
    s.isEmpty = false ∧ s.utf8ByteSize ≤ maxUrlLength ∧ ∃ url, Url.ofText s = .ok url := by
  unfold validUrl
  split
  · simp_all
  · split
    · simp_all
    · cases hurl : Url.ofText s <;> simp_all

theorem JsonPathSpec.violations_normal (s : JsonPathSpec) :
    (Shaped.normal s).violations = [] ↔ s.violations = [] := by
  simp only [normal_eq, violations, List.append_eq_nil_iff]
  refine and_congr_right' ?_
  rw [require_eq_nil, require_eq_nil, decide_eq_true_iff, decide_eq_true_iff]
  exact not_congr ((Decimal.sameValue_normalize s.timestampScale).less_iff_less .one).symm

theorem ApiSpec.violations_normal (s : ApiSpec) :
    (Shaped.normal s).violations = [] ↔ s.violations = [] := by
  cases s with
  | jsonPath s => exact s.violations_normal
  | generic s => exact Iff.rfl

theorem SeriesSpace.violations_normal (s : SeriesSpace) :
    (Shaped.normal s).violations = [] ↔ s.violations = [] := by
  simp only [normal_eq, violations, List.append_eq_nil_iff]
  refine and_congr_right' ?_
  cases hspec : s.historySpec with
  | none => exact Iff.rfl
  | some spec => exact spec.violations_normal

theorem PrototypeOracle.violations_normal (o : PrototypeOracle) :
    (Shaped.normal o).violations = [] ↔ o.violations = [] := by
  simp only [normal_eq, violations, List.append_eq_nil_iff]
  exact and_congr_right' o.evaluationSpec.violations_normal

theorem Document.normal_of_decimalFree {k : Kind}
    (h : (Shaped.shape k.Body).decimalFree = true) (a : k.Body) : normal ⟨k, a⟩ = ⟨k, a⟩ :=
  congrArg (Document.mk k) (Shaped.normal_of_decimalFree h a)

/-- The document that a block holds keeps the rules that the document keeps. -/
theorem Document.violations_normal (d : Document) :
    d.normal.violations = [] ↔ d.violations = [] := by
  obtain ⟨k, body⟩ := d
  cases k with
  | outcomeSpaceTimeSeries => exact SeriesSpace.violations_normal body
  | oracleConfigPrototype1 => exact PrototypeOracle.violations_normal body
  | oracleFallback => exact Iff.rfl
  | _ => rw [normal_of_decimalFree (by decide)]

theorem firstViolation_eq_ok {vs : List Violation} : firstViolation vs = .ok () ↔ vs = [] := by
  cases vs <;> simp [firstViolation]

/-- The document that a block holds is valid exactly if the document is. -/
theorem Document.validate_normal (d : Document) :
    d.normal.validate = .ok () ↔ d.validate = .ok () := by
  rw [validate, validate, firstViolation_eq_ok, firstViolation_eq_ok]
  exact d.violations_normal

end MarketDag
