import MarketDag.Proofs.Document.Equality
import MarketDag.Proofs.Json.Reserved
import MarketDag.Proofs.Shape.Omission

/-!
# Settings of a description

A description by paths has eleven settings that may be left out.  It is built with a default for
each, and the form of the description names a default for each, in its own way; the two agree: the
fields of some settings are reset in the form exactly as they are in what is built without these
settings (`JsonPathSpec.toValue_withDefaults`).
-/

namespace MarketDag

namespace JsonPathSpec

/-! ## Settings -/

/-- A setting that may be left out. -/
inductive Setting where
  | authLocation
  | authName
  | authPrefix
  | tokenParam
  | tokenPath
  | customDateFormat
  | dateFormat
  | headers
  | maxPages
  | timestampScale
  | timezone
deriving DecidableEq, Repr

namespace Setting

/-- The key of a setting. -/
def key : Setting → String
  | .authLocation => "auth_param_location"
  | .authName => "auth_param_name"
  | .authPrefix => "auth_param_prefix"
  | .tokenParam => "continuation_token_param"
  | .tokenPath => "continuation_token_path"
  | .customDateFormat => "date_format_custom"
  | .dateFormat => "date_format_type"
  | .headers => "headers"
  | .maxPages => "max_pages"
  | .timestampScale => "timestamp_scale"
  | .timezone => "timezone"

/-- All settings, in the order of their fields. -/
def all : List Setting :=
  [.authLocation, .authName, .authPrefix, .tokenParam, .tokenPath, .customDateFormat, .dateFormat,
    .headers, .maxPages, .timestampScale, .timezone]

theorem mem_all (x : Setting) : x ∈ all := by
  cases x <;> decide

theorem key_injective : Function.Injective key := by
  intro x y h
  cases x <;> cases y <;> first | rfl | exact absurd h (by decide)

theorem key_mem_map_iff {removed : List Setting} (x : Setting) :
    x.key ∈ removed.map key ↔ x ∈ removed :=
  List.mem_map_of_injective key_injective

theorem forall_iff {p : Setting → Prop} : (∀ x, p x) ↔ p .authLocation ∧ p .authName ∧
    p .authPrefix ∧ p .tokenParam ∧ p .tokenPath ∧ p .customDateFormat ∧ p .dateFormat ∧
    p .headers ∧ p .maxPages ∧ p .timestampScale ∧ p .timezone := by
  constructor
  · intro h
    exact ⟨h _, h _, h _, h _, h _, h _, h _, h _, h _, h _, h _⟩
  · rintro ⟨h₁, h₂, h₃, h₄, h₅, h₆, h₇, h₈, h₉, h₁₀, h₁₁⟩ x
    cases x <;> assumption

end Setting

/-! ## Defaults -/

/-- The description that is built if no setting is given. -/
def plain (s : JsonPathSpec) : JsonPathSpec where
  standard := s.standard
  variety := s.variety
  url := s.url
  datePath := s.datePath
  valuePath := s.valuePath

/-- The description that is built if some settings are not given. -/
def withDefaults (s : JsonPathSpec) (removed : List Setting) : JsonPathSpec :=
  let pick {α : Type} (x : Setting) (get : JsonPathSpec → α) : α :=
    if x ∈ removed then get s.plain else get s
  { s with
    authLocation := pick .authLocation (·.authLocation)
    authName := pick .authName (·.authName)
    authPrefix := pick .authPrefix (·.authPrefix)
    tokenParam := pick .tokenParam (·.tokenParam)
    tokenPath := pick .tokenPath (·.tokenPath)
    customDateFormat := pick .customDateFormat (·.customDateFormat)
    dateFormat := pick .dateFormat (·.dateFormat)
    headers := pick .headers (·.headers)
    maxPages := pick .maxPages (·.maxPages)
    timestampScale := pick .timestampScale (·.timestampScale)
    timezone := pick .timezone (·.timezone) }

/-- Has a setting its default: no authentication, nothing optional, dates as in ISO 8601, ten pages,
a scale of one, universal time? -/
def IsDefault (s : JsonPathSpec) : Setting → Prop
  | .authLocation => s.authLocation = .nowhere
  | .authName => s.authName = none
  | .authPrefix => s.authPrefix = none
  | .tokenParam => s.tokenParam = none
  | .tokenPath => s.tokenPath = none
  | .customDateFormat => s.customDateFormat = none
  | .dateFormat => s.dateFormat = .iso8601
  | .headers => s.headers = none
  | .maxPages => s.maxPages = some 10
  | .timestampScale => s.timestampScale.SameValue .one
  | .timezone => s.timezone = "UTC"

/-- Without some settings the same is built exactly if they have their defaults. -/
theorem same_withDefaults_iff (s : JsonPathSpec) (removed : List Setting) :
    Shaped.Same (s.withDefaults removed) s ↔ ∀ x ∈ removed, s.IsDefault x := by
  have hscale : s.timestampScale.SameValue
      (if .timestampScale ∈ removed then .one else s.timestampScale) ↔
        (.timestampScale ∈ removed → s.timestampScale.SameValue .one) := by
    by_cases hremoved : .timestampScale ∈ removed
    · simp [hremoved]
    · simp [hremoved, Decimal.SameValue.refl]
  rw [Shaped.same_iff, eq_comm, ← Shaped.same_iff, same_iff, Setting.forall_iff]
  cases s
  simp only [withDefaults, plain, hscale, JsonPathSpec.mk.injEq, right_eq_ite_iff, IsDefault,
    true_and, and_assoc]
  rw [and_comm (a := .timezone ∈ removed → _)]

/-! ## Form -/

/-- The settings are the fields that need not be there. -/
theorem keys_eq : fields.keys = fields.requiredKeys ++ Setting.all.map Setting.key := rfl

theorem requiredKeys_disjoint (removed : List Setting) :
    ∀ key ∈ fields.requiredKeys, key ∉ removed.map Setting.key := by
  have hnodup : fields.keys.Nodup := by decide
  rw [keys_eq, List.nodup_append] at hnodup
  intro key hkey hmem
  obtain ⟨x, -, rfl⟩ := List.mem_map.mp hmem
  exact hnodup.2.2 x.key hkey x.key (List.mem_map_of_mem x.mem_all) rfl

theorem normalDefaults : fields.NormalDefaults :=
  ⟨rfl, rfl, rfl, rfl, rfl, rfl, rfl, rfl, rfl, by decide, rfl, trivial⟩

/-- What is built without some settings has their fields reset. -/
theorem toValue_withDefaults (s : JsonPathSpec) (removed : List Setting) :
    Shaped.toValue (s.withDefaults removed) =
      fields.reset (removed.map Setting.key) (Shaped.toValue s) := by
  have h := Setting.forall_iff.mp (@Setting.key_mem_map_iff removed)
  simp only [Setting.key] at h
  simp only [Shaped.toValue, Fields.reset, h, withDefaults, plain, apply_ite Choice.index]

/-- Without the entries of some settings, a tree stands for what is built without them. -/
theorem writes_without {s : JsonPathSpec} {t : Ipld} (removed : List Setting)
    (h : (Shaped.shape JsonPathSpec).Writes (Shaped.toValue s) t) :
    (Shaped.shape JsonPathSpec).Writes (Shaped.toValue (s.withDefaults removed))
      (t.without (removed.map Setting.key)) := by
  rw [toValue_withDefaults]
  exact Shape.writes_without h normalDefaults (requiredKeys_disjoint removed)

end JsonPathSpec

/-! ## Documents -/

/-- The body of a document with another description of an interface. -/
def Kind.withSpec : (k : Kind) → k.Body → ApiSpec → k.Body
  | .outcomeSpaceTimeSeries, s, spec => { s with historySpec := some spec }
  | .oracleConfigPrototype1, o, spec => { o with evaluationSpec := spec }
  | _, body, _ => body

namespace Document

variable {d : Document} {spec spec' : ApiSpec} {key : String}

/-- The document with another description of an interface. -/
def withSpec (d : Document) (spec : ApiSpec) : Document := ⟨d.kind, d.kind.withSpec d.body spec⟩

theorem spec?_withSpec (hkey : d.kind.specKey? = some key) :
    (d.withSpec spec).spec? = some spec := by
  obtain ⟨k, body⟩ := d
  cases k with
  | outcomeSpaceTimeSeries | oracleConfigPrototype1 => rfl
  | _ => cases hkey

theorem withSpec_of_spec? (h : d.spec? = some spec) : d.withSpec spec = d := by
  obtain ⟨k, body⟩ := d
  cases k with
  | outcomeSpaceTimeSeries =>
    have hspec : body.historySpec = some spec := h
    rw [withSpec, Kind.withSpec, ← hspec]
  | oracleConfigPrototype1 =>
    cases h
    rfl
  | _ => cases h

theorem spec?_normal (d : Document) : d.normal.spec? = d.spec?.map Shaped.normal := by
  obtain ⟨k, body⟩ := d
  cases k with
  | outcomeSpaceTimeSeries => exact congrArg SeriesSpace.historySpec (SeriesSpace.normal_eq body)
  | oracleConfigPrototype1 =>
    exact congrArg (some ·.evaluationSpec) (PrototypeOracle.normal_eq body)
  | _ => rfl

theorem normal_withSpec (d : Document) (spec : ApiSpec) :
    (d.withSpec spec).normal = d.normal.withSpec (Shaped.normal spec) := by
  obtain ⟨k, body⟩ := d
  cases k with
  | outcomeSpaceTimeSeries =>
    have hnormal : (normal ⟨.outcomeSpaceTimeSeries, body⟩).body = _ := SeriesSpace.normal_eq body
    refine congrArg (Document.mk .outcomeSpaceTimeSeries) ((SeriesSpace.normal_eq _).trans ?_)
    rw [hnormal]
    rfl
  | oracleConfigPrototype1 =>
    have hnormal : (normal ⟨.oracleConfigPrototype1, body⟩).body = _ :=
      PrototypeOracle.normal_eq body
    refine congrArg (Document.mk .oracleConfigPrototype1) ((PrototypeOracle.normal_eq _).trans ?_)
    rw [hnormal]
    rfl
  | _ => rfl

/-- With another description a document is the same exactly if the description is. -/
theorem same_withSpec_iff (hkey : d.kind.specKey? = some key) (h : d.spec? = some spec) :
    (d.withSpec spec').Same d ↔ Shaped.Same spec' spec := by
  have hnormal : d.normal.spec? = some (Shaped.normal spec) := by rw [spec?_normal, h]; rfl
  rw [same_iff, Shaped.same_iff]
  constructor
  · intro heq
    have hspec := congrArg spec? heq
    rw [spec?_normal, spec?_withSpec hkey, hnormal] at hspec
    exact Option.some.inj hspec
  · intro heq
    rw [normal_withSpec, heq, withSpec_of_spec? hnormal]

end Document

end MarketDag
