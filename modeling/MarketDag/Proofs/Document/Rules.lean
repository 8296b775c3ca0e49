import MarketDag.Proofs.Document.Equality
import MarketDag.Proofs.Document.Valid

/-!
# Rules of documents

The single rules that a document can break.  The check of a rule finds nothing when the rule holds
(`Rule.violations_eq_nil`), and what it finds first is what is told when the rule is broken
(`Rule.head?_violations`), which names the field that the rule is about (`Rule.names_of_told`).
-/

namespace MarketDag

/-! ## Rules -/

/-- A rule about some part of a document, with the field that it is about. -/
inductive Rule where
  | text (field s : String)
  | url (field s : String)
  | authName (location : AuthLocation) (name : Option String)
  | customDateFormat (format : DateFormat) (custom : Option String)
  | maxPages (limit : PageLimit)
  | timestampScale (scale : Decimal)
  | dates (release reference : Date)
  | epoch (t : Instant)
  | lastYear (t : Instant)
  | wholeSecond (t : Instant)

namespace Rule

/-- The field that a rule is about. -/
def field : Rule → String
  | .text field _ => field
  | .url field _ => field
  | .authName _ _ => "auth_param_name"
  | .customDateFormat _ _ => "date_format_custom"
  | .maxPages _ => "max_pages"
  | .timestampScale _ => "timestamp_scale"
  | .dates _ _ => "observation.release_date"
  | .epoch _ => "fallback_time"
  | .lastYear _ => "fallback_time"
  | .wholeSecond _ => "fallback_time"

/-- Does a rule hold? -/
def Holds : Rule → Prop
  | .text _ s => s ≠ ""
  | .url _ s => AcceptedUrl s
  | .authName location name => location = .nowhere ∨ Given name
  | .customDateFormat format custom => format ≠ .custom ∨ Given custom
  | .maxPages limit => limit ≠ some 0
  | .timestampScale scale => 1 ≤ scale.value
  | .dates release reference => ¬ release.Before reference
  | .epoch t => ¬ t.Before .epoch
  | .lastYear t => t.date.year ≤ maxFallbackYear
  | .wholeSecond t => t.nanos = 0

/-- What is told when a rule is broken.  Only an address can break its rule in more than one way,
and then the first of them is told. -/
def Told : Rule → Violation → Prop
  | .text field s, v => s = "" ∧ v = .blank field
  | .url field s, v =>
    (s = "" ∧ v = .blank field) ∨
    (s ≠ "" ∧ maxUrlLength < s.utf8ByteSize ∧ v = .longUrl field) ∨
    (s ≠ "" ∧ s.utf8ByteSize ≤ maxUrlLength ∧
      ∃ fault, Url.ofText s = .error fault ∧ v = .badUrl field fault)
  | .authName location name, v =>
    (location ≠ .nowhere ∧ ¬ Given name) ∧ v = .authNameMissing location
  | .customDateFormat format custom, v =>
    (format = .custom ∧ ¬ Given custom) ∧ v = .dateFormatMissing
  | .maxPages limit, v => limit = some 0 ∧ v = .noPages
  | .timestampScale scale, v => scale.value < 1 ∧ v = .smallScale scale
  | .dates release reference, v =>
    release.Before reference ∧ v = .releaseBeforeReference release reference
  | .epoch t, v => t.Before .epoch ∧ v = .beforeEpoch t
  | .lastYear t, v => maxFallbackYear < t.date.year ∧ v = .afterLastYear t
  | .wholeSecond t, v => t.nanos ≠ 0 ∧ v = .fractional t

/-- What the check of a rule finds. -/
def violations : Rule → List Violation
  | .text field s => notBlank field s
  | .url field s => validUrl field s
  | .authName location name =>
    require (location = .nowhere || hasText name) (.authNameMissing location)
  | .customDateFormat format custom =>
    require (format ≠ .custom || hasText custom) .dateFormatMissing
  | .maxPages limit => require (limit.all fun n => 0 < n.val) .noPages
  | .timestampScale scale => require (¬ scale.Less .one) (.smallScale scale)
  | .dates release reference =>
    require (¬ release.Before reference) (.releaseBeforeReference release reference)
  | .epoch t => require (! t.beforeEpoch) (.beforeEpoch t)
  | .lastYear t => require (t.date.year ≤ maxFallbackYear) (.afterLastYear t)
  | .wholeSecond t => require (! t.isFractional) (.fractional t)

end Rule

/-! ## Checks of rules -/

theorem hasText_iff {s : Option String} : hasText s = true ↔ Given s := by
  cases s with
  | none => simp [hasText, Given]
  | some text => simp [hasText, Given]

theorem head?_require {holds : Bool} {v w : Violation} :
    (require holds v).head? = some w ↔ holds = false ∧ w = v := by
  cases holds <;> simp [require, eq_comm (a := w)]

theorem notBlank_eq_nil {field s : String} : notBlank field s = [] ↔ s ≠ "" := by
  simp [notBlank, require_eq_nil]

theorem head?_validUrl {field s : String} {v : Violation} :
    (validUrl field s).head? = some v ↔ (Rule.url field s).Told v := by
  simp only [validUrl, Rule.Told]
  generalize maxUrlLength = limit
  by_cases hblank : s = ""
  · simp [hblank, eq_comm (a := v)]
  · by_cases hlong : limit < s.utf8ByteSize
    · simp [hblank, hlong, Nat.not_le_of_lt hlong, eq_comm (a := v)]
    · cases hurl : Url.ofText s with
      | ok url => simp [hblank, hlong]
      | error fault => simp [hblank, hlong, Nat.le_of_not_lt hlong, eq_comm (a := v)]

theorem all_pages_iff {limit : PageLimit} :
    (limit.all fun n => decide (0 < n.val)) = true ↔ limit ≠ some 0 := by
  cases limit with
  | none => simp
  | some n =>
    have hzero : n = 0 ↔ n.val = 0 := Fin.ext_iff
    rw [Option.all_some, decide_eq_true_iff, Nat.pos_iff_ne_zero, ne_eq, ← hzero, ne_eq,
      Option.some_inj]

namespace Rule

/-- The check of a rule finds nothing when the rule holds. -/
theorem violations_eq_nil {r : Rule} : r.violations = [] ↔ r.Holds := by
  cases r with
  | text field s => exact notBlank_eq_nil
  | url field s =>
    have hempty : s.isEmpty = false ↔ s ≠ "" := by simp
    rw [violations, validUrl_eq_nil, hempty]
    rfl
  | authName location name => simp [violations, Holds, require_eq_nil, hasText_iff]
  | customDateFormat format custom => simp [violations, Holds, require_eq_nil, hasText_iff]
  | maxPages limit => rw [violations, require_eq_nil, all_pages_iff, Holds]
  | timestampScale scale => simp [violations, Holds, require_eq_nil, ← Decimal.not_less_one_iff]
  | dates release reference => simp [violations, Holds, require_eq_nil]
  | epoch t =>
    simp [violations, Holds, require_eq_nil, Instant.before_epoch_iff, Instant.beforeEpoch]
  | lastYear t => simp [violations, Holds, require_eq_nil]
  | wholeSecond t => simp [violations, Holds, require_eq_nil, Instant.isFractional]

/-- What the check of a rule finds first is what is told when the rule is broken. -/
theorem head?_violations {r : Rule} {v : Violation} :
    r.violations.head? = some v ↔ r.Told v := by
  cases r with
  | text field s => simp [violations, Told, notBlank, head?_require]
  | url field s => exact head?_validUrl
  | authName location name => simp [violations, Told, head?_require, ← hasText_iff]
  | customDateFormat format custom => simp [violations, Told, head?_require, ← hasText_iff]
  | maxPages limit =>
    have hpages : (limit.all fun n => decide (0 < n.val)) = false ↔ limit = some 0 := by
      rw [← Bool.not_eq_true, all_pages_iff, not_not]
    rw [violations, head?_require, hpages, Told]
  | timestampScale scale =>
    simp [violations, Told, head?_require, ← not_le, ← Decimal.not_less_one_iff]
  | dates release reference => simp [violations, Told, head?_require]
  | epoch t =>
    simp [violations, Told, head?_require, Instant.before_epoch_iff, Instant.beforeEpoch]
  | lastYear t => simp [violations, Told, head?_require]
  | wholeSecond t => simp [violations, Told, head?_require, Instant.isFractional]

theorem not_holds_of_told {r : Rule} {v : Violation} (h : r.Told v) : ¬ r.Holds := by
  intro hholds
  have hhead := head?_violations.mpr h
  rw [violations_eq_nil.mpr hholds] at hhead
  cases hhead

/-! ### Names of fields -/

/-- Does a wording begin with the name of a field? -/
def Names (field wording : String) : Prop := ∃ words, wording = field ++ " " ++ words

theorem Names.append {field wording : String} (h : Names field wording) (more : String) :
    Names field (wording ++ more) := by
  obtain ⟨words, rfl⟩ := h
  exact ⟨words ++ more, String.append_assoc⟩

theorem names_blank (field : String) {words back : String} (h : " " ++ words = back) :
    Names field (field ++ back) :=
  ⟨words, by rw [← h, String.append_assoc]⟩

/-- What is told when a rule is broken names the field that the rule is about. -/
theorem names_of_told {r : Rule} {v : Violation} (h : r.Told v) : Names r.field v.reason := by
  -- The wordings are compared with their fields while both are short closed texts.
  have hlong : " " ++ "must be at most " = " must be at most " := by decide
  have hbad : " " ++ "is not a valid URL: " = " is not a valid URL: " := by decide
  have hempty : " " ++ "must not be empty" = " must not be empty" := by decide
  have htime : Names "fallback_time" "fallback_time " := ⟨"", by decide⟩
  have hdate : Names "observation.release_date" "observation.release_date " := ⟨"", by decide⟩
  cases r with
  | text field s =>
    obtain ⟨-, rfl⟩ := h
    exact names_blank field hempty
  | url field s =>
    rcases h with ⟨-, rfl⟩ | ⟨-, -, rfl⟩ | ⟨-, -, fault, -, rfl⟩
    · exact names_blank field hempty
    · exact ((names_blank field hlong).append _).append _
    · exact (names_blank field hbad).append _
  | authName location name =>
    obtain ⟨-, rfl⟩ := h
    have hfront : Names "auth_param_name"
        "auth_param_name is required when auth_param_location is " :=
      ⟨"is required when auth_param_location is ", by decide⟩
    exact hfront.append _
  | customDateFormat format custom =>
    obtain ⟨-, rfl⟩ := h
    show Names "date_format_custom" "date_format_custom is required when date_format_type is custom"
    exact ⟨"is required when date_format_type is custom", by decide⟩
  | maxPages limit =>
    obtain ⟨-, rfl⟩ := h
    show Names "max_pages" "max_pages must be at least 1"
    exact ⟨"must be at least 1", by decide⟩
  | timestampScale scale =>
    obtain ⟨-, rfl⟩ := h
    have hfront : Names "timestamp_scale" "timestamp_scale must be at least 1, got " :=
      ⟨"must be at least 1, got ", by decide⟩
    exact hfront.append _
  | dates release reference =>
    obtain ⟨-, rfl⟩ := h
    exact ((hdate.append _).append _).append _
  | epoch t =>
    obtain ⟨-, rfl⟩ := h
    exact (htime.append _).append _
  | lastYear t =>
    obtain ⟨-, rfl⟩ := h
    exact ((htime.append _).append _).append _
  | wholeSecond t =>
    obtain ⟨-, rfl⟩ := h
    exact (htime.append _).append _

end Rule

end MarketDag
