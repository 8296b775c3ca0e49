import Mathlib.Algebra.Order.BigOperators.Group.List
import MarketDag.Proofs.Document.Validation
import MarketDag.Proofs.Web.Url

/-!
# The length of addresses

An address has at most 2083 characters by its rule (`UrlRule`), but what is counted are its bytes,
of which a character has one to four.  So no address is accepted that breaks the rule, and of those
that keep it exactly the ones of more than 2083 bytes are refused
(`Document.urls_counted_in_bytes`).
-/

namespace MarketDag

/-! ## Bytes of texts -/

theorem utf8ByteSize_ofList (cs : List Char) :
    (String.ofList cs).utf8ByteSize = (cs.map Char.utf8Size).sum := by
  induction cs with
  | nil => simp
  | cons c cs ih =>
    rw [String.ofList_cons, String.utf8ByteSize_append, String.utf8ByteSize_singleton, ih,
      List.map_cons, List.sum_cons]

theorem utf8ByteSize_eq_sum (s : String) : s.utf8ByteSize = (s.toList.map Char.utf8Size).sum := by
  rw [← utf8ByteSize_ofList, String.ofList_toList]

theorem length_sizes (s : String) : (s.toList.map Char.utf8Size).length = s.length := by
  rw [List.length_map, String.length_toList]

/-- A text has no more characters than bytes. -/
theorem length_le_byteSize (s : String) : s.length ≤ s.utf8ByteSize := by
  rw [utf8ByteSize_eq_sum, ← length_sizes]
  apply List.length_le_sum_of_one_le
  simp only [List.forall_mem_map]
  exact fun c _ => c.utf8Size_pos

/-- A text has at most four bytes for each of its characters. -/
theorem byteSize_le_four_mul (s : String) : s.utf8ByteSize ≤ 4 * s.length := by
  rw [utf8ByteSize_eq_sum, ← length_sizes, Nat.mul_comm]
  apply List.sum_le_card_nsmul
  simp only [List.forall_mem_map]
  exact fun c _ => c.utf8Size_le_four

/-- A text of ASCII characters has as many bytes as characters. -/
theorem byteSize_of_ascii {s : String} (h : ∀ c ∈ s.toList, c.toNat < 0x80) :
    s.utf8ByteSize = s.length := by
  have hone : ∀ n ∈ s.toList.map Char.utf8Size, n = 1 := by
    simp only [List.forall_mem_map]
    intro c hc
    apply Char.utf8Size_eq_one_iff.mpr
    exact UInt32.le_iff_toNat_le.mpr (Nat.le_of_lt_succ (h c hc))
  rw [utf8ByteSize_eq_sum, List.sum_eq_card_nsmul _ 1 hone, length_sizes, nsmul_one]
  rfl

/-! ## The rule -/

/-- Is a text an absolute address of no more characters than the rule of addresses allows? -/
structure UrlRule (s : String) : Prop where
  nonempty : s ≠ ""
  length_le : s.length ≤ maxUrlLength
  absolute : ∃ url, Url.ofText s = .ok url

section

variable {field s : String}

/-- What is accepted keeps the rule, and has no more bytes than it may have characters. -/
theorem acceptedUrl_iff : AcceptedUrl s ↔ UrlRule s ∧ s.utf8ByteSize ≤ maxUrlLength := by
  constructor
  · rintro ⟨hempty, hsize, hurl⟩
    exact ⟨⟨hempty, Nat.le_trans (length_le_byteSize s) hsize, hurl⟩, hsize⟩
  · rintro ⟨⟨hempty, -, hurl⟩, hsize⟩
    exact ⟨hempty, hsize, hurl⟩

theorem validUrl_eq_nil_iff :
    validUrl field s = [] ↔ UrlRule s ∧ s.utf8ByteSize ≤ maxUrlLength :=
  (Rule.violations_eq_nil (r := .url field s)).trans acceptedUrl_iff

/-- An address that keeps the rule can only be told that it is too long. -/
theorem UrlRule.told_iff (h : UrlRule s) {v : Violation} :
    (Rule.url field s).Told v ↔ maxUrlLength < s.utf8ByteSize ∧ v = .longUrl field := by
  obtain ⟨hempty, -, url, hurl⟩ := h
  constructor
  · rintro (⟨hblank, -⟩ | ⟨-, hlong, rfl⟩ | ⟨-, -, fault, hfault, -⟩)
    · exact absurd hblank hempty
    · exact ⟨hlong, rfl⟩
    · rw [hurl] at hfault
      cases hfault
  · rintro ⟨hlong, rfl⟩
    exact .inr (.inl ⟨hempty, hlong, rfl⟩)

end

/-! ## Addresses in documents -/

namespace Document

/-- Is a text an address in a document, under the name of a field? -/
inductive Address (d : Document) : String → String → Prop where
  | source (s : ScalarSpace) (h : d.scalar? = some s) : Address d "source_uri" s.sourceUri
  | project (o : OracleConfig) (url : String) (h : d.oracle? = some o)
    (hurl : o.projectUrl = some url) : Address d "project_url" url
  | interface (s : JsonPathSpec) (h : d.spec? = some (.jsonPath s)) : Address d "url" s.url

variable {d : Document} {field s : String}

theorem Address.mem_rules (h : d.Address field s) : .url field s ∈ d.rules := by
  obtain ⟨k, body⟩ := d
  cases h with
  | source sp h =>
    cases k <;> cases h <;> simp [rules, ScalarSpace.rules]
  | project o url h hurl =>
    cases k <;> cases h <;> simp [rules, OracleConfig.rules, hurl]
  | interface spec h =>
    cases k with
    | outcomeSpaceTimeSeries =>
      have hspec : body.historySpec = some (.jsonPath spec) := h
      simp [rules, hspec, ApiSpec.rules, JsonPathSpec.rules]
    | oracleConfigPrototype1 =>
      have hspec : body.evaluationSpec = .jsonPath spec := Option.some.inj h
      simp [rules, hspec, ApiSpec.rules, JsonPathSpec.rules]
    | _ => cases h

/-- An address is accepted when it is an absolute address of at most 2083 characters and of at most
2083 bytes as well.  One that has no more characters but more bytes is told that it has too many
characters.  For an address of ASCII characters, or of at most 520 characters, the rule is kept.  A
document is valid only if all of its addresses are accepted, and if the first rule that it breaks is
that of an address with no more characters than it may have, it is told that they are too many. -/
theorem urls_counted_in_bytes (field s : String) :
    (validUrl field s = [] ↔ UrlRule s ∧ s.utf8ByteSize ≤ maxUrlLength) ∧
    (UrlRule s → maxUrlLength < s.utf8ByteSize → validUrl field s = [.longUrl field]) ∧
    ((∀ c ∈ s.toList, c.toNat < 0x80) ∨ s.length ≤ 520 → (validUrl field s = [] ↔ UrlRule s)) ∧
    ∀ d : Document, d.Address field s →
      (d.validate = .ok () → UrlRule s ∧ s.utf8ByteSize ≤ maxUrlLength) ∧
      ∀ v, FirstBroken d.rules (.url field s) v → UrlRule s →
        maxUrlLength < s.utf8ByteSize ∧ d.validate = .error v ∧ v = .longUrl field := by
  refine ⟨validUrl_eq_nil_iff, fun h hlong => ?_, fun hshort => ?_,
    fun d haddress => ⟨fun hvalid => ?_, fun v hbroken h => ?_⟩⟩
  · have hempty : s.isEmpty = false := by simpa using h.nonempty
    rw [validUrl, hempty, if_neg Bool.false_ne_true, if_pos hlong]
  · rw [validUrl_eq_nil_iff, and_iff_left_iff_imp]
    intro h
    -- a character has one byte if it is of ASCII, and never more than four
    rcases hshort with hascii | hshort
    · exact byteSize_of_ascii hascii ▸ h.length_le
    · have hlimit : maxUrlLength = 2083 := rfl
      have hsize := byteSize_le_four_mul s
      omega
  · have hholds : (Rule.url field s).Holds :=
      validate_eq_ok_iff_rules.mp hvalid _ haddress.mem_rules
    exact acceptedUrl_iff.mp hholds
  · have hinvalid : d.validate = .error v := by
      rw [validate, violations_eq]
      exact firstViolation_eq_error.mpr ⟨_, hbroken⟩
    obtain ⟨before, after, -, -, -, htold⟩ := hbroken
    obtain ⟨hlong, rfl⟩ := h.told_iff.mp htold
    exact ⟨hlong, hinvalid, rfl⟩

/-! ### Wide addresses -/

/-- A name of some characters that have two bytes each. -/
def wideUrl (n : Nat) : String := .ofList ("urn:".toList ++ List.replicate n 'é')

theorem wideUrl_eq (n : Nat) :
    wideUrl n = String.ofList ("urn:".toList ++ List.replicate n 'é') := rfl

theorem length_wideUrl (n : Nat) : (wideUrl n).length = 4 + n := by
  rw [wideUrl_eq, String.length_ofList, List.length_append, List.length_replicate]
  rfl

theorem byteSize_wideUrl (n : Nat) : (wideUrl n).utf8ByteSize = 4 + n * 2 := by
  have hname : ("urn:".toList.map Char.utf8Size).sum = 4 := rfl
  have hwide : Char.utf8Size 'é' = 2 := rfl
  rw [wideUrl_eq, utf8ByteSize_ofList, List.map_append, List.sum_append, hname, List.map_replicate,
    List.sum_replicate, hwide, Nat.nsmul_eq_mul]

/-- A wide address keeps the rule if it has few enough characters. -/
theorem urlRule_wideUrl {n : Nat} (h : 4 + n ≤ maxUrlLength) : UrlRule (wideUrl n) where
  nonempty hempty := by
    have hlength := length_wideUrl n
    rw [hempty, String.length_empty] at hlength
    omega
  length_le := by rwa [length_wideUrl]
  absolute := by
    rw [Url.ofText, wideUrl_eq, String.toList_ofList]
    apply Url.exists_ofChars_urn
    · intro c hc
      rw [List.eq_of_mem_replicate hc]
      decide
    · intro hslash
      exact absurd (List.eq_of_mem_replicate (List.mem_of_head? hslash)) (by decide)

/-- An oracle with an address of 1044 characters is told that these are too many. -/
theorem urls_counted_in_bytes_sample :
    validUrl "project_url" (wideUrl 1040) = [.longUrl "project_url"] ∧
    validate ⟨.oracleConfig, ⟨"d", some (wideUrl 1040)⟩⟩ = .error (.longUrl "project_url") ∧
    (validUrl "url" (wideUrl 7) = [] ↔ UrlRule (wideUrl 7)) ∧
    UrlRule "urn:x" := by
  have hrule : UrlRule (wideUrl 1040) := urlRule_wideUrl (by decide)
  have hlong : maxUrlLength < (wideUrl 1040).utf8ByteSize := by
    rw [byteSize_wideUrl]
    decide
  obtain ⟨-, htold, -, hdocument⟩ := urls_counted_in_bytes "project_url" (wideUrl 1040)
  obtain ⟨-, -, hurl, -⟩ := urls_counted_in_bytes "url" (wideUrl 7)
  obtain ⟨-, -, -, hvalid⟩ := urls_counted_in_bytes "project_url" "urn:x"
  have hbroken : FirstBroken (rules ⟨.oracleConfig, ⟨"d", some (wideUrl 1040)⟩⟩)
      (.url "project_url" (wideUrl 1040)) (.longUrl "project_url") := by
    have htold : (Rule.url "project_url" (wideUrl 1040)).Told (.longUrl "project_url") :=
      hrule.told_iff.mpr ⟨hlong, rfl⟩
    refine ⟨[.text "description" "d"], [], rfl, ?_, Rule.not_holds_of_told htold, htold⟩
    simp [Rule.Holds]
  have hshort : (wideUrl 7).length ≤ 520 := by
    rw [length_wideUrl]
    decide
  obtain ⟨-, hfirst⟩ := hdocument ⟨.oracleConfig, ⟨"d", some (wideUrl 1040)⟩⟩
    (.project _ _ rfl rfl)
  obtain ⟨hkept, -⟩ := hvalid ⟨.oracleConfig, ⟨"d", some "urn:x"⟩⟩ (.project _ _ rfl rfl)
  exact ⟨htold hrule hlong, (hfirst _ hbroken hrule).2.1, hurl (.inr hshort), (hkept rfl).1⟩

/-- The characters of an address are not what is counted. -/
theorem not_counted_in_characters : ¬ ∀ field s, validUrl field s = [] ↔ UrlRule s := by
  intro hrule
  have hwide : UrlRule (wideUrl 1040) := urlRule_wideUrl (by decide)
  obtain ⟨-, hsize⟩ := validUrl_eq_nil_iff.mp ((hrule "project_url" (wideUrl 1040)).mpr hwide)
  rw [byteSize_wideUrl] at hsize
  exact absurd hsize (by decide)

end Document

end MarketDag
