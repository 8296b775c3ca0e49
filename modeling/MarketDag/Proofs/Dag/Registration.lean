import MarketDag.Proofs.Dag.Failures
import MarketDag.Proofs.Dag.Registry

/-!
# Registration of kinds

The texts of the kinds name schemas, no two of them the same one.  A registry of some kinds and the
identifiers that their texts are read as determine each other, and a list with a repeated kind has
no registry (`Registry.ofKinds_bijective`).
-/

namespace MarketDag.Registry

/-! ## Messages -/

/-- What the message about a schema that is taken says, from its text and the names of the kinds. -/
def takenReason (schema existing name : String) : String :=
  s!"schema CID {schema} is registered for both {existing} and {name}"

theorem message_registeredTwice (k l : Kind) :
    (Error.misconfigured (.registeredTwice k.schema l k)).message =
      some ("Configuration: misconfigured: " ++ takenReason k.schemaText l.name k.name) := by
  have hcause : (Error.misconfigured (.registeredTwice k.schema l k)).cause =
      some ("misconfigured: " ++ takenReason k.schemaText l.name k.name) := by
    rw [← k.toText_schema]
    rfl
  have hfront : "Configuration" ++ ": " ++ "misconfigured: " =
      "Configuration: misconfigured: " := by decide
  exact Error.message_of_cause hcause hfront

theorem message_unknownSchema (c : Cid) :
    (Error.unknownSchema c).message =
      some ("UnknownSchema: unsupported schema CID " ++ c.toText) := by
  have hcause : (Error.unknownSchema c).cause = some ("unsupported schema CID " ++ c.toText) := rfl
  have hfront : "UnknownSchema" ++ ": " ++ "unsupported schema CID " =
      "UnknownSchema: unsupported schema CID " := by decide
  exact Error.message_of_cause hcause hfront

/-! ## Registered kinds and their schemas -/

/-- The texts of the kinds are read as identifiers of one form, of which no two are the same.  Kinds
are registered exactly when none of them is repeated, else it is the settings that are at fault, and
the message names the first repeated kind with its schema.  A registry of some kinds takes exactly
these kinds to the identifiers that their texts are read as, and exactly these identifiers back; any
other identifier, be it one that shares its digest with one of these, is an unknown schema, and the
registry is as large as the list. -/
theorem ofKinds_bijective (ks : List Kind) :
    (∀ k : Kind, ∃ c, Cid.ofText k.schemaText = .ok c ∧ c.version = 1 ∧ c.codec = Cid.dagCbor ∧
      c.hash.code = Multihash.sha256Code) ∧
    (∀ (k l : Kind) c, Cid.ofText k.schemaText = .ok c → Cid.ofText l.schemaText = .ok c → k = l) ∧
    ((∃ r, ofKinds ks = .ok r) ↔ ks.Nodup) ∧
    (∀ e, ofKinds ks = .error e ↔
      ∃ k : Kind, FirstRepeated ks k ∧ e = .misconfigured (.registeredTwice k.schema k k) ∧
        e.kind = .configuration ∧
        e.message =
          some ("Configuration: misconfigured: " ++ takenReason k.schemaText k.name k.name)) ∧
    ∀ r, ofKinds ks = .ok r →
      (∀ k c, r.schema? k = some c ↔ r.resolve c = .ok k) ∧
      (∀ k c, r.resolve c = .ok k ↔ k ∈ ks ∧ Cid.ofText k.schemaText = .ok c) ∧
      (∀ c, (∀ k ∈ ks, Cid.ofText k.schemaText ≠ .ok c) → ∃ e, r.resolve c = .error e ∧
        e = .unknownSchema c ∧ e.kind = .unknownSchema ∧
        e.message = some ("UnknownSchema: unsupported schema CID " ++ c.toText)) ∧
      r.size = ks.length := by
  refine ⟨fun k => ⟨k.schema, k.ofText_schemaText, k.namesSchema_schema⟩, fun k l c hk hl => ?_,
    exists_ofKinds_iff, fun e => ?_, fun r hr => ?_⟩
  · rw [Kind.ofText_schemaText_eq_ok] at hk hl
    exact Kind.schema_injective (hk.trans hl.symm)
  · rw [ofKinds_eq_error]
    constructor
    · rintro ⟨k, hk, rfl⟩
      exact ⟨k, hk, rfl, rfl, message_registeredTwice k k⟩
    · rintro ⟨k, hk, rfl, -, -⟩
      exact ⟨k, hk, rfl⟩
  · have hkinds : r.kinds = ks := kinds_ofKinds hr
    refine ⟨fun k c => schema?_eq_some_iff_resolve, fun k c => ?_, fun c hc => ?_, ?_⟩
    · rw [resolve_eq_ok, hkinds, Kind.ofText_schemaText_eq_ok]
    · have hnone : ∀ k ∈ r.kinds, k.schema ≠ c := by
        intro k hk hschema
        exact hc k (hkinds ▸ hk) (Kind.ofText_schemaText_eq_ok.mpr hschema)
      exact ⟨_, resolve_eq_error.mpr ⟨hnone, rfl⟩, rfl, rfl, message_unknownSchema c⟩
    · rw [size_eq, hkinds]

/-- A fallback that comes again is found behind a kind that is there once. -/
example : ofKinds [.oracleFallback, .outcomeSpace, .oracleFallback] = .error (.misconfigured
    (.registeredTwice Kind.oracleFallback.schema .oracleFallback .oracleFallback)) :=
  ofKinds_eq_error.mpr
    ⟨.oracleFallback, ⟨[.oracleFallback, .outcomeSpace], [], rfl, by decide, by decide⟩, rfl⟩

end MarketDag.Registry
