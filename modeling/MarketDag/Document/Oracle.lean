import MarketDag.Document.ApiSpec

/-!
# Oracles

Who submits the final value of a product, how it is found, and what holds if it never comes.
-/

namespace MarketDag

/-- What all oracle configurations have. -/
structure OracleConfig where
  description : String
  projectUrl : Option String := none
deriving DecidableEq, Repr

/-- An oracle that is told where to look. -/
structure PrototypeOracle extends OracleConfig where
  evaluationSpec : ApiSpec

/-- The value that holds if none was submitted by a time. -/
structure Fallback where
  time : Instant
  fsp : Decimal

/-! ## Form -/

instance : Shaped OracleConfig where
  shape :=
    .record "BaseOracleConfig" <|
      .required "description" (.leaf .text) <|
      .optional "project_url" (.leaf .text) .nil
  toValue o := (o.description, o.projectUrl, ())
  ofValue
    | (description, projectUrl, ()) => ⟨description, projectUrl⟩

instance : Shaped PrototypeOracle where
  shape :=
    .record "Prototype1OracleConfig" <|
      .required "description" (.leaf .text) <|
      .optional "project_url" (.leaf .text) <|
      .required "evaluation_api_spec" (Shaped.shape ApiSpec) .nil
  toValue o := (o.description, o.projectUrl, Shaped.toValue o.evaluationSpec, ())
  ofValue
    | (description, projectUrl, evaluationSpec, ()) =>
      ⟨⟨description, projectUrl⟩, Shaped.ofValue evaluationSpec⟩
  ofValue_toValue o := by simp [Shaped.ofValue_toValue]

instance : Shaped Fallback where
  shape :=
    .record "OracleFallback" <|
      .required "fallback_time" (.leaf .instant) <|
      .required "fallback_fsp" (.leaf .decimal) .nil
  toValue f := (f.time, f.fsp, ())
  ofValue
    | (time, fsp, ()) => ⟨time, fsp⟩

end MarketDag
