import MarketDag.Shape.Basic

/-!
# Descriptions of interfaces

How values are fetched from an outside source: by paths into the JSON that it serves, or known by
name only.  Settings that a block leaves out take their defaults.
-/

namespace MarketDag

/-! ## Settings -/

/-- The standard that an interface follows. -/
inductive ApiStandard where
  | jsonPath
  | graphQl
deriving DecidableEq, Repr

instance : Choice ApiStandard where
  names := ["JSONPath", "GraphQL"]
  index
    | .jsonPath => 0
    | .graphQl => 1
  ofIndex
    | 0 => .jsonPath
    | 1 => .graphQl
  ofIndex_index a := by cases a <;> rfl

/-- What an interface serves. -/
inductive SpecVariant where
  /-- Past values of what a product is about. -/
  | underlyingHistory
  /-- The value that a product settles at. -/
  | productFsv
deriving DecidableEq, Repr

instance : Choice SpecVariant where
  names := ["underlying-history", "product-fsv"]
  index
    | .underlyingHistory => 0
    | .productFsv => 1
  ofIndex
    | 0 => .underlyingHistory
    | 1 => .productFsv
  ofIndex_index a := by cases a <;> rfl

/-- Where a request carries its key. -/
inductive AuthLocation where
  | query
  | header
  | nowhere
deriving DecidableEq, Repr

instance : Choice AuthLocation where
  names := ["query", "header", "none"]
  index
    | .query => 0
    | .header => 1
    | .nowhere => 2
  ofIndex
    | 0 => .query
    | 1 => .header
    | 2 => .nowhere
  ofIndex_index a := by cases a <;> rfl

/-- How dates are written. -/
inductive DateFormat where
  | iso8601
  | unixTimestamp
  | custom
deriving DecidableEq, Repr

instance : Choice DateFormat where
  names := ["iso8601", "unix_timestamp", "custom"]
  index
    | .iso8601 => 0
    | .unixTimestamp => 1
    | .custom => 2
  ofIndex
    | 0 => .iso8601
    | 1 => .unixTimestamp
    | 2 => .custom
  ofIndex_index a := by cases a <;> rfl

/-- The most pages that are fetched; none where there is no bound. -/
abbrev PageLimit := Option (Fin UInt32.size)

/-- Limits may be written as numerals. -/
instance PageLimit.size_neZero : @NeZero Nat Zero.ofOfNat0 UInt32.size := ⟨Nat.succ_ne_zero _⟩

/-! ## Descriptions -/

/-- An interface whose answers are navigated with path expressions. -/
structure JsonPathSpec where
  standard : ApiStandard
  variety : SpecVariant
  url : String
  datePath : String
  valuePath : String
  authLocation : AuthLocation := .nowhere
  authName : Option String := none
  authPrefix : Option String := none
  tokenParam : Option String := none
  tokenPath : Option String := none
  customDateFormat : Option String := none
  dateFormat : DateFormat := .iso8601
  headers : Option Headers := none
  maxPages : PageLimit := some 10
  timestampScale : Decimal := .one
  timezone : String := "UTC"

/-- An interface known by name only. -/
structure GenericSpec where
  standard : ApiStandard
  variety : SpecVariant

/-- The description of an interface. -/
inductive ApiSpec where
  | jsonPath (spec : JsonPathSpec)
  | generic (spec : GenericSpec)

/-- The standard of a described interface. -/
def ApiSpec.standard : ApiSpec → ApiStandard
  | .jsonPath spec => spec.standard
  | .generic spec => spec.standard

/-- What a described interface serves. -/
def ApiSpec.variety : ApiSpec → SpecVariant
  | .jsonPath spec => spec.variety
  | .generic spec => spec.variety

/-! ## Form -/

namespace JsonPathSpec

/-- The fields of a description by paths. -/
abbrev fields : Fields :=
  .required "standard" (.leaf (Choice.leaf ApiStandard)) <|
  .required "spec_variant" (.leaf (Choice.leaf SpecVariant)) <|
  .required "url" (.leaf .text) <|
  .required "date_path" (.leaf .text) <|
  .required "value_path" (.leaf .text) <|
  .defaulted "auth_param_location" (Choice.leaf AuthLocation) (Choice.index AuthLocation.nowhere) <|
  .defaulted "auth_param_name" (.optional .text) none <|
  .defaulted "auth_param_prefix" (.optional .text) none <|
  .defaulted "continuation_token_param" (.optional .text) none <|
  .defaulted "continuation_token_path" (.optional .text) none <|
  .defaulted "date_format_custom" (.optional .text) none <|
  .defaulted "date_format_type" (Choice.leaf DateFormat) (Choice.index DateFormat.iso8601) <|
  .defaulted "headers" (.optional .headers) none <|
  .defaulted "max_pages" (.optional .count) (some 10) <|
  .defaulted "timestamp_scale" .decimal Decimal.one <|
  .defaulted "timezone" .text "UTC" .nil

instance : Shaped JsonPathSpec where
  shape := .record "JsonPathApiSpec" fields
  toValue s :=
    (Choice.index s.standard, Choice.index s.variety, s.url, s.datePath, s.valuePath,
      Choice.index s.authLocation, s.authName, s.authPrefix, s.tokenParam, s.tokenPath,
      s.customDateFormat, Choice.index s.dateFormat, s.headers, s.maxPages, s.timestampScale,
      s.timezone, ())
  ofValue
    | (standard, variety, url, datePath, valuePath, authLocation, authName, authPrefix, tokenParam,
        tokenPath, customDateFormat, dateFormat, headers, maxPages, timestampScale, timezone, ()) =>
      ⟨Choice.ofIndex standard, Choice.ofIndex variety, url, datePath, valuePath,
        Choice.ofIndex authLocation, authName, authPrefix, tokenParam, tokenPath, customDateFormat,
        Choice.ofIndex dateFormat, headers, maxPages, timestampScale, timezone⟩
  ofValue_toValue s := by simp [Choice.ofIndex_index]

end JsonPathSpec

namespace GenericSpec

/-- The fields of a description by name. -/
abbrev fields : Fields :=
  .required "standard" (.leaf (Choice.leaf ApiStandard)) <|
  .required "spec_variant" (.leaf (Choice.leaf SpecVariant)) .nil

instance : Shaped GenericSpec where
  shape := .record "GenericApiSpec" fields
  toValue s := (Choice.index s.standard, Choice.index s.variety, ())
  ofValue
    | (standard, variety, ()) => ⟨Choice.ofIndex standard, Choice.ofIndex variety⟩
  ofValue_toValue s := by simp [Choice.ofIndex_index]

end GenericSpec

instance : Shaped ApiSpec where
  shape := .either "ApiSpec" (Shaped.shape JsonPathSpec) (Shaped.shape GenericSpec)
  toValue
    | .jsonPath spec => .inl (Shaped.toValue spec)
    | .generic spec => .inr (Shaped.toValue spec)
  ofValue
    | .inl v => .jsonPath (Shaped.ofValue v)
    | .inr v => .generic (Shaped.ofValue v)
  ofValue_toValue s := by cases s <;> simp [Shaped.ofValue_toValue]

end MarketDag
