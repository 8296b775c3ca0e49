import MarketDag.Document.Basic
import MarketDag.Web.Url

/-!
# Violations

The rules that the types of documents do not express, and what a document that breaks one is told.
-/

namespace MarketDag

/-- The most bytes of an address. -/
def maxUrlLength : Nat := 2083

/-- The last year of a fallback time. -/
def maxFallbackYear : Nat := 9999

/-- A rule that is broken. -/
inductive Violation where
  /-- A field without text. -/
  | blank (field : String)
  | longUrl (field : String)
  | badUrl (field : String) (fault : UrlFault)
  | releaseBeforeReference (release reference : Date)
  | authNameMissing (location : AuthLocation)
  | dateFormatMissing
  | noPages
  | smallScale (scale : Decimal)
  | beforeEpoch (t : Instant)
  | afterLastYear (t : Instant)
  | fractional (t : Instant)
  | wrongFamily (expected actual : Family)
  /-- A link whose schema is for another part of the metadata. -/
  | wrongSlot (slot : Family) (schema : Cid) (kind : Kind)
  | emptyArchive
  /-- Any other rule, in words. -/
  | other (reason : String)

/-- The wording of a violation. -/
def Violation.reason : Violation → String
  | .blank field => s!"{field} must not be empty"
  | .longUrl field => s!"{field} must be at most {maxUrlLength} characters"
  | .badUrl field fault => s!"{field} is not a valid URL: {fault.message}"
  | .releaseBeforeReference release reference =>
    s!"observation.release_date {release} precedes reference_date {reference}"
  | .authNameMissing location =>
    "auth_param_name is required when auth_param_location is " ++ Choice.name location
  | .dateFormatMissing => "date_format_custom is required when date_format_type is custom"
  | .noPages => "max_pages must be at least 1"
  | .smallScale scale => "timestamp_scale must be at least 1, got " ++ scale.toText
  | .beforeEpoch t => s!"fallback_time {t} precedes the UNIX epoch"
  | .afterLastYear t => s!"fallback_time {t} is after the year {maxFallbackYear}"
  | .fractional t => s!"fallback_time {t} has a fractional second"
  | .wrongFamily expected actual => s!"expected {expected} document, decoded {actual} document"
  | .wrongSlot slot schema kind =>
    s!"{slot} link declares schema {schema} of {kind}, a {kind.family} document"
  | .emptyArchive => "an archive needs at least one block"
  | .other reason => reason

end MarketDag
