import MarketDag.Archive.Fault
import MarketDag.Document.Violation
import MarketDag.Http.Status
import MarketDag.Shape.Fault

/-!
# Errors

Everything that can fail, by cause.  An error belongs to one of eight kinds, which say whose fault
it is; its message is the kind and the wording of the cause, where the cause has one.
-/

namespace MarketDag

/-! ## Kinds -/

/-- Whose fault an error is. -/
inductive ErrorKind where
  /-- The network, or a server that refuses. -/
  | transport
  /-- An answer that does not have the expected form. -/
  | transportFormat
  /-- A codec or a hash function that is not known. -/
  | unsupportedCodec
  /-- A schema that is not registered. -/
  | unknownSchema
  /-- A document that breaks a rule. -/
  | validation
  /-- Bytes that do not belong to their identifier. -/
  | integrity
  /-- Settings that cannot be used. -/
  | configuration
  /-- A value that cannot be written, or a request that cannot be made. -/
  | internal
deriving DecidableEq, Repr

/-- The name of a kind. -/
def ErrorKind.name : ErrorKind → String
  | .transport => "Transport"
  | .transportFormat => "TransportFormat"
  | .unsupportedCodec => "UnsupportedCodec"
  | .unknownSchema => "UnknownSchema"
  | .validation => "Validation"
  | .integrity => "Integrity"
  | .configuration => "Configuration"
  | .internal => "Internal"

instance : ToString ErrorKind := ⟨ErrorKind.name⟩

/-! ## Causes -/

/-- An answer that does not have the expected form. -/
inductive ResponseFault where
  | badArchive (fault : Archive.Fault)
  | badText (fault : Utf8.Fault)
  | empty
  /-- A root whose text is no identifier. -/
  | badRoot (text : String) (fault : Cid.Fault)
  /-- Any other answer, in words. -/
  | other (reason : String)

/-- The wording of an answer's fault. -/
def ResponseFault.reason : ResponseFault → String
  | .badArchive fault => s!"malformed CAR archive: {fault.message}"
  | .badText fault => s!"dag import body is not UTF-8: {fault.message}"
  | .empty => "empty dag import response"
  | .badRoot text fault =>
    s!"invalid root CID {quoted text} in dag import response: {fault.message}"
  | .other reason => reason

/-- Settings that cannot be used. -/
inductive Misconfiguration where
  | unregistered (kind : Kind)
  /-- A kind whose text names no schema. -/
  | badSchema (kind : Kind) (fault : SchemaFault)
  /-- A schema that is registered for a kind already when another one comes. -/
  | registeredTwice (schema : Cid) (existing kind : Kind)
  /-- Any other settings, in words. -/
  | other (reason : String)

/-- The wording of settings that cannot be used. -/
def Misconfiguration.reason : Misconfiguration → String
  | .unregistered kind => s!"{kind} is not registered"
  | .badSchema kind (.unreadable fault) =>
    s!"pinned schema CID {kind.schemaText} of {kind} does not parse: {fault.message}"
  | .badSchema kind .otherForm =>
    s!"pinned schema CID {kind.schemaText} of {kind} is not a dag-cbor/sha2-256 CIDv1"
  | .registeredTwice schema existing kind =>
    s!"schema CID {schema} is registered for both {existing} and {kind}"
  | .other reason => reason

/-- A cause of failure. -/
inductive Error where
  /-- The network failed before an answer was complete. -/
  | unreachable
  /-- An answer that refuses, with its status and its text. -/
  | refused (status : Status) (method : Method) (path text : String)
  /-- No answer within so many milliseconds, if there was a limit. -/
  | timedOut (method : Method) (path : String) (limit : Option Nat)
  | unexpectedResponse (fault : ResponseFault)
  /-- An answer whose JSON does not have the expected form. -/
  | badResponseJson (fault : DecodeFault)
  | unsupportedCodec (cid : Cid) (code : UInt64)
  | unknownSchema (schema : Cid)
  | invalid (violation : Violation)
  /-- Bytes that are no value of the expected form. -/
  | undecodable (fault : DecodeFault)
  /-- The identifier that was computed is not the one that was given. -/
  | mismatch (computed given : Cid)
  | misconfigured (cause : Misconfiguration)
  | badHost (fault : UrlFault)
  | badHeaderValue
  /-- A request to an address that is none of HTTP. -/
  | notHttp
  /-- A value without a tree. -/
  | noLayout (fault : LayoutFault)
  /-- A tree with a number that is not finite. -/
  | notFinite

namespace Error

/-- The kind of an error. -/
def kind : Error → ErrorKind
  | .unreachable => .transport
  | .refused .. => .transport
  | .timedOut .. => .transport
  | .unexpectedResponse _ => .transportFormat
  | .badResponseJson _ => .transportFormat
  | .unsupportedCodec .. => .unsupportedCodec
  | .unknownSchema _ => .unknownSchema
  | .invalid _ => .validation
  | .undecodable _ => .validation
  | .mismatch .. => .integrity
  | .misconfigured _ => .configuration
  | .badHost _ => .configuration
  | .badHeaderValue => .configuration
  | .notHttp => .internal
  | .noLayout _ => .internal
  | .notFinite => .internal

/-- The wording of the cause, if it has one. -/
def cause : Error → Option String
  | .unreachable => none
  | .refused status method path text =>
    some s!"error({status}) making {method} call to {path} with {text}"
  | .timedOut method path none => some s!"{method} call to {path} timed out"
  | .timedOut method path (some limit) =>
    some s!"{method} call to {path} timed out after {limit}ms"
  | .unexpectedResponse fault => some s!"unexpected block store response: {fault.reason}"
  | .badResponseJson fault => fault.message
  | .unsupportedCodec cid code =>
    some s!"unsupported codec 0x{Hex.numeral code.toNat} in {cid}"
  | .unknownSchema schema => some s!"unsupported schema CID {schema}"
  | .invalid violation => some s!"invalid: {violation.reason}"
  | .undecodable fault => fault.message
  | .mismatch computed given =>
    some s!"mismatch between computed CID {computed} and remote CID {given}"
  | .misconfigured cause => some s!"misconfigured: {cause.reason}"
  | .badHost fault => some fault.message
  | .badHeaderValue => some "failed to parse header value"
  | .notHttp => none
  | .noLayout fault => some s!"serde error: {fault.message}"
  | .notFinite => some "Float must be a finite number, not Infinity or NaN"

/-- The kind and the wording of the cause, if it has one. -/
def message (e : Error) : Option String := e.cause.map fun text => s!"{e.kind}: {text}"

/-- Did a request get no answer in time? -/
def isTimeout : Error → Bool
  | .timedOut .. => true
  | _ => false

end Error

end MarketDag
