import MarketDag.Error
import MarketDag.Text.Marked

/-!
# Exchanges

A request to a server and what comes back: an answer, part of one, or none.  The result of an
exchange is the body of an answer that says that all went well; everything else is an error.
-/

namespace MarketDag

/-! ## Requests -/

/-- The one part of a request that carries a file. -/
structure Part where
  headers : List String
  body : List UInt8
deriving DecidableEq

/-- A request. -/
structure Request where
  method : Method
  path : String
  /-- Keys and texts after the path. -/
  query : List (String × String)
  authorization : Option String
  userAgent : String
  accept : String
  part : Option Part
deriving DecidableEq

/-- The path with the query. -/
def Request.target (r : Request) : String :=
  r.path ++ "?" ++ "&".intercalate (r.query.map fun q => q.1 ++ "=" ++ q.2)

/-! ## Replies -/

/-- What comes back for a request in the end.  A reply has a status and a body but no headers, so
it points to no other place: when a server does, the reply is what the last place sends.  A status
of redirection is one like any other that does not say that all went well. -/
inductive Reply where
  /-- An answer that is complete. -/
  | complete (status : Status) (body : List UInt8)
  /-- An answer whose connection is closed inside the body, after some bytes of it. -/
  | cutShort (status : Status) (received : List UInt8)
  /-- An answer that stops inside the body, after some bytes of it. -/
  | stalled (status : Status) (received : List UInt8)
  /-- No answer at all. -/
  | silent
  /-- A connection that is closed without an answer. -/
  | closed
deriving DecidableEq

/-- A server that answers requests, or a network on which there is none. -/
inductive Server where
  | answering (reply : Request → Reply)
  | absent

/-- What comes back for a request. -/
def Server.reply : Server → Request → Reply
  | .answering reply, request => reply request
  | .absent, _ => .closed

namespace Reply

/-- The status of a reply that has one. -/
def status? : Reply → Option Status
  | .complete status _ => some status
  | .cutShort status _ => some status
  | .stalled status _ => some status
  | .silent => none
  | .closed => none

/-- The body of a reply, if all of it came within so many milliseconds. -/
def content (request : Request) (limit : Nat) : Reply → Except Error (List UInt8)
  | .complete _ body => .ok body
  | .cutShort _ _ => .error .unreachable
  | .stalled _ _ => .error (.timedOut request.method request.path (some limit))
  | .silent => .error (.timedOut request.method request.path (some limit))
  | .closed => .error .unreachable

/-- What a reply says that refuses: the text of its body, and nothing if not all of it came. -/
def refusal (request : Request) (limit : Nat) (reply : Reply) : String :=
  match reply.content request limit with
  | .ok body => textOfMarked body
  | .error _ => ""

/-- The body of a reply that says that all went well. -/
def result (request : Request) (limit : Nat) (reply : Reply) : Except Error (List UInt8) :=
  match reply.status? with
  | none => reply.content request limit
  | some status =>
    if status.isSuccess then reply.content request limit
    else
      .error (.refused status request.method request.path (reply.refusal request limit))

end Reply

end MarketDag
