import MarketDag.Archive.Basic
import MarketDag.Store.ImportReply

/-!
# Block stores behind a web address

A store that is reached by requests to a server: one path under its address takes archives, another
one gives blocks.  Every request carries the key of the store's settings, if they have one.
-/

namespace MarketDag

/-! ## Settings -/

/-- How a store is reached. -/
structure Config where
  /-- How long a request may take, in milliseconds. -/
  timeout : Nat := 30000
  apiKey : Option String := none

namespace Config

/-- A time as messages show it: seconds with their fraction, or milliseconds. -/
def durationText (milliseconds : Nat) : String :=
  let seconds := milliseconds / 1000
  let rest := milliseconds % 1000
  if milliseconds = 0 then "0ns"
  else if seconds = 0 then s!"{rest}ms"
  else if rest = 0 then s!"{seconds}s"
  else
    let digits := (Date.padded 3 rest).reverse.dropWhile (· = '0')
    s!"{seconds}.{String.ofList digits.reverse}s"

/-- The settings as text, without the key itself. -/
def toText (config : Config) : String :=
  let key := if config.apiKey.isSome then "Some(SecretBox<str>([REDACTED]))" else "None"
  "Config \x7b timeout: " ++ durationText config.timeout ++ ", api_key: " ++ key ++ " \x7d"

end Config

/-- May a character stand in the value of a header? -/
def isHeaderChar (c : Char) : Bool := c = '\t' ∨ (0x20 ≤ c.toNat ∧ c.toNat ≠ 0x7F)

/-! ## Stores -/

/-- A store behind an address, whose path ends with a slash. -/
structure Remote where
  host : Url
  config : Config

namespace Remote

/-- The store at an address. -/
def ofHost (host : String) (config : Config) : Except Error Remote := do
  let url ← (Url.ofText host).mapError .badHost
  -- the key is looked at only under a good address
  if config.apiKey.any fun key => ¬ key.toList.all isHeaderChar then throw .badHeaderValue
  return ⟨url.asBase, config⟩

/-- The address that is used where none is given. -/
def usualHost : String := "http://localhost:5001"

/-- The store at an address that may be missing, with a key that may be missing or empty. -/
def ofSettings (host? key? : Option String) : Except Error Remote :=
  ofHost (host?.getD usualHost) { apiKey := key?.filter fun key => ¬ key.isEmpty }

/-! ## Requests -/

/-- Where archives are taken in. -/
def importSegments : List (List Char) :=
  ["api".toList, "v0".toList, "dag".toList, "import".toList]

/-- Where blocks are given. -/
def blockSegments : List (List Char) :=
  ["api".toList, "v0".toList, "block".toList, "get".toList]

/-- The store's request to an address. -/
def requestTo (r : Remote) (target : Url) (query : List (String × String)) (part : Option Part) :
    Request where
  method := .post
  path := String.ofList target.path.toChars
  query := query
  authorization := r.config.apiKey.map ("Bearer " ++ ·)
  userAgent := "afp_client_sdk"
  accept := "*/*"
  part := part

/-- A request under the store's address, which has to be one of HTTP. -/
def request (r : Remote) (segments : List (List Char)) (query : List (String × String))
    (part : Option Part) : Except Error Request := do
  let target ← (r.host.join segments).mapError .badHost
  if Url.isHttp target.scheme then return r.requestTo target query part else throw .notHttp

/-- The bytes of an archive as the file that a request carries. -/
def archivePart (a : Archive) : Part where
  headers :=
    ["Content-Disposition: form-data; name=\"file\"; filename=\"extended-metadata.car\"",
     "Content-Type: application/vnd.ipld.car"]
  body := a.toBytes

/-- The request that imports an archive. -/
def importRequest (r : Remote) (a : Archive) : Except Error Request :=
  r.request importSegments [("pin-roots", "true")] (archivePart a)

/-- The request for a block. -/
def blockRequest (r : Remote) (cid : Cid) : Except Error Request :=
  r.request blockSegments [("arg", cid.toText)] none

/-! ## The store -/

/-- The requests that a server has seen, the last one first. -/
abbrev Seen := List Request

/-- Sends a request. -/
def send (server : Server) (request : Request) : StateM Seen Reply := do
  match server with
  | .absent => pure ()
  | .answering _ => modify (request :: ·)
  return server.reply request

/-- A store behind an address as a block store. -/
def store (r : Remote) (server : Server) : BlockStore (StateM Seen) where
  importArchive a := do
    let request ← (r.importRequest a : Except Error Request)
    let reply ← send server request
    let body ← (reply.result request r.config.timeout : Except Error (List UInt8))
    (ImportReply.parse body (reply.status?.getD .ok) request.path : Except Error Cid)
  getBlock cid := do
    let request ← (r.blockRequest cid : Except Error Request)
    let reply ← send server request
    (reply.result request r.config.timeout : Except Error (List UInt8))

end Remote

end MarketDag
