import MarketDag.Proofs.Client.Answers
import MarketDag.Proofs.Web.Base
import MarketDag.Proofs.Address.CidText
import MarketDag.Store.Remote

/-!
# Requests to a store behind an address

A store at a web address makes its requests without fail, under the path of the address
(`Remote.request_eq_ok`), and different blocks by different requests (`Remote.blockRequest_inj`).
What it answers for a block is the body of the server's reply, if the reply says that all went well
(`Remote.content?`, `Remote.answer_eq_ok`).
-/

namespace MarketDag

/-! ## Replies -/

/-- The body of a reply that says that all went well. -/
def Reply.body? : Reply → Option (List UInt8)
  | .complete status body => if status.isSuccess then some body else none
  | _ => none

theorem Reply.body?_eq_some {reply : Reply} {body : List UInt8} :
    reply.body? = some body ↔ ∃ status, reply = .complete status body ∧
      status.isSuccess = true := by
  cases reply <;> simp [body?, and_comm]

theorem Reply.result_eq_ok {reply : Reply} {request : Request} {limit : Nat} {body : List UInt8} :
    reply.result request limit = .ok body ↔ reply.body? = some body := by
  cases reply with
  | complete status data | cutShort status data | stalled status data =>
    simp only [result, status?, content, body?]
    split <;> simp
  | silent | closed => simp [result, status?, content, body?]

theorem Reply.fails_result (reply : Reply) (request : Request) (limit : Nat) :
    Fails (Error.Among [.transport]) (reply.result request limit) := by
  intro e he
  refine List.mem_singleton.mpr ?_
  cases reply with
  | complete status data | cutShort status data | stalled status data =>
    simp only [result, status?, content] at he
    split at he <;> cases he <;> rfl
  | silent | closed =>
    cases he
    rfl

/-! ## Requests -/

theorem Request.target_of_query {request : Request} {key text : String}
    (h : request.query = [(key, text)]) :
    request.target = request.path ++ "?" ++ (key ++ "=" ++ text) := by
  rw [target, h]
  rfl

namespace Remote

variable {host : String} {config : Config} {r : Remote} {url : Url}

/-- A store is at the base of the address that its host is. -/
theorem exists_of_ofHost (hr : ofHost host config = .ok r) :
    ∃ url, Url.ofText host = .ok url ∧ r = ⟨url.asBase, config⟩ := by
  obtain ⟨url, hurl, hr⟩ := bind_eq_ok.mp hr
  dsimp only at hr
  split at hr
  · cases hr
  · cases hr
    exact ⟨url, mapError_eq_ok.mp hurl, rfl⟩

theorem ofHost_eq_ok (hr : ofHost host config = .ok r) (hurl : Url.ofText host = .ok url) :
    r = ⟨url.asBase, config⟩ := by
  obtain ⟨read, hread, rfl⟩ := exists_of_ofHost hr
  cases hurl.symm.trans hread
  rfl

/-- A request goes where its segments lead from the store's address, if that is one of HTTP. -/
theorem request_of_join {segments : List (List Char)} {target : Url}
    (h : r.host.join segments = .ok target) (query : List (String × String)) (part : Option Part) :
    r.request segments query part = if Url.isHttp target.scheme = true
      then .ok (r.requestTo target query part) else .error .notHttp := by
  rw [request, h]
  rfl

theorem request_eq_ok_iff {segments : List (List Char)} {query : List (String × String)}
    {part : Option Part} {made : Request} : r.request segments query part = .ok made ↔
      ∃ target, r.host.join segments = .ok target ∧ Url.isHttp target.scheme = true ∧
        r.requestTo target query part = made := by
  cases h : r.host.join segments with
  | error fault => simp [request, h, Except.mapError, bind, Except.bind]
  | ok target =>
    rw [request_of_join h]
    split <;> simp [*]

section

variable (hr : ofHost host config = .ok r) (hurl : Url.ofText host = .ok url) (hweb : url.IsWeb)

include hr hurl hweb

/-- A store at a web address makes a request under the path of the address, with the key of its
settings. -/
theorem request_eq_ok {segments : List (List Char)} (hsegments : ∀ s ∈ segments, Url.IsLiteral s)
    (query : List (String × String)) (part : Option Part) :
    r.request segments query part = .ok {
      method := .post
      path := String.ofList url.basePath ++ String.ofList (UrlPath.rooted segments).toChars
      query := query
      authorization := config.apiKey.map ("Bearer " ++ ·)
      userAgent := "afp_client_sdk"
      accept := "*/*"
      part := part } := by
  obtain ⟨target, hjoin, hhttp, hpath⟩ := Url.toChars_join hurl hweb hsegments
  rw [ofHost_eq_ok hr hurl]
  refine request_eq_ok_iff.mpr ⟨target, hjoin, hhttp, ?_⟩
  rw [requestTo, hpath, String.ofList_append]

/-- A block is asked for by its text. -/
theorem blockRequest_eq_ok (cid : Cid) : ∃ request, r.blockRequest cid = .ok request ∧
    request.method = .post ∧ request.query = [("arg", cid.toText)] ∧ request.target =
      String.ofList url.basePath ++ "/api/v0/block/get?arg=" ++ cid.toText := by
  have hliteral : ∀ s ∈ blockSegments, Url.IsLiteral s := by decide
  refine ⟨_, request_eq_ok hr hurl hweb hliteral _ none, rfl, rfl, ?_⟩
  rw [Request.target_of_query rfl]
  simp only [String.append_assoc]
  rfl

end

/-- Different blocks are asked for by different requests. -/
theorem blockRequest_inj {x y : Cid} {request : Request} (hx : r.blockRequest x = .ok request)
    (hy : r.blockRequest y = .ok request) : x = y := by
  have hquery {x : Cid} (hx : r.blockRequest x = .ok request) :
      request.query = [("arg", x.toText)] := by
    obtain ⟨target, -, -, rfl⟩ := request_eq_ok_iff.mp hx
    rfl
  have htext := (hquery hx).symm.trans (hquery hy)
  simp only [List.cons.injEq, Prod.mk.injEq, true_and, and_true] at htext
  exact Cid.toText_injective htext

/-- A store on this machine, with a key. -/
theorem exists_local : ∃ url r, Url.ofText "http://127.0.0.1:5001/ipfs" = .ok url ∧ url.IsWeb ∧
    ofHost "http://127.0.0.1:5001/ipfs" { apiKey := some "key" } = .ok r := by
  have hweb : ((Url.ofText "http://127.0.0.1:5001/ipfs").toOption.any
      fun url => decide url.IsWeb) = true := by decide +kernel
  cases hurl : Url.ofText "http://127.0.0.1:5001/ipfs" with
  | error fault =>
    rw [hurl] at hweb
    cases hweb
  | ok url =>
    rw [hurl] at hweb
    refine ⟨url, ⟨url.asBase, { apiKey := some "key" }⟩, rfl, of_decide_eq_true hweb, ?_⟩
    exact bind_eq_ok.mpr ⟨url, mapError_eq_ok.mpr hurl, rfl⟩

/-! ## Answers -/

/-- What a store answers for a block. -/
def answer (r : Remote) (server : Server) (cid : Cid) : Except Error (List UInt8) := do
  let request ← r.blockRequest cid
  (server.reply request).result request r.config.timeout

/-- The bytes that a server has for an identifier: the body of its reply, if the reply says that all
went well. -/
def content? (r : Remote) (server : Server) (cid : Cid) : Option (List UInt8) :=
  match r.blockRequest cid with
  | .ok request => (server.reply request).body?
  | .error _ => none

theorem answer_eq_ok {server : Server} {cid : Cid} {data : List UInt8} :
    r.answer server cid = .ok data ↔ r.content? server cid = some data := by
  unfold answer content?
  cases r.blockRequest cid with
  | error e => simp [bind, Except.bind]
  | ok request => exact Reply.result_eq_ok

/-- What a server has seen after a request, which reaches it if there is one. -/
def seenAfter (server : Server) (request : Request) (seen : Seen) : Seen :=
  match server with
  | .absent => seen
  | .answering _ => request :: seen

theorem perform_send (server : Server) (request : Request) (seen : Seen) :
    perform (send server request : ExceptT Error (StateM Seen) Reply) seen =
      (.ok (server.reply request), seenAfter server request seen) := by
  cases server <;> rfl

/-- A store answers as its server replies, whatever it was asked before. -/
theorem answers (r : Remote) (server : Server) :
    (r.store server).Answers (fun _ => True) (r.answer server) := by
  intro cid
  refine .bind (.lift _) fun request => ?_
  refine .bind_of_ok (a := server.reply request) (fun seen _ => ?_) (.lift _)
  rw [perform_send]
  exact ⟨rfl, trivial⟩

end Remote

end MarketDag
