import MarketDag.Proofs.Store.Host
import MarketDag.Proofs.Text.Replaced

/-!
# Outcomes of requests

A request has one of four outcomes: the body of a reply that says that all went well, a refusal with
the status and the text of the reply, no answer in time, or a broken connection.  Which of them it
is depends on the status first and on the body then, and no part of a body is taken for all of it
(`Reply.result_eq_ok_iff`, `Reply.timesOut_iff`, `Reply.result_of_refused`).  A store behind an
address has this outcome for a block (`Remote.getBlock_classified`).
-/

namespace MarketDag

/-! ## Replies -/

/-- A status of success has two hundred and some more. -/
theorem Status.isSuccess_iff {status : Status} :
    status.isSuccess = true ↔ 200 ≤ status.code ∧ status.code < 300 := by
  simp [isSuccess]

namespace Reply

variable {reply : Reply} {request : Request} {limit : Nat} {status : Status}

/-- The body decides the outcome of a reply that says that all went well. -/
theorem result_of_success (h : reply.status? = some status) (hsuccess : status.isSuccess = true) :
    reply.result request limit = reply.content request limit := by
  rw [result, h]
  exact if_pos hsuccess

/-- The status decides the outcome of every other reply that has one. -/
theorem result_of_refused (h : reply.status? = some status) (hrefused : status.isSuccess = false) :
    reply.result request limit = .error (.refused status request.method request.path
      (reply.refusal request limit)) := by
  rw [result, h]
  exact if_neg (ne_true_of_eq_false hrefused)

/-- A refusal says the text of a body that is complete. -/
theorem isTextOf_refusal {body : List UInt8} :
    IsTextOf body ((complete status body).refusal request limit) := isTextOf_iff.mpr rfl

theorem refusal_eq_empty (h : ∀ body, reply ≠ .complete status body)
    (hstatus : reply.status? = some status) : reply.refusal request limit = "" := by
  cases reply with
  | complete status' body =>
    cases hstatus
    exact absurd rfl (h body)
  | cutShort | stalled | silent | closed => rfl

/-- All of a body is there only if the reply is complete. -/
theorem result_eq_ok_iff {body : List UInt8} : reply.result request limit = .ok body ↔
    ∃ status, reply = .complete status body ∧ status.isSuccess = true := by
  rw [result_eq_ok, body?_eq_some]

/-- A request times out if there is no answer, or if an answer that says that all went well stops
inside its body. -/
theorem timesOut_iff : (∃ e, reply.result request limit = .error e ∧ e.isTimeout = true) ↔
    reply = .silent ∨ ∃ status received, reply = .stalled status received ∧
      status.isSuccess = true := by
  cases hstatus : reply.status? with
  | none =>
    cases reply with
    | complete | cutShort | stalled => cases hstatus
    | silent => simp [result, status?, content, Error.isTimeout]
    | closed => simp [result, status?, content, Error.isTimeout]
  | some status =>
    cases hsuccess : status.isSuccess with
    | false =>
      -- the status is the error, however much of the body came
      rw [result_of_refused hstatus hsuccess]
      refine iff_of_false ?_ ?_
      · rintro ⟨e, he, hout⟩
        cases he
        cases hout
      · rintro (rfl | ⟨status', received, rfl, hsuccess'⟩) <;> cases hstatus
        rw [hsuccess] at hsuccess'
        cases hsuccess'
    | true =>
      rw [result_of_success hstatus hsuccess]
      cases reply <;> cases hstatus <;> simp [content, Error.isTimeout, hsuccess]

end Reply

/-! ## Blocks -/

namespace Remote

variable {host : String} {config : Config} {r : Remote}

/-- A store at an address of HTTP asks for every block, under its own path. -/
theorem exists_blockRequest (hr : ofHost host config = .ok r)
    (hhttp : Url.isHttp r.host.scheme = true) (cid : Cid) :
    ∃ request, r.blockRequest cid = .ok request ∧ request.method = .post ∧
      request.path = String.ofList r.host.path.toChars ++ "api/v0/block/get" ∧
      request.query = [("arg", cid.toText)] := by
  obtain ⟨url, hbase⟩ := exists_isBase_of_isHttp hr hhttp
  have hmade := hbase.request (List.mem_cons_of_mem _ List.mem_cons_self) [("arg", cid.toText)] none
  rw [if_pos hhttp] at hmade
  obtain ⟨request, hmade, hpath⟩ := hmade
  obtain ⟨target, -, -, rfl⟩ := request_eq_ok_iff.mp hmade
  exact ⟨_, hmade, rfl, hpath, rfl⟩

theorem perform_getBlock {cid : Cid} {request : Request} (h : r.blockRequest cid = .ok request)
    (server : Server) (seen : Seen) :
    perform ((r.store server).getBlock cid) seen =
      ((server.reply request).result request r.config.timeout, seenAfter server request seen) := by
  refine (perform_lift_bind_of_ok h seen).trans ?_
  exact perform_bind_of_ok (perform_send server request seen)

/-- The reply to the request for a block decides its outcome.  A store at an address of HTTP makes
one request for a block, whatever it has asked before.  It gives a block exactly if the reply is a
complete one of success, and then the block is the reply's body.  Every failure is one of the
transport.  It is a timeout exactly if there is no answer, or if one of success stops inside its
body.  Every other status is an error with this status, the method, the path of the request and the
text of the body, with replacement characters for what is no text, or without a text if not all of
the body came.  The reply is a final one: a status of redirection comes without a place to go on to,
and is an error as well. -/
theorem getBlock_classified (hr : ofHost host config = .ok r)
    (hhttp : Url.isHttp r.host.scheme = true) (reply : Request → Reply) (cid : Cid) (seen : Seen)
    {result : Except Error (List UInt8)} {seen' : Seen}
    (hrun : perform ((r.store (.answering reply)).getBlock cid) seen = (result, seen')) :
    ∃ request, r.blockRequest cid = .ok request ∧ seen' = request :: seen ∧
      request.method = .post ∧
      request.path = String.ofList r.host.path.toChars ++ "api/v0/block/get" ∧
      request.query = [("arg", cid.toText)] ∧
      (∀ b, result = .ok b ↔ ∃ status, reply request = .complete status b ∧
        200 ≤ status.code ∧ status.code < 300) ∧
      (∀ e, result = .error e → e.kind = .transport) ∧
      ((∃ e, result = .error e ∧ e.isTimeout = true) ↔ reply request = .silent ∨
        ∃ status received, reply request = .stalled status received ∧
          200 ≤ status.code ∧ status.code < 300) ∧
      ∀ status, (reply request).status? = some status →
        ¬ (200 ≤ status.code ∧ status.code < 300) →
        ∃ text, result = .error (.refused status .post request.path text) ∧
          (∀ body, reply request = .complete status body → IsTextOf body text) ∧
          ((∀ body, reply request ≠ .complete status body) → text = "") := by
  obtain ⟨request, hrequest, hmethod, hpath, hquery⟩ := exists_blockRequest hr hhttp cid
  cases hrun.symm.trans (perform_getBlock hrequest (.answering reply) seen)
  simp only [← Status.isSuccess_iff]
  refine ⟨request, hrequest, rfl, hmethod, hpath, hquery, fun b => Reply.result_eq_ok_iff,
    fun e he => List.mem_singleton.mp (Reply.fails_result _ _ _ e he), Reply.timesOut_iff,
    fun status hstatus hrefused => ⟨(reply request).refusal request r.config.timeout, ?_, ?_,
      fun hbody => Reply.refusal_eq_empty hbody hstatus⟩⟩
  · rw [← hmethod]
    exact Reply.result_of_refused hstatus (eq_false_of_ne_true hrefused)
  · intro body hbody
    rw [hbody]
    exact Reply.isTextOf_refusal

/-- A store on this machine gives a block, waits in vain for the end of another one, and is told in
malformed bytes that there is none. -/
theorem getBlock_classified_sample : ∃ (r : Remote) (cid : Cid) (request : Request),
    ofHost "http://127.0.0.1:5001/ipfs" { apiKey := some "key" } = .ok r ∧
    Url.isHttp r.host.scheme = true ∧ r.blockRequest cid = .ok request ∧
    perform ((r.store (.answering fun _ => .complete .ok [1, 2])).getBlock cid) [] =
      (.ok [1, 2], [request]) ∧
    (∃ e, (perform ((r.store (.answering fun _ => .stalled .ok [1])).getBlock cid) []).1 =
      .error e ∧ e.isTimeout = true) ∧
    (perform ((r.store (.answering fun _ => .complete .notFound [0x6E, 0x6F, 0xFF])).getBlock cid)
      []).1 = .error (.refused .notFound .post request.path "no\uFFFD") := by
  obtain ⟨url, r, hurl, hweb, hr⟩ := exists_local
  have hhttp : Url.isHttp r.host.scheme = true := by
    rw [ofHost_eq_ok hr hurl, Url.asBase_scheme]
    exact hweb.isHttp
  let cid : Cid := .ofData Cid.dagJson []
  have hclassified (reply : Reply) :=
    getBlock_classified hr hhttp (fun _ => reply) cid [] Prod.mk.eta.symm
  obtain ⟨request, hrequest, hseen, -, -, -, hok, -⟩ := hclassified (.complete .ok [1, 2])
  obtain ⟨-, -, -, -, -, -, -, -, hout, -⟩ := hclassified (.stalled .ok [1])
  obtain ⟨request', hrequest', -, -, -, -, -, -, -, hrefused⟩ :=
    hclassified (.complete .notFound [0x6E, 0x6F, 0xFF])
  cases hrequest.symm.trans hrequest'
  refine ⟨r, cid, request, hr, hhttp, hrequest, Prod.ext ?_ hseen, ?_, ?_⟩
  · exact (hok _).mpr ⟨.ok, rfl, by decide⟩
  · exact hout.mpr (.inr ⟨.ok, [1], rfl, by decide⟩)
  · obtain ⟨text, hresult, htext, -⟩ := hrefused .notFound rfl (by decide)
    have hread : textOfMarked [0x6E, 0x6F, 0xFF] = "no\uFFFD" := by decide +kernel
    rw [hresult, ← isTextOf_iff.mp (htext _ rfl), hread]

end Remote

end MarketDag
