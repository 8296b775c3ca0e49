import MarketDag.Proofs.Client.Steps
import MarketDag.Proofs.Store.ImportReply
import MarketDag.Proofs.Store.Remote

/-!
# Uploads over a network

An upload to a store behind an address is one request at most, with the archive of the assembled
blocks.  It goes well only when the server's reply names the root that was computed, so that no
reply makes a client believe in another root (`Client.upload_confirmed`).
-/

namespace MarketDag

namespace Remote

variable {host : String} {config : Config} {r : Remote} {url : Url}

/-! ## Imports -/

/-- Is a request the one that imports an archive under an address? -/
structure Imports (url : Url) (config : Config) (a : Archive) (request : Request) : Prop where
  method : request.method = .post
  target : request.target =
    String.ofList url.basePath ++ "/api/v0/dag/import?pin-roots=true"
  authorization : request.authorization = config.apiKey.map ("Bearer " ++ ·)
  /-- There is one part, with the bytes of the archive. -/
  part : ∃ part, request.part = some part ∧ part.body = a.toBytes

theorem importRequest_eq_ok (hr : ofHost host config = .ok r) (hurl : Url.ofText host = .ok url)
    (hweb : url.IsWeb) (a : Archive) :
    ∃ request, r.importRequest a = .ok request ∧ Imports url config a request := by
  have hliteral : ∀ s ∈ importSegments, Url.IsLiteral s := by decide
  refine ⟨_, request_eq_ok hr hurl hweb hliteral _ (some (archivePart a)), rfl, ?_, rfl,
    archivePart a, rfl, rfl⟩
  rw [Request.target_of_query rfl]
  simp only [String.append_assoc]
  rfl

/-- The root that a reply tells. -/
def told (r : Remote) (request : Request) (reply : Reply) : Except Error Cid := do
  let body ← reply.result request r.config.timeout
  ImportReply.parse body (reply.status?.getD .ok) request.path

/-- A root is told by a reply that says that all went well and names it. -/
theorem told_eq_ok {request : Request} {reply : Reply} {cid : Cid} :
    r.told request reply = .ok cid ↔ ∃ body root, reply.body? = some body ∧
      ImportReply.Names body root ∧ Cid.ofText root = .ok cid := by
  unfold told
  simp only [bind_eq_ok, Reply.result_eq_ok, ImportReply.parse_eq_ok]
  constructor
  · rintro ⟨body, hbody, root, hroot⟩
    exact ⟨body, root, hbody, hroot⟩
  · rintro ⟨body, root, hbody, hroot⟩
    exact ⟨body, hbody, root, hroot⟩

theorem perform_importArchive {a : Archive} {request : Request}
    (h : r.importRequest a = .ok request) (server : Server) (seen : Seen) :
    perform ((r.store server).importArchive a) seen =
      (r.told request (server.reply request), seenAfter server request seen) := by
  refine (perform_lift_bind_of_ok h seen).trans ?_
  refine (perform_bind_of_ok (perform_send server request seen)).trans ?_
  unfold told
  cases (server.reply request).result request r.config.timeout <;> rfl

end Remote

/-! ## Uploads -/

namespace Client

section

variable {σ : Type} {client : Client (StateM σ)} {m : Metadata} {s : σ}

/-- An upload of metadata without an archive does not come to the store. -/
theorem perform_upload_of_error {e : Error} (h : m.archive client.registry = .error e) :
    perform (client.upload m) s = (.error e, s) := by
  rcases bind_eq_error.mp h with hinvalid | ⟨_, hvalid, h⟩
  · exact perform_lift_bind_of_error hinvalid s
  refine (perform_lift_bind_of_ok hvalid s).trans ?_
  rcases bind_eq_error.mp h with hassemble | ⟨bs, hassemble, harchive⟩
  · exact perform_lift_bind_of_error hassemble s
  refine (perform_lift_bind_of_ok hassemble s).trans ?_
  exact perform_lift_bind_of_error harchive s

/-- Metadata with an archive are uploaded as this archive. -/
theorem perform_upload_of_ok {a : Archive} (h : m.archive client.registry = .ok a) :
    perform (client.upload m) s = perform (do
      let told ← client.store.importArchive a
      if told = a.root then return told else throw (.mismatch a.root told)) s := by
  obtain ⟨hvalid, bs, hassemble, harchive⟩ := Metadata.archive_eq_ok.mp h
  refine (perform_lift_bind_of_ok hvalid s).trans ?_
  refine (perform_lift_bind_of_ok hassemble s).trans ?_
  exact perform_lift_bind_of_ok harchive s

end

variable {host : String} {config : Config} {r : Remote} {url : Url}

/-- The root that is told, if it is the computed one. -/
def confirm (root told : Cid) : Except Error Cid :=
  if told = root then .ok told else .error (.mismatch root told)

theorem confirm_eq_ok {root told cid : Cid} :
    confirm root told = .ok cid ↔ cid = root ∧ told = cid := by
  unfold confirm
  constructor
  · intro h
    split at h <;> cases h
    exact ⟨‹_›, rfl⟩
  · rintro ⟨rfl, rfl⟩
    exact if_pos rfl

/-- The root of an upload is told where it is named, and only there. -/
theorem told_confirm_eq_ok {request : Request} {reply : Reply} {root cid : Cid} :
    (r.told request reply >>= confirm root) = .ok cid ↔ cid = root ∧ ∃ status body text,
      reply = .complete status body ∧ status.isSuccess = true ∧ ImportReply.Names body text ∧
        Cid.ofText text = .ok cid := by
  rw [bind_eq_ok]
  simp only [Remote.told_eq_ok, Reply.body?_eq_some, confirm_eq_ok]
  constructor
  · rintro ⟨told, ⟨body, text, ⟨status, hreply, hsuccess⟩, hnames, htext⟩, hcid, rfl⟩
    exact ⟨hcid, status, body, text, hreply, hsuccess, hnames, htext⟩
  · rintro ⟨hcid, status, body, text, hreply, hsuccess, hnames, htext⟩
    exact ⟨cid, ⟨body, text, ⟨status, hreply, hsuccess⟩, hnames, htext⟩, hcid, rfl⟩

/-- An upload is the request for its archive, and goes well when the computed root is told. -/
theorem perform_upload_remote {registry : Registry} {m : Metadata} {a : Archive} {request : Request}
    (ha : m.archive registry = .ok a) (hrequest : r.importRequest a = .ok request)
    (server : Server) (seen : Remote.Seen) :
    perform (upload ⟨r.store server, registry⟩ m) seen =
      (r.told request (server.reply request) >>= confirm a.root,
        Remote.seenAfter server request seen) := by
  let client : Client (StateM Remote.Seen) := ⟨r.store server, registry⟩
  have ha : m.archive client.registry = .ok a := ha
  refine (perform_upload_of_ok ha).trans ?_
  rw [perform_bind, Remote.perform_importArchive hrequest]
  cases r.told request (server.reply request) with
  | error e => rfl
  | ok told =>
    dsimp only
    rw [bind_of_ok rfl, confirm]
    split <;> rfl

/-- No reply makes a client believe in another root.  An upload to a store behind an address is one
request at most, and none for metadata that break a rule.  The request carries the key of the
settings, if they have one, and in its one part the archive of the assembled blocks, whose only root
is the first of them.  The upload goes well exactly when a complete reply says so and names the root
of this archive, in whatever form of text; a reply that names another root is an error with both.
A reply is a final one, with a status and a body and no other place to ask. -/
theorem upload_confirmed (hr : Remote.ofHost host config = .ok r)
    (hurl : Url.ofText host = .ok url) (hweb : url.IsWeb) (server : Server) (registry : Registry)
    (m : Metadata) (seen : Remote.Seen) {seen' : Remote.Seen} {result : Except Error Cid}
    (hrun : perform (upload ⟨r.store server, registry⟩ m) seen = (result, seen')) :
    (seen' = seen ∨ ∃ request, seen' = request :: seen) ∧
    (∀ e, m.validate = .error e → e.kind = .validation ∧ result = .error e ∧ seen' = seen) ∧
    (∀ e, m.validate = .ok () → m.assemble registry = .error e →
      result = .error e ∧ seen' = seen) ∧
    ∀ bs, m.validate = .ok () → m.assemble registry = .ok bs →
      ∃ (top : Block) (rest : List Block) (request : Request) (a : Archive), bs = top :: rest ∧
        seen' = Remote.seenAfter server request seen ∧ Remote.Imports url config a request ∧
        a.roots = [top.cid] ∧ a.blocks = bs ∧
        ((∀ b ∈ bs, Archive.Fits b) → Archive.ofBytes a.toBytes = .ok a) ∧
        (∀ c, result = .ok c ↔ c = top.cid ∧ ∃ status body root,
          server.reply request = .complete status body ∧ status.isSuccess = true ∧
            ImportReply.Names body root ∧ Cid.ofText root = .ok c) ∧
        ∀ status body root c, server.reply request = .complete status body →
          status.isSuccess = true → ImportReply.Names body root → Cid.ofText root = .ok c →
          c ≠ top.cid →
          result = .error (.mismatch top.cid c) ∧ (Error.mismatch top.cid c).kind = .integrity := by
  have hrequest := Remote.importRequest_eq_ok hr hurl hweb
  refine ⟨?_, fun e he => ?_, fun e hvalid he => ?_, fun bs hvalid hassemble => ?_⟩
  -- without an archive there is no request; with one there is one, if it reaches a server
  · cases ha : m.archive registry with
    | error e =>
      cases hrun.symm.trans (perform_upload_of_error ha)
      exact .inl rfl
    | ok a =>
      obtain ⟨request, hrequest, -⟩ := hrequest a
      cases hrun.symm.trans (perform_upload_remote ha hrequest server seen)
      cases server with
      | absent => exact .inl rfl
      | answering reply => exact .inr ⟨request, rfl⟩
  · have ha : m.archive registry = .error e := bind_of_error he
    cases hrun.symm.trans (perform_upload_of_error ha)
    exact ⟨List.mem_singleton.mp (Metadata.fails_validate m e he), rfl, rfl⟩
  · have ha : m.archive registry = .error e := (bind_of_ok hvalid).trans (bind_of_error he)
    cases hrun.symm.trans (perform_upload_of_error ha)
    exact ⟨rfl, rfl⟩
  obtain ⟨top, parts, rfl, -⟩ := Metadata.assemble_eq_ok.mp hassemble
  have ha : m.archive registry = .ok (Metadata.archiveOf top parts) :=
    Metadata.archive_eq_ok.mpr ⟨hvalid, _, hassemble, rfl⟩
  obtain ⟨request, hrequest, himports⟩ := hrequest (Metadata.archiveOf top parts)
  cases hrun.symm.trans (perform_upload_remote ha hrequest server seen)
  refine ⟨top, parts.toList, request, Metadata.archiveOf top parts, rfl, rfl, himports, rfl, rfl,
    fun hfits => ?_, fun _ => ?_, ?_⟩
  · exact Archive.ofBytes_toBytes (List.cons_ne_nil _ _) (Archive.length_writeHeader_le top.cid)
      hfits
  · exact told_confirm_eq_ok
  · intro status body root c hreply hsuccess hnames hroot hne
    have htold : r.told request (server.reply request) = .ok c :=
      Remote.told_eq_ok.mpr ⟨body, root, Reply.body?_eq_some.mpr ⟨status, hreply, hsuccess⟩,
        hnames, hroot⟩
    refine ⟨?_, rfl⟩
    rw [bind_of_ok htold]
    exact if_neg hne

/-- The sample is uploaded to a server that names its root, and is not to one that names another. -/
theorem upload_confirmed_sample : ∃ (host : String) (config : Config) (r : Remote) (url : Url)
    (request : Request) (cid other : Cid),
    Remote.ofHost host config = .ok r ∧ Url.ofText host = .ok url ∧ url.IsWeb ∧
    request.authorization = some "Bearer key" ∧
    (perform (upload ⟨r.store (.answering fun _ => .complete .ok
      (ImportReply.written cid.toText)), .full⟩ (Metadata.sample .one)) []) =
        (.ok cid, [request]) ∧
    (perform (upload ⟨r.store (.answering fun _ => .complete .ok
      (ImportReply.written other.toText)), .full⟩ (Metadata.sample .one)) []).1 =
        .error (.mismatch cid other) := by
  obtain ⟨top, parts, hpublished, -⟩ := Metadata.sample_fits
  obtain ⟨url, r, hurl, hweb, hr⟩ := Remote.exists_local
  have hassemble := Metadata.assemble_eq_ok.mpr ⟨top, parts, rfl, hpublished.assembled⟩
  have hconfirmed (reply : Request → Reply) := (upload_confirmed hr hurl hweb (.answering reply)
    .full (Metadata.sample .one) [] Prod.mk.eta.symm).2.2.2 _ hpublished.valid hassemble
  let other : Cid := .ofData Cid.dagJson []
  have hother : other ≠ top.cid := by
    intro h
    have hcodec := Block.codec_of_encode hpublished.assembled.top_encode
    rw [← h, Cid.codec_ofData] at hcodec
    exact absurd hcodec (by decide)
  obtain ⟨_, _, request, _, hbs, hseen, himports, -, -, -, hok, -⟩ :=
    hconfirmed fun _ => .complete .ok (ImportReply.written top.cid.toText)
  obtain ⟨_, _, _, _, hbs', -, -, -, -, -, -, hmismatch⟩ :=
    hconfirmed fun _ => .complete .ok (ImportReply.written other.toText)
  cases hbs
  cases hbs'
  refine ⟨_, _, r, url, request, top.cid, other, hr, hurl, hweb, himports.authorization,
    Prod.ext ?_ hseen, ?_⟩
  · exact (hok top.cid).mpr ⟨rfl, _, _, _, rfl, rfl, ImportReply.names_written _,
      Cid.ofText_toText _⟩
  · exact (hmismatch _ _ _ other rfl rfl (ImportReply.names_written _) (Cid.ofText_toText _)
      hother).1

end Client

end MarketDag
