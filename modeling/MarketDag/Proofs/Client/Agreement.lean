import MarketDag.Proofs.Client.Download
import MarketDag.Proofs.Store.Remote

/-!
# Downloads over a network and from memory

A store behind an address and a store in memory that hold the same bytes give the same metadata,
however late each of the four documents is delivered, and fail in the same way before they come to
the documents (`Client.stores_agree`).
-/

namespace MarketDag

/-! ## Contents -/

namespace Memory

/-- What a store in memory answers for a block. -/
def answer (s : Memory) (cid : Cid) : Except Error (List UInt8) :=
  match s.find? cid with
  | some data => .ok data
  | none => .error (missing cid)

theorem answers (s : Memory) : store.Answers (fun t => t.blocks = s.blocks) s.answer := by
  intro cid t ht
  have hfind : t.find? cid = s.find? cid := by rw [find?, find?, ht]
  rw [perform_getBlock, hfind]
  exact ⟨rfl, ht⟩

/-- Any contents for finitely many identifiers are those of a store in memory. -/
theorem exists_find?_eq (content : Cid → Option (List UInt8)) (cids : List Cid) :
    ∃ s : Memory, ∀ x ∈ cids, s.find? x = content x := by
  induction cids with
  | nil => exact ⟨{}, List.forall_mem_nil _⟩
  | cons cid cids ih =>
    obtain ⟨s, hs⟩ := ih
    obtain ⟨s', hs'⟩ : ∃ s' : Memory, ∀ x,
        s'.find? x = if x = cid then content cid else s.find? x := by
      cases content cid with
      | none => exact ⟨s.erase cid, s.find?_erase cid⟩
      | some data => exact ⟨s.insert cid data, fun x => s.find?_insert cid x data⟩
    refine ⟨s', fun x hx => ?_⟩
    rw [hs']
    split
    · rename_i hcid
      rw [hcid]
    · rename_i hne
      exact hs x ((List.mem_cons.mp hx).resolve_left hne)

end Memory

namespace Remote

variable {r : Remote} {server : Server}

/-- A server that has the blocks of a store in memory. -/
def serving (s : Memory) : Server := .answering fun request =>
  match s.blocks.entries.find? fun b => request.query = [("arg", b.1.toText)] with
  | some b => .complete .ok b.2
  | none => .complete .notFound []

section

variable {host : String} {config : Config} {url : Url} (hr : ofHost host config = .ok r)
  (hurl : Url.ofText host = .ok url) (hweb : url.IsWeb)

include hr hurl hweb

/-- No two blocks are asked for by one request, so that a server can have the blocks of any store
in memory. -/
theorem content?_serving (s : Memory) (cid : Cid) : r.content? (serving s) cid = s.find? cid := by
  obtain ⟨request, hrequest, -, hquery, -⟩ := blockRequest_eq_ok hr hurl hweb cid
  have hsame (b : Cid × List UInt8) :
      decide (request.query = [("arg", b.1.toText)]) = (cid == b.1) := by
    rw [hquery, beq_eq_decide]
    congr 1
    simp only [List.cons.injEq, Prod.mk.injEq, true_and, and_true, eq_iff_iff]
    exact ⟨fun h => Cid.toText_injective h, fun h => h ▸ rfl⟩
  -- the server finds the first block with the query, the memory the first with the identifier
  have hlookup (blocks : List (Cid × List UInt8)) :
      (match blocks.find? fun b : Cid × List UInt8 => request.query = [("arg", b.1.toText)] with
        | some b => Reply.complete .ok b.2
        | none => .complete .notFound []).body? = blocks.lookup cid := by
    induction blocks with
    | nil => rfl
    | cons b blocks ih =>
      rw [List.find?_cons, List.lookup_cons, hsame]
      cases cid == b.1
      · exact ih
      · rfl
  rw [content?, hrequest]
  exact hlookup s.blocks.entries

/-- Where a server and a store in memory have the same bytes, or both have none, the stores answer
alike. -/
theorem sameOutcome_answer {s : Memory} {cid : Cid} (h : s.find? cid = r.content? server cid) :
    SameOutcome (r.answer server cid) (s.answer cid) := by
  cases hcontent : r.content? server cid with
  | some data =>
    rw [answer_eq_ok.mpr hcontent, Memory.answer, h, hcontent]
    exact .refl _
  | none =>
    obtain ⟨request, hrequest, -⟩ := blockRequest_eq_ok hr hurl hweb cid
    have hfails : Fails (Error.Among [.transport]) (r.answer server cid) := by
      rw [answer, bind_of_ok hrequest]
      exact Reply.fails_result _ _ _
    have hmissing : s.answer cid = .error (Memory.missing cid) := by
      rw [Memory.answer, h, hcontent]
    refine .of_fails hfails (hmissing ▸ .error (List.mem_singleton.mpr rfl)) ?_ ?_
    · intro data hdata
      cases hcontent.symm.trans (answer_eq_ok.mp hdata)
    · intro data hdata
      cases hmissing.symm.trans hdata

end

end Remote

/-! ## Downloads -/

namespace Client

/-- The identifiers that a download names, by the bytes under each: its own, and those of the
documents that the root links to. -/
def named (content : Cid → Option (List UInt8)) (cid : Cid) : List Cid :=
  cid :: match (content cid).map (Block.decode Root cid) with
    | some (.ok root) => (root.map (β := fun _ => Cid) fun _ link => link.data).toList
    | _ => []

theorem mem_named_of_linksIn {registry : Registry} {answer : Cid → Except Error (List UInt8)}
    {content : Cid → Option (List UInt8)}
    (hanswer : ∀ x data, answer x = .ok data ↔ content x = some data) {cid : Cid}
    {links : Slots ResolvedLink} (h : linksIn registry answer cid = .ok links) (f : Family) :
    (links.get f).data ∈ named content cid := by
  obtain ⟨_, -, h⟩ := bind_eq_ok.mp h
  obtain ⟨data, hdata, h⟩ := bind_eq_ok.mp h
  obtain ⟨root, hroot, h⟩ := bind_eq_ok.mp h
  obtain ⟨_, -, hresolve⟩ := bind_eq_ok.mp h
  have hlink : (root.get f).data = (links.get f).data :=
    (ComponentLink.resolve_eq_ok.mp (Slots.mapM_eq_ok.mp hresolve f)).2.2
  rw [named, (hanswer _ _).mp hdata, Option.map_some, hroot]
  refine List.mem_cons_of_mem _ (Slots.mem_toList.mpr ⟨f, ?_⟩)
  rw [Slots.get_map, hlink]

variable {host : String} {config : Config} {r : Remote} {url : Url}

/-- Over stores that have the same bytes under all identifiers that a download names, the links and
the metadata have the same outcome. -/
theorem sameOutcome_of_named (hr : Remote.ofHost host config = .ok r)
    (hurl : Url.ofText host = .ok url) (hweb : url.IsWeb) {server : Server} (registry : Registry)
    {cid : Cid} {s : Memory}
    (hs : ∀ x ∈ named (r.content? server) cid, s.find? x = r.content? server x) :
    SameOutcome (linksIn registry (r.answer server) cid) (linksIn registry s.answer cid) ∧
      SameOutcome (metadataIn registry (r.answer server) cid)
        (metadataIn registry s.answer cid) := by
  have hanswer {x : Cid} (hx : x ∈ named (r.content? server) cid) :
      SameOutcome (r.answer server x) (s.answer x) :=
    Remote.sameOutcome_answer hr hurl hweb (hs x hx)
  have hroot := hanswer (x := cid) List.mem_cons_self
  have hparts : ∀ links, linksIn registry (r.answer server) cid = .ok links →
      ∀ f, SameOutcome (r.answer server (links.get f).data) (s.answer (links.get f).data) :=
    fun links h f => hanswer (mem_named_of_linksIn (fun _ _ => Remote.answer_eq_ok) h f)
  exact ⟨sameOutcome_linksIn hroot, sameOutcome_metadataIn hroot hparts⟩

/-- A store behind an address agrees with one in memory.  Its request for a block is that of no
other block, and the server's reply decides what is under the identifier; there is a store in memory
with the same bytes under all identifiers that a download names.  From any such store the metadata
are downloaded that are downloaded from the server, in whatever order the documents are delivered;
and if a download fails before it comes to the documents, at the codec, the root's block, its form,
its digest or its links, both fail with errors of one kind.  The server sends final replies, each
with a status and a body, and never to another place. -/
theorem stores_agree (hr : Remote.ofHost host config = .ok r) (hurl : Url.ofText host = .ok url)
    (hweb : url.IsWeb) (server : Server) (registry : Registry) (cid : Cid) :
    (∀ x, ∃ request, r.blockRequest x = .ok request ∧ request.method = .post ∧
      request.target = String.ofList url.basePath ++ "/api/v0/block/get?arg=" ++ x.toText ∧
      r.content? server x = (server.reply request).body? ∧
      ∀ y, r.blockRequest y = .ok request → y = x) ∧
    (∃ s : Memory, ∀ x ∈ named (r.content? server) cid, s.find? x = r.content? server x) ∧
    ∀ (s : Memory) (seen : Remote.Seen),
      (∀ x ∈ named (r.content? server) cid, s.find? x = r.content? server x) →
      (∀ order, order.Perm Family.all → ∀ result,
        (perform (downloadJoined ⟨r.store server, registry⟩ order cid) seen).1 = .ok result ↔
          ∃ m, (perform (download ⟨Memory.store, registry⟩ cid) s).1 = .ok m ∧
            result = some m) ∧
      (∀ e, (perform (links ⟨r.store server, registry⟩ cid) seen).1 = .error e →
        (∀ order,
          (perform (downloadJoined ⟨r.store server, registry⟩ order cid) seen).1 = .error e) ∧
        ∃ e', e'.kind = e.kind ∧ (perform (links ⟨Memory.store, registry⟩ cid) s).1 = .error e' ∧
          (perform (download ⟨Memory.store, registry⟩ cid) s).1 = .error e') ∧
      ∀ e', (perform (links ⟨Memory.store, registry⟩ cid) s).1 = .error e' →
        ∃ e, (perform (links ⟨r.store server, registry⟩ cid) seen).1 = .error e := by
  refine ⟨fun x => ?_, Memory.exists_find?_eq _ _, fun s seen hs => ?_⟩
  · obtain ⟨request, hrequest, hmethod, -, htarget⟩ := Remote.blockRequest_eq_ok hr hurl hweb x
    have hcontent : r.content? server x = (server.reply request).body? := by
      rw [Remote.content?, hrequest]
    exact ⟨request, hrequest, hmethod, htarget, hcontent,
      fun y hy => Remote.blockRequest_inj hy hrequest⟩
  -- what either client computes depends on the answers for named identifiers only
  have hjoined (order : List Family) :
      (perform (downloadJoined ⟨r.store server, registry⟩ order cid) seen).1 = _ :=
    (computes_downloadJoined (r.answers server) order cid seen trivial).1
  have hlinks : (perform (links ⟨r.store server, registry⟩ cid) seen).1 = _ :=
    (computes_links (r.answers server) cid seen trivial).1
  have hlinks' : (perform (links ⟨Memory.store, registry⟩ cid) s).1 = _ :=
    (computes_links (p := fun t => t.blocks = s.blocks) s.answers cid s rfl).1
  have hdownload : (perform (download ⟨Memory.store, registry⟩ cid) s).1 = _ :=
    (computes_download (p := fun t => t.blocks = s.blocks) s.answers cid s rfl).1
  simp only [hjoined, hlinks, hlinks', hdownload]
  obtain ⟨hsameLinks, hsame⟩ := sameOutcome_of_named hr hurl hweb registry hs
  refine ⟨fun order horder result => ?_, fun e he => ⟨fun order => bind_of_error he, ?_⟩,
    fun e' he' => ?_⟩
  · rw [joinedIn_eq_ok fun f => horder.mem_iff.mpr f.mem_all]
    exact exists_congr fun m => and_congr_left' (hsame.1 m)
  · obtain ⟨e', he'⟩ := hsameLinks.error_of_error he
    exact ⟨e', (hsameLinks.2 e e' he he').symm, he', bind_of_error he'⟩
  · exact hsameLinks.symm.error_of_error he'

/-- The sample is downloaded from a server that has its blocks, with the documents delivered from
the last slot to the first. -/
theorem stores_agree_sample : ∃ (host : String) (config : Config) (r : Remote) (url : Url)
    (s : Memory) (cid : Cid) (order : List Family) (m : Metadata),
    Remote.ofHost host config = .ok r ∧ Url.ofText host = .ok url ∧ url.IsWeb ∧
    (∀ x ∈ named (r.content? (Remote.serving s)) cid,
      s.find? x = r.content? (Remote.serving s) x) ∧
    order.Perm Family.all ∧
    (perform (downloadJoined ⟨r.store (Remote.serving s), .full⟩ order cid) []).1 =
      .ok (some m) := by
  obtain ⟨top, parts, hpublished, -, hfree⟩ := Metadata.sample_published
  have hholds := holds_insertAll hpublished.assembled hfree
    (fun b hb => List.mem_map_of_mem hb) {}
  obtain ⟨s', hdownload⟩ := download_of_holds hpublished hholds
  obtain ⟨url, r, hurl, hweb, hr⟩ := Remote.exists_local
  let s : Memory := Memory.insertAll {} (top :: parts.toList)
  -- a server of the blocks of a store answers like the store
  have hsame : ∀ x ∈ named (r.content? (Remote.serving s)) top.cid,
      s.find? x = r.content? (Remote.serving s) x :=
    fun x _ => (Remote.content?_serving hr hurl hweb s x).symm
  have horder : Family.all.reverse.Perm Family.all := List.reverse_perm _
  obtain ⟨-, -, hagree⟩ := stores_agree hr hurl hweb (Remote.serving s) .full top.cid
  obtain ⟨hjoined, -⟩ := hagree s [] hsame
  exact ⟨_, _, r, url, s, top.cid, _, _, hr, hurl, hweb, hsame, horder,
    (hjoined _ horder _).mpr ⟨_, congrArg Prod.fst hdownload, rfl⟩⟩

end Client

end MarketDag
