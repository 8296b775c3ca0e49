import MarketDag.Client.Joined
import MarketDag.Proofs.Dag.Failures
import MarketDag.Proofs.Dag.Slots
import MarketDag.Proofs.Store.Run

/-!
# Downloads by what a store answers

A store whose answer for an identifier does not depend on what it was asked before is known by its
answers (`BlockStore.Answers`).  What is downloaded from it is a matter of them alone
(`Client.computes_download`), and the order in which blocks are delivered does not matter to a
download that goes well (`Client.joinedIn_eq_ok`).
-/

namespace MarketDag

variable {σ τ α β : Type}

/-! ## Programs with one result -/

/-- Has a program the same result from every state with a property, and does it keep the
property? -/
def Computes {ε : Type} (p : σ → Prop) (x : ExceptT ε (StateM σ) α) (y : Except ε α) : Prop :=
  ∀ s, p s → (perform x s).1 = y ∧ p (perform x s).2

namespace Computes

variable {ε : Type} {p : σ → Prop} {x : ExceptT ε (StateM σ) α} {y : Except ε α}

theorem bind {f : α → ExceptT ε (StateM σ) β} {g : α → Except ε β} (hx : Computes p x y)
    (hf : ∀ a, Computes p (f a) (g a)) : Computes p (x >>= f) (y >>= g) := by
  intro s hs
  obtain ⟨hresult, hkeep⟩ := hx s hs
  rw [perform_bind]
  rcases h : perform x s with ⟨e | a, s'⟩ <;> rw [h] at hresult hkeep <;> subst hresult
  · exact ⟨rfl, hkeep⟩
  · exact hf a s' hkeep

/-- A program goes on with the one result of its first part. -/
theorem bind_of_ok {f : α → ExceptT ε (StateM σ) β} {a : α} {y : Except ε β}
    (hx : Computes p x (.ok a)) (hf : Computes p (f a) y) : Computes p (x >>= f) y := by
  intro s hs
  obtain ⟨hresult, hkeep⟩ := hx s hs
  have hrun : perform x s = (.ok a, (perform x s).2) := Prod.ext hresult rfl
  rw [perform_bind_of_ok hrun]
  exact hf _ hkeep

theorem lift (y : Except ε α) : Computes p (liftM y : ExceptT ε (StateM σ) α) y :=
  fun _ hs => ⟨rfl, hs⟩

theorem pure (a : α) : Computes p (pure a : ExceptT ε (StateM σ) α) (.ok a) :=
  fun _ hs => ⟨rfl, hs⟩

theorem mapM {α β : Family → Type} {f : (slot : Family) → α slot → ExceptT ε (StateM σ) (β slot)}
    {g : (slot : Family) → α slot → Except ε (β slot)}
    (h : ∀ slot a, Computes p (f slot a) (g slot a)) (s : Slots α) :
    Computes p (s.mapM f) (s.mapM g) := by
  refine .bind (h _ _) fun _ => ?_
  refine .bind (h _ _) fun _ => ?_
  refine .bind (h _ _) fun _ => ?_
  exact .bind (h _ _) fun _ => .pure _

/-- A program that is observed does not fail, and tells whether it would have. -/
theorem observe (hx : Computes p x y) : Computes p (observing x) (.ok y) := by
  intro s hs
  obtain ⟨hresult, hkeep⟩ := hx s hs
  rw [perform_observing, hresult]
  exact ⟨rfl, hkeep⟩

end Computes

/-! ## Downloads -/

/-- Does a store have the same answer for an identifier in every state with a property? -/
def BlockStore.Answers (p : σ → Prop) (store : BlockStore (StateM σ))
    (answer : Cid → Except Error (List UInt8)) : Prop :=
  ∀ cid, Computes p (store.getBlock cid) (answer cid)

namespace Client

section

variable (registry : Registry) (answer : Cid → Except Error (List UInt8))

/-- The links of the root under an identifier, by the answers for blocks. -/
def linksIn (cid : Cid) : Except Error (Slots ResolvedLink) := do
  cid.ensureSupported
  let data ← answer cid
  let root ← Block.decode Root cid data
  cid.verify data
  Root.resolve registry root

/-- The documents of links, by the answers for blocks. -/
def documentsIn (links : Slots ResolvedLink) : Except Error (Slots fun _ => Document) :=
  links.mapM fun _ link => answer link.data >>= link.accept

/-- The metadata under an identifier, by the answers for blocks. -/
def metadataIn (cid : Cid) : Except Error Metadata := do
  let links ← linksIn registry answer cid
  let documents ← documentsIn answer links
  documents.mapM fun slot d => d.into slot

/-- The documents of links that have come when blocks are delivered in an order. -/
def arrivalsIn (links : Slots ResolvedLink) (order : List Family) : Except Error Arrivals :=
  order.foldlM (Arrivals.deliver links (links.map fun _ link => answer link.data)) .empty

/-- The metadata under an identifier, with the blocks of the documents delivered in an order. -/
def joinedIn (order : List Family) (cid : Cid) : Except Error (Option Metadata) := do
  let links ← linksIn registry answer cid
  let arrivals ← arrivalsIn answer links order
  match arrivals.all? with
  | none => return none
  | some documents =>
    let metadata ← documents.mapM fun slot d => d.into slot
    return some metadata

end

/-- A download begins with the links of the root. -/
theorem download_eq_links (client : Client (StateM σ)) (cid : Cid) :
    client.download cid = (do
      let links ← client.links cid
      let documents ← links.mapM (β := fun _ => Document) fun _ link => client.fetch link
      (documents.mapM fun slot d => d.into slot : Except Error Metadata)) := by
  simp only [download, links, bind_assoc]

variable {p : σ → Prop} {client : Client (StateM σ)} {answer : Cid → Except Error (List UInt8)}
  (h : client.store.Answers p answer)

include h

theorem computes_links (cid : Cid) :
    Computes p (client.links cid) (linksIn client.registry answer cid) := by
  refine .bind (.lift _) fun _ => ?_
  refine .bind (h cid) fun data => ?_
  refine .bind (.lift _) fun root => ?_
  exact .bind (.lift _) fun _ => .lift _

theorem computes_fetch {slot : Family} (link : ResolvedLink slot) :
    Computes p (client.fetch link) (answer link.data >>= link.accept) := by
  refine .bind (h link.data) fun data => ?_
  refine .bind (.lift _) fun document => ?_
  exact .bind (.lift _) fun _ => .pure document

/-- A download has the metadata that the store's answers say. -/
theorem computes_download (cid : Cid) :
    Computes p (client.download cid) (metadataIn client.registry answer cid) := by
  rw [download_eq_links]
  refine .bind (computes_links h cid) fun links => ?_
  refine .bind (.mapM (fun _ link => computes_fetch h link) links) fun documents => ?_
  exact .lift _

theorem computes_askAll (links : Slots ResolvedLink) :
    Computes p (client.askAll links) (.ok (links.map fun _ link => answer link.data)) := by
  have hask (slot : Family) (link : ResolvedLink slot) :
      Computes p (observing (client.store.getBlock link.data)) (.ok (answer link.data)) :=
    (h link.data).observe
  exact .mapM hask links

/-- A download that asks for all documents at once has the metadata that the store's answers say,
delivered in this order. -/
theorem computes_downloadJoined (order : List Family) (cid : Cid) :
    Computes p (client.downloadJoined order cid) (joinedIn client.registry answer order cid) := by
  refine .bind (computes_links h cid) fun links => ?_
  refine .bind_of_ok (computes_askAll h links) ?_
  refine .bind (.lift _) fun arrivals => ?_
  cases arrivals.all? with
  | none => exact .pure _
  | some documents => exact .bind (.lift _) fun _ => .pure _

end Client

/-! ## Deliveries -/

namespace Arrivals

variable {links : Slots ResolvedLink} {blocks : Slots fun _ => Except Error (List UInt8)}
  {arrivals arrivals' : Arrivals} {order : List Family}

@[simp] theorem get_put (arrivals : Arrivals) (slot : Family) (document : Document) (f : Family) :
    (arrivals.put slot document).get f = if f = slot then some document else arrivals.get f :=
  Slots.get_ofFn _ f

theorem all?_eq_some {documents : Slots fun _ => Document} :
    arrivals.all? = some documents ↔ ∀ f, arrivals.get f = some (documents.get f) := by
  obtain ⟨space, point, config, fallback⟩ := arrivals
  obtain ⟨space', point', config', fallback'⟩ := documents
  constructor
  · intro h f
    simp only [all?, Slots.mapM, Option.bind_eq_bind, Option.bind_eq_some_iff, Option.pure_def,
      Option.some.injEq] at h
    obtain ⟨_, rfl, _, rfl, _, rfl, _, rfl, h⟩ := h
    cases h
    cases f <;> rfl
  · intro h
    cases h .outcomeSpace
    cases h .outcomePoint
    cases h .oracleConfig
    cases h .oracleFallback
    rfl

theorem deliver_eq_map (links : Slots ResolvedLink)
    (blocks : Slots fun _ => Except Error (List UInt8)) (arrivals : Arrivals) (slot : Family) :
    deliver links blocks arrivals slot =
      arrivals.put slot <$> (blocks.get slot >>= (links.get slot).accept) := by
  unfold deliver
  cases blocks.get slot <;> rfl

/-- One delivery puts the document that the block is read as into its slot. -/
theorem deliver_eq_ok {slot : Family} :
    deliver links blocks arrivals slot = .ok arrivals' ↔
      ∃ document, blocks.get slot >>= (links.get slot).accept = .ok document ∧
        arrivals.put slot document = arrivals' := by
  rw [deliver_eq_map, map_eq_ok]

/-- Deliveries that go well put the document of every block into its slot, in whatever order they
come. -/
theorem deliveries_eq_ok :
    order.foldlM (deliver links blocks) arrivals = .ok arrivals' ↔
      (∀ f ∈ order, ∃ document, blocks.get f >>= (links.get f).accept = .ok document ∧
        arrivals'.get f = some document) ∧
      ∀ f, f ∉ order → arrivals'.get f = arrivals.get f := by
  induction order generalizing arrivals with
  | nil =>
    rw [List.foldlM_nil, pure_eq_ok]
    constructor
    · rintro rfl
      exact ⟨List.forall_mem_nil _, fun _ _ => rfl⟩
    · rintro ⟨-, h⟩
      exact Slots.ext_get fun f => (h f List.not_mem_nil).symm
  | cons slot order ih =>
    rw [List.foldlM_cons]
    constructor
    · intro h
      obtain ⟨next, hnext, h⟩ := bind_eq_ok.mp h
      obtain ⟨document, hdocument, rfl⟩ := deliver_eq_ok.mp hnext
      obtain ⟨hread, hkept⟩ := ih.mp h
      refine ⟨List.forall_mem_cons.mpr ⟨?_, hread⟩, fun f hf => ?_⟩
      -- a slot that is delivered again has the document of its last delivery
      · by_cases hslot : slot ∈ order
        · exact hread slot hslot
        · exact ⟨document, hdocument, by rw [hkept slot hslot, get_put, if_pos rfl]⟩
      · obtain ⟨hne, hf⟩ := List.ne_and_not_mem_of_not_mem_cons hf
        rw [hkept f hf, get_put, if_neg hne]
    · rintro ⟨hread, hkept⟩
      obtain ⟨⟨document, hdocument, hget⟩, hread⟩ := List.forall_mem_cons.mp hread
      refine bind_eq_ok.mpr ⟨_, deliver_eq_ok.mpr ⟨document, hdocument, rfl⟩, ih.mpr ⟨hread, ?_⟩⟩
      intro f hf
      rw [get_put]
      split
      · -- later deliveries leave the document that was put here
        rename_i hslot
        rw [hslot, hget]
      · rename_i hne
        exact hkept f (List.not_mem_cons_of_ne_of_not_mem hne hf)

end Arrivals

namespace Client

variable {registry : Registry} {answer : Cid → Except Error (List UInt8)}
  {links : Slots ResolvedLink} {order : List Family} {cid : Cid}

/-- If every block is delivered, in whatever order, the documents have come together when all
of them are accepted. -/
theorem arrivalsIn_eq_ok (horder : ∀ f, f ∈ order) {arrivals : Arrivals} :
    arrivalsIn answer links order = .ok arrivals ↔
      ∃ documents, documentsIn answer links = .ok documents ∧ arrivals.all? = some documents := by
  rw [arrivalsIn, Arrivals.deliveries_eq_ok]
  simp only [Slots.get_map]
  constructor
  · rintro ⟨h, -⟩
    choose document hdocument hget using fun f => h f (horder f)
    refine ⟨.ofFn document, Slots.mapM_eq_ok.mpr fun f => ?_, Arrivals.all?_eq_some.mpr fun f => ?_⟩
    · rw [Slots.get_ofFn]
      exact hdocument f
    · rw [Slots.get_ofFn]
      exact hget f
  · rintro ⟨documents, hdocuments, hall⟩
    refine ⟨fun f _ => ⟨documents.get f, Slots.mapM_eq_ok.mp hdocuments f, ?_⟩, fun f hf => ?_⟩
    · exact Arrivals.all?_eq_some.mp hall f
    · exact absurd (horder f) hf

/-- In whatever order the blocks are delivered, the same metadata are downloaded. -/
theorem joinedIn_eq_ok (horder : ∀ f, f ∈ order) {result : Option Metadata} :
    joinedIn registry answer order cid = .ok result ↔
      ∃ m, metadataIn registry answer cid = .ok m ∧ result = some m := by
  unfold joinedIn metadataIn
  constructor
  · intro h
    obtain ⟨links, hlinks, h⟩ := bind_eq_ok.mp h
    obtain ⟨arrivals, harrivals, h⟩ := bind_eq_ok.mp h
    obtain ⟨documents, hdocuments, hall⟩ := (arrivalsIn_eq_ok horder).mp harrivals
    rw [hall] at h
    obtain ⟨m, hm, h⟩ := bind_eq_ok.mp h
    cases h
    exact ⟨m, bind_eq_ok.mpr ⟨links, hlinks, bind_eq_ok.mpr ⟨documents, hdocuments, hm⟩⟩, rfl⟩
  · rintro ⟨m, h, rfl⟩
    obtain ⟨links, hlinks, h⟩ := bind_eq_ok.mp h
    obtain ⟨documents, hdocuments, hm⟩ := bind_eq_ok.mp h
    -- the documents of the slots are their arrivals, so nothing is missing at the end
    let arrivals : Arrivals := documents.map fun _ d => some d
    have hall : arrivals.all? = some documents :=
      Arrivals.all?_eq_some.mpr fun f => Slots.get_map _ _ f
    have harrivals := (arrivalsIn_eq_ok horder).mpr ⟨documents, hdocuments, hall⟩
    refine bind_eq_ok.mpr ⟨links, hlinks, bind_eq_ok.mpr ⟨arrivals, harrivals, ?_⟩⟩
    rw [hall]
    exact bind_eq_ok.mpr ⟨m, hm, rfl⟩

theorem arrivalsIn_all : arrivalsIn answer links Family.all =
    (fun documents => documents.map fun _ d => some d) <$> documentsIn answer links := by
  have hput (space point config fallback : Except Error Document) :
      (do
        let arrivals ← Arrivals.empty.put .outcomeSpace <$> space
        let arrivals ← arrivals.put .outcomePoint <$> point
        let arrivals ← arrivals.put .oracleConfig <$> config
        arrivals.put .oracleFallback <$> fallback) =
      (fun documents => documents.map fun _ d => some d) <$>
        Slots.mapM (α := fun _ => Except Error Document) (β := fun _ => Document) (fun _ d => d)
          ⟨space, point, config, fallback⟩ := by
    rcases space with _ | _ <;> try rfl
    rcases point with _ | _ <;> try rfl
    rcases config with _ | _ <;> try rfl
    rcases fallback with _ | _ <;> rfl
  simp only [arrivalsIn, Family.all, List.foldlM_cons, List.foldlM_nil, bind_pure,
    Arrivals.deliver_eq_map, Slots.get_map]
  exact hput _ _ _ _

/-- In the order of the slots, even the errors are those of a download that asks for one document
after the other. -/
theorem joinedIn_all :
    joinedIn registry answer Family.all cid = some <$> metadataIn registry answer cid := by
  unfold joinedIn metadataIn
  cases linksIn registry answer cid with
  | error e => rfl
  | ok links =>
    change (arrivalsIn answer links Family.all >>= _) = some <$> (documentsIn answer links >>= _)
    rw [arrivalsIn_all]
    cases documentsIn answer links with
    | error e => rfl
    | ok documents =>
      change (match Arrivals.all? (documents.map fun _ d => some d) with
        | none => pure none
        | some documents => _) = _
      rw [Arrivals.all?_eq_some.mpr fun f => Slots.get_map _ documents f]
      rfl

theorem perform_downloadJoined_all {p : σ → Prop} {client : Client (StateM σ)}
    (h : client.store.Answers p answer) {s : σ} (hs : p s) :
    (perform (client.downloadJoined Family.all cid) s).1 =
      some <$> (perform (client.download cid) s).1 := by
  rw [(computes_downloadJoined h Family.all cid s hs).1, (computes_download h cid s hs).1,
    joinedIn_all]

/-! ## Stores with the same answers -/

section

variable {answer' : Cid → Except Error (List UInt8)}

theorem sameOutcome_linksIn (h : SameOutcome (answer cid) (answer' cid)) :
    SameOutcome (linksIn registry answer cid) (linksIn registry answer' cid) := by
  refine .bind (.refl _) fun _ _ => ?_
  refine .bind h fun data _ => ?_
  exact .refl _

/-- Two stores with the same answers for the root and for the documents it links to have the same
metadata. -/
theorem sameOutcome_metadataIn (h : SameOutcome (answer cid) (answer' cid))
    (hparts : ∀ links, linksIn registry answer cid = .ok links →
      ∀ f, SameOutcome (answer (links.get f).data) (answer' (links.get f).data)) :
    SameOutcome (metadataIn registry answer cid) (metadataIn registry answer' cid) := by
  refine .bind (sameOutcome_linksIn h) fun links hlinks => ?_
  refine .bind (.mapM fun f => ?_) fun documents _ => .refl _
  exact .bind (hparts links hlinks f) fun _ _ => .refl _

end

end Client

end MarketDag
