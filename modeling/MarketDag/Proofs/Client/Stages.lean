import MarketDag.Proofs.Client.Download
import MarketDag.Proofs.Dag.Failures

/-!
# The stages of a download

A download asks for the root, and for the documents only once the kinds of all of them are known,
one after the other up to the first that is not as it should be.  At which stage a download from
memory ends is a matter of the blocks that are there (`Client.EndsAt`), and decides its result and
which identifiers it has asked for (`Client.download_stages`).
-/

namespace MarketDag

namespace Memory

variable {α : Type} {s t : Memory} {cid : Cid} {read : List UInt8 → Except Error α}

/-! ## Identifiers that are asked for -/

/-- With one more fetch for each time that an identifier was asked for. -/
def countFetches (s : Memory) (asked : List Cid) : Memory := asked.foldl countFetch s

@[simp] theorem blocks_countFetches (s : Memory) (asked : List Cid) :
    (s.countFetches asked).blocks = s.blocks := by
  induction asked generalizing s with
  | nil => rfl
  | cons cid asked ih => exact ih (s.countFetch cid)

theorem fetchCount_countFetches (s : Memory) (asked : List Cid) (x : Cid) :
    (s.countFetches asked).fetchCount x = s.fetchCount x + asked.count x := by
  induction asked generalizing s with
  | nil => rfl
  | cons cid asked ih =>
    have hrest : (s.countFetches (cid :: asked)).fetchCount x = _ := ih (s.countFetch cid)
    rw [hrest, fetchCount_countFetch]
    by_cases hx : x = cid
    · rw [if_pos hx, hx, List.count_cons_self]
      omega
    · rw [if_neg hx, List.count_cons_of_ne (Ne.symm hx)]
      omega

/-! ## Blocks that are read and checked -/

/-- Why nothing is read under an identifier. -/
inductive Rejection where
  /-- There are no bytes. -/
  | missing
  /-- The bytes have the wrong form, or break a rule. -/
  | unreadable
  /-- The identifier carries no SHA-256 digest. -/
  | foreignHash
  /-- The bytes have another digest. -/
  | mismatch

/-- The kind of the error. -/
def Rejection.kind : Rejection → ErrorKind
  | .missing => .transport
  | .unreadable => .validation
  | .foreignHash => .unsupportedCodec
  | .mismatch => .integrity

/-- What is under an identifier is rejected with an error.  It is read before its digest is looked
at. -/
inductive Rejects (s : Memory) (cid : Cid) (read : List UInt8 → Except Error α) :
    Rejection → Error → Prop
  | missing (hfind : s.find? cid = none) : Rejects s cid read .missing (missing cid)
  | unreadable {data : List UInt8} {e : Error} (hfind : s.find? cid = some data)
      (hread : read data = .error e) : Rejects s cid read .unreadable e
  | foreignHash {data : List UInt8} {a : α} (hfind : s.find? cid = some data)
      (hread : read data = .ok a) (hcode : cid.hash.code ≠ Multihash.sha256Code) :
      Rejects s cid read .foreignHash (.unsupportedCodec cid cid.hash.code)
  | mismatch {data : List UInt8} {a : α} (hfind : s.find? cid = some data)
      (hread : read data = .ok a) (hcode : cid.hash.code = Multihash.sha256Code)
      (hdigest : Multihash.sha256 data ≠ cid.hash) :
      Rejects s cid read .mismatch (.mismatch (.ofData cid.codec data) cid)

/-- What is under an identifier has its digest, and is read as a value. -/
def Yields (s : Memory) (cid : Cid) (read : List UInt8 → Except Error α) (a : α) : Prop :=
  ∃ data, s.find? cid = some data ∧ read data = .ok a ∧ cid.verify data = .ok ()

theorem rejects_or_yields (s : Memory) (cid : Cid) (read : List UInt8 → Except Error α) :
    (∃ why e, s.Rejects cid read why e) ∨ ∃ a, s.Yields cid read a := by
  cases hfind : s.find? cid with
  | none => exact .inl ⟨_, _, .missing hfind⟩
  | some data =>
    cases hread : read data with
    | error e => exact .inl ⟨_, _, .unreadable hfind hread⟩
    | ok a =>
      by_cases hcode : cid.hash.code = Multihash.sha256Code
      · by_cases hdigest : Multihash.sha256 data = cid.hash
        · exact .inr ⟨a, data, hfind, hread, Cid.verify_eq_ok.mpr hdigest.symm⟩
        · exact .inl ⟨_, _, .mismatch hfind hread hcode hdigest⟩
      · exact .inl ⟨_, _, .foreignHash hfind hread hcode⟩

/-- Only the blocks matter. -/
theorem Rejects.of_blocks {why : Rejection} {e : Error} (h : s.Rejects cid read why e)
    (hblocks : t.blocks = s.blocks) : t.Rejects cid read why e := by
  have hsame : t.find? cid = s.find? cid := by rw [find?, find?, hblocks]
  cases h with
  | missing hfind => exact .missing (hsame.trans hfind)
  | unreadable hfind hread => exact .unreadable (hsame.trans hfind) hread
  | foreignHash hfind hread hcode => exact .foreignHash (hsame.trans hfind) hread hcode
  | mismatch hfind hread hcode hdigest =>
    exact .mismatch (hsame.trans hfind) hread hcode hdigest

theorem Yields.of_blocks {a : α} (h : s.Yields cid read a) (hblocks : t.blocks = s.blocks) :
    t.Yields cid read a := by
  obtain ⟨data, hfind, hrest⟩ := h
  exact ⟨data, by rw [find?, hblocks]; exact hfind, hrest⟩

theorem Rejects.kind_eq {why : Rejection} {e : Error} (h : s.Rejects cid read why e)
    (hread : ∀ data, Fails (Error.Among [.validation]) (read data)) : e.kind = why.kind := by
  cases h with
  | missing => rfl
  | unreadable _ herror => exact List.mem_singleton.mp (hread _ _ herror)
  | foreignHash => rfl
  | mismatch => rfl

/-- Asks for a block, reads it and checks its digest. -/
def checked (cid : Cid) (read : List UInt8 → Except Error α) : ExceptT Error (StateM Memory) α := do
  let data ← store.getBlock cid
  let a ← (read data : Except Error α)
  (cid.verify data : Except Error Unit)
  return a

theorem perform_checked_of_rejects {why : Rejection} {e : Error} (h : s.Rejects cid read why e) :
    perform (checked cid read) s = (.error e, s.countFetch cid) := by
  have hget {data : List UInt8} (hfind : s.find? cid = some data) :
      perform (store.getBlock cid) s = (.ok data, s.countFetch cid) :=
    perform_getBlock_eq_ok.mpr ⟨hfind, rfl⟩
  cases h with
  | missing hfind => exact perform_bind_of_error (by rw [perform_getBlock, hfind])
  | unreadable hfind hread =>
    exact (perform_bind_of_ok (hget hfind)).trans (perform_lift_bind_of_error hread _)
  | @foreignHash data _ hfind hread hcode =>
    have hverify : cid.verify data = .error (.unsupportedCodec cid cid.hash.code) := if_pos hcode
    refine (perform_bind_of_ok (hget hfind)).trans ?_
    exact (perform_lift_bind_of_ok hread _).trans (perform_lift_bind_of_error hverify _)
  | @mismatch data _ hfind hread hcode hdigest =>
    have hverify : cid.verify data = .error (.mismatch (.ofData cid.codec data) cid) := by
      rw [Cid.verify, if_neg (not_not.mpr hcode), if_neg hdigest]
    refine (perform_bind_of_ok (hget hfind)).trans ?_
    exact (perform_lift_bind_of_ok hread _).trans (perform_lift_bind_of_error hverify _)

theorem perform_checked_of_yields {a : α} (h : s.Yields cid read a) :
    perform (checked cid read) s = (.ok a, s.countFetch cid) := by
  obtain ⟨data, hfind, hread, hverify⟩ := h
  refine (perform_bind_of_ok (perform_getBlock_eq_ok.mpr ⟨hfind, rfl⟩)).trans ?_
  refine (perform_lift_bind_of_ok hread _).trans ?_
  exact perform_lift_bind_of_ok hverify _

end Memory

/-! ## Slots in their order -/

/-- The families in front of one. -/
def Family.before (f : Family) : List Family := Family.all.takeWhile (· ≠ f)

/-- There is a first slot without a property, or all have it. -/
theorem Family.first_or_forall (p : Family → Prop) :
    (∃ f : Family, (∀ g ∈ f.before, p g) ∧ ¬ p f) ∨ ∀ f, p f := by
  by_cases hspace : p .outcomeSpace
  · by_cases hpoint : p .outcomePoint
    · by_cases hconfig : p .oracleConfig
      · by_cases hfallback : p .oracleFallback
        · exact .inr fun f => by cases f <;> assumption
        · exact .inl ⟨.oracleFallback, by simp [before, all, *], hfallback⟩
      · exact .inl ⟨.oracleConfig, by simp [before, all, *], hconfig⟩
    · exact .inl ⟨.outcomePoint, by simp [before, all, *], hpoint⟩
  · exact .inl ⟨.outcomeSpace, by simp [before, all], hspace⟩

namespace Client

open Memory (Rejection)

/-! ## Stages -/

/-- Where a download ends. -/
inductive Stage where
  /-- At the codec of the identifier. -/
  | codec
  /-- At the root. -/
  | root (why : Rejection)
  /-- At the links of the root. -/
  | links
  /-- At a document. -/
  | slot (f : Family) (why : Rejection)
  /-- With the metadata. -/
  | done

/-- The kinds of the errors that a stage ends with. -/
def Stage.kinds : Stage → List ErrorKind
  | .codec => [.unsupportedCodec]
  | .root why => [why.kind]
  | .links => [.validation, .unsupportedCodec, .unknownSchema]
  | .slot _ why => [why.kind]
  | .done => []

/-- A download from memory ends at a stage, where it has asked for some identifiers in order and has
a result.  At each stage the ones before it went well. -/
inductive EndsAt (registry : Registry) (s : Memory) (cid : Cid) :
    Stage → List Cid → Except Error Metadata → Prop
  | codec {e : Error} (hcodec : cid.ensureSupported = .error e) :
      EndsAt registry s cid .codec [] (.error e)
  | root {why : Rejection} {e : Error} (hcodec : cid.ensureSupported = .ok ())
      (hroot : s.Rejects cid (Block.decode Root cid) why e) :
      EndsAt registry s cid (.root why) [cid] (.error e)
  | links {root : Root} {e : Error} (hcodec : cid.ensureSupported = .ok ())
      (hroot : s.Yields cid (Block.decode Root cid) root)
      (hlinks : root.resolve registry = .error e) :
      EndsAt registry s cid .links [cid] (.error e)
  | slot {root : Root} {links : Slots ResolvedLink} {f : Family} {why : Rejection} {e : Error}
      (hcodec : cid.ensureSupported = .ok ())
      (hroot : s.Yields cid (Block.decode Root cid) root)
      (hlinks : root.resolve registry = .ok links)
      (hbefore : ∀ g ∈ f.before, ∃ d, s.Yields (root.get g).data
        ((links.get g).kind.decode (root.get g).data) d)
      (hslot : s.Rejects (root.get f).data ((links.get f).kind.decode (root.get f).data) why e) :
      EndsAt registry s cid (.slot f why)
        (cid :: (f.before ++ [f]).map fun g => (root.get g).data) (.error e)
  | done {root : Root} {links : Slots ResolvedLink} {m : Metadata}
      (hcodec : cid.ensureSupported = .ok ())
      (hroot : s.Yields cid (Block.decode Root cid) root)
      (hlinks : root.resolve registry = .ok links)
      (hslots : ∀ f, s.Yields (root.get f).data ((links.get f).kind.decode (root.get f).data)
        (m.get f).1) :
      EndsAt registry s cid .done (cid :: Family.all.map fun g => (root.get g).data) (.ok m)

variable {registry : Registry} {s : Memory} {cid : Cid} {stage : Stage} {asked : List Cid}
  {result : Except Error Metadata}

/-- Every download ends at one of the stages. -/
theorem exists_endsAt (registry : Registry) (s : Memory) (cid : Cid) :
    ∃ stage asked result, EndsAt registry s cid stage asked result := by
  cases hcodec : cid.ensureSupported with
  | error e => exact ⟨_, _, _, .codec hcodec⟩
  | ok _ =>
    rcases s.rejects_or_yields cid (Block.decode Root cid) with ⟨why, e, hroot⟩ | ⟨root, hroot⟩
    · exact ⟨_, _, _, .root hcodec hroot⟩
    cases hlinks : root.resolve registry with
    | error e => exact ⟨_, _, _, .links hcodec hroot hlinks⟩
    | ok links =>
      -- the slots are gone through up to the first one without a document
      rcases Family.first_or_forall fun f => ∃ d, s.Yields (root.get f).data
        ((links.get f).kind.decode (root.get f).data) d with ⟨f, hbefore, hnone⟩ | hslots
      · obtain ⟨why, e, hslot⟩ := (s.rejects_or_yields _ _).resolve_right hnone
        exact ⟨_, _, _, .slot hcodec hroot hlinks hbefore hslot⟩
      · choose d hslots using hslots
        have hfamily : ∀ f, (d f).family = f := by
          intro f
          obtain ⟨data, -, hdecode, -⟩ := hslots f
          rw [Document.family, Kind.kind_of_decode hdecode, (links.get f).family_kind]
        refine ⟨_, _, _, .done (m := .ofFn fun f => ⟨d f, hfamily f⟩) hcodec hroot hlinks
          fun f => ?_⟩
        rw [Slots.get_ofFn]
        exact hslots f

/-! ## Runs -/

theorem perform_fetch_of_rejects {f : Family} {l : ResolvedLink f} {why : Rejection} {e : Error}
    (h : s.Rejects l.data (l.kind.decode l.data) why e) :
    perform (fetch ⟨Memory.store, registry⟩ l) s = (.error e, s.countFetch l.data) :=
  Memory.perform_checked_of_rejects h

theorem perform_fetch_of_yields {f : Family} {l : ResolvedLink f} {d : Document}
    (h : s.Yields l.data (l.kind.decode l.data) d) :
    perform (fetch ⟨Memory.store, registry⟩ l) s = (.ok d, s.countFetch l.data) :=
  Memory.perform_checked_of_yields h

/-- The documents up to the first one that is rejected are asked for. -/
theorem perform_fetches_of_rejects {links : Slots ResolvedLink} {f : Family} {why : Rejection}
    {e : Error}
    (hbefore : ∀ g ∈ f.before, ∃ d, s.Yields (links.get g).data
      ((links.get g).kind.decode (links.get g).data) d)
    (hslot : s.Rejects (links.get f).data ((links.get f).kind.decode (links.get f).data) why e) :
    perform (links.mapM (β := fun _ => Document) fun _ l => fetch ⟨Memory.store, registry⟩ l) s =
      (.error e, s.countFetches ((f.before ++ [f]).map fun g => (links.get g).data)) := by
  choose d hd using hbefore
  have hok (g : Family) (hg : g ∈ f.before) (t : Memory) (ht : t.blocks = s.blocks) :
      perform (fetch ⟨Memory.store, registry⟩ (links.get g)) t =
        (.ok (d g hg), t.countFetch (links.get g).data) :=
    perform_fetch_of_yields ((hd g hg).of_blocks ht)
  have herror (t : Memory) (ht : t.blocks = s.blocks) :
      perform (fetch ⟨Memory.store, registry⟩ (links.get f)) t =
        (.error e, t.countFetch (links.get f).data) :=
    perform_fetch_of_rejects (hslot.of_blocks ht)
  -- each fetch starts from the state that the ones before it leave, which has the same blocks
  unfold Slots.mapM
  cases f with
  | outcomeSpace => exact perform_bind_of_error (herror _ rfl)
  | outcomePoint =>
    refine (perform_bind_of_ok (hok .outcomeSpace (by decide) _ (by rfl))).trans ?_
    exact perform_bind_of_error (herror _ (by rfl))
  | oracleConfig =>
    refine (perform_bind_of_ok (hok .outcomeSpace (by decide) _ (by rfl))).trans ?_
    refine (perform_bind_of_ok (hok .outcomePoint (by decide) _ (by rfl))).trans ?_
    exact perform_bind_of_error (herror _ (by rfl))
  | oracleFallback =>
    refine (perform_bind_of_ok (hok .outcomeSpace (by decide) _ (by rfl))).trans ?_
    refine (perform_bind_of_ok (hok .outcomePoint (by decide) _ (by rfl))).trans ?_
    refine (perform_bind_of_ok (hok .oracleConfig (by decide) _ (by rfl))).trans ?_
    exact perform_bind_of_error (herror _ (by rfl))

/-- All documents are asked for if none is rejected. -/
theorem perform_fetches_of_yields {links : Slots ResolvedLink} {docs : Slots fun _ => Document}
    (hslots : ∀ f, s.Yields (links.get f).data ((links.get f).kind.decode (links.get f).data)
      (docs.get f)) :
    perform (links.mapM (β := fun _ => Document) fun _ l => fetch ⟨Memory.store, registry⟩ l) s =
      (.ok docs, s.countFetches (Family.all.map fun g => (links.get g).data)) := by
  have hok (f : Family) (t : Memory) (ht : t.blocks = s.blocks) :
      perform (fetch ⟨Memory.store, registry⟩ (links.get f)) t =
        (.ok (docs.get f), t.countFetch (links.get f).data) :=
    perform_fetch_of_yields ((hslots f).of_blocks ht)
  unfold Slots.mapM
  refine (perform_bind_of_ok (hok .outcomeSpace _ (by rfl))).trans ?_
  refine (perform_bind_of_ok (hok .outcomePoint _ (by rfl))).trans ?_
  refine (perform_bind_of_ok (hok .oracleConfig _ (by rfl))).trans ?_
  exact perform_bind_of_ok (hok .oracleFallback _ (by rfl))

/-- The rest of a download, once the kinds of all documents are known. -/
def downloadParts (registry : Registry) (links : Slots ResolvedLink) :
    ExceptT Error (StateM Memory) Metadata := do
  let documents ← links.mapM (β := fun _ => Document) fun _ l => fetch ⟨Memory.store, registry⟩ l
  (documents.mapM fun slot d => d.into slot : Except Error Metadata)

/-- The root is asked for, read and checked as the documents are. -/
theorem download_eq_checked (registry : Registry) (cid : Cid) :
    download ⟨Memory.store, registry⟩ cid = (do
      (cid.ensureSupported : Except Error Unit)
      let root ← Memory.checked cid (Block.decode Root cid)
      let links ← (Root.resolve registry root : Except Error (Slots ResolvedLink))
      downloadParts registry links) := by
  simp only [download, downloadParts, Memory.checked, bind_assoc, pure_bind]

theorem perform_download_of_resolve {root : Root} {links : Slots ResolvedLink}
    (hcodec : cid.ensureSupported = .ok ())
    (hroot : s.Yields cid (Block.decode Root cid) root)
    (hlinks : root.resolve registry = .ok links) :
    perform (download ⟨Memory.store, registry⟩ cid) s =
      perform (downloadParts registry links) (s.countFetch cid) := by
  rw [download_eq_checked]
  refine (perform_lift_bind_of_ok hcodec _).trans ?_
  refine (perform_bind_of_ok (Memory.perform_checked_of_yields hroot)).trans ?_
  exact perform_lift_bind_of_ok hlinks _

/-- The links of a root keep their identifiers when they are resolved. -/
theorem data_of_resolve {root : Root} {links : Slots ResolvedLink}
    (h : root.resolve registry = .ok links) (f : Family) :
    (root.get f).data = (links.get f).data :=
  (ComponentLink.resolve_eq_ok.mp (Slots.mapM_eq_ok.mp h f)).2.2

/-- A download does what its stage says. -/
theorem EndsAt.perform_download (h : EndsAt registry s cid stage asked result) :
    perform (download ⟨Memory.store, registry⟩ cid) s = (result, s.countFetches asked) := by
  cases h with
  | codec hcodec =>
    rw [download_eq_checked]
    exact perform_lift_bind_of_error hcodec _
  | root hcodec hroot =>
    rw [download_eq_checked]
    refine (perform_lift_bind_of_ok hcodec _).trans ?_
    exact perform_bind_of_error (Memory.perform_checked_of_rejects hroot)
  | links hcodec hroot hlinks =>
    rw [download_eq_checked]
    refine (perform_lift_bind_of_ok hcodec _).trans ?_
    refine (perform_bind_of_ok (Memory.perform_checked_of_yields hroot)).trans ?_
    exact perform_lift_bind_of_error hlinks _
  | slot hcodec hroot hlinks hbefore hslot =>
    rw [perform_download_of_resolve hcodec hroot hlinks]
    simp only [data_of_resolve hlinks] at hbefore hslot ⊢
    -- counting the fetch of the root has left the blocks as they were
    refine perform_bind_of_error (perform_fetches_of_rejects (fun g hg => ?_) (hslot.of_blocks rfl))
    obtain ⟨d, hd⟩ := hbefore g hg
    exact ⟨d, hd.of_blocks rfl⟩
  | @done root links m hcodec hroot hlinks hslots =>
    rw [perform_download_of_resolve hcodec hroot hlinks]
    simp only [data_of_resolve hlinks] at hslots ⊢
    let docs : Slots fun _ => Document := .ofFn fun f => (m.get f).1
    have hdocs : ∀ f, (s.countFetch cid).Yields (links.get f).data
        ((links.get f).kind.decode (links.get f).data) (docs.get f) := by
      intro f
      rw [Slots.get_ofFn]
      exact (hslots f).of_blocks rfl
    have hinto : (docs.mapM fun slot d => d.into slot) = .ok m :=
      Metadata.mapM_into_eq_ok.mpr fun f => Slots.get_ofFn _ f
    refine (perform_bind_of_ok (perform_fetches_of_yields hdocs)).trans ?_
    rw [perform_lift, hinto]
    rfl

/-! ## Errors -/

theorem EndsAt.kind_mem {e : Error} (h : EndsAt registry s cid stage asked (.error e)) :
    e.kind ∈ stage.kinds := by
  cases h with
  | codec hcodec => exact cid.fails_ensureSupported e hcodec
  | root hcodec hroot =>
    exact List.mem_singleton.mpr (hroot.kind_eq (Block.fails_decode_of_supported Root hcodec))
  | links _ _ hlinks => exact Root.fails_resolve registry _ e hlinks
  | @slot root links f why _ _ _ hlinks _ hslot =>
    have hdata : (root.get f).data.ensureSupported = .ok () :=
      (ComponentLink.resolve_eq_ok.mp (Slots.mapM_eq_ok.mp hlinks f)).2.1
    exact List.mem_singleton.mpr
      (hslot.kind_eq ((links.get f).kind.fails_decode_of_supported hdata))

/-- A download ends at one of the stages, with the result and the kinds of errors of this stage.  It
leaves the blocks as they are, and every identifier is counted once for each time that it was asked
for; a download that goes well asks five times. -/
theorem download_stages (registry : Registry) (s : Memory) (cid : Cid) :
    (∃ stage asked result, EndsAt registry s cid stage asked result) ∧
    ∀ stage asked result, EndsAt registry s cid stage asked result →
      ∃ s', perform (download ⟨Memory.store, registry⟩ cid) s = (result, s') ∧
        s'.blocks = s.blocks ∧
        (∀ x, s'.fetchCount x = s.fetchCount x + asked.count x) ∧
        (∀ e, result = .error e → e.kind ∈ stage.kinds) ∧
        ((∃ m, result = .ok m) → stage = .done ∧ asked.length = 5) := by
  refine ⟨exists_endsAt registry s cid, fun stage asked result h => ?_⟩
  refine ⟨_, h.perform_download, s.blocks_countFetches asked, s.fetchCount_countFetches asked,
    ?_, ?_⟩
  · rintro e rfl
    exact h.kind_mem
  · rintro ⟨m, rfl⟩
    cases h
    exact ⟨rfl, rfl⟩

/-- A download of the sample asks for its five blocks; one from an empty store asks for the root
only. -/
theorem download_stages_sample :
    (∃ (s s' : Memory) (cid : Cid) (m : Metadata) (asked : List Cid),
      perform (download ⟨Memory.store, .full⟩ cid) s = (.ok m, s') ∧ asked.length = 5 ∧
        ∀ x, s'.fetchCount x = s.fetchCount x + asked.count x) ∧
    ∃ (s' : Memory) (cid : Cid),
      perform (download ⟨Memory.store, .full⟩ cid) {} = (.error (Memory.missing cid), s') ∧
        s'.fetchCount cid = 1 := by
  obtain ⟨top, parts, hpublished, -, hfree⟩ := Metadata.sample_published
  have hholds := holds_insertAll hpublished.assembled hfree
    (fun b hb => List.mem_map_of_mem hb) {}
  obtain ⟨t, hdownload⟩ := download_of_holds hpublished hholds
  constructor
  · obtain ⟨⟨stage, asked, result, hends⟩, hall⟩ := download_stages .full _ top.cid
    obtain ⟨s', hrun, -, hcount, -, hdone⟩ := hall stage asked result hends
    cases hdownload.symm.trans hrun
    exact ⟨_, _, top.cid, _, asked, hrun, (hdone ⟨_, rfl⟩).2, hcount⟩
  · have hcodec : top.cid.ensureSupported = .ok () := hpublished.evidence.supported
    have hends : EndsAt .full {} top.cid (.root .missing) [top.cid] _ :=
      .root hcodec (.missing rfl)
    obtain ⟨s', hrun, -, hcount, -⟩ := (download_stages .full {} top.cid).2 _ _ _ hends
    refine ⟨s', top.cid, hrun, ?_⟩
    rw [hcount, List.count_singleton_self]
    rfl

end Client

end MarketDag
