import MarketDag.Proofs.Client.RoundTrip

/-!
# The integrity of a store in memory

A store in memory that nobody puts wrong bytes into only ever holds bytes with the digests of their
identifiers (`Step.run_intact`), so that no upload and no download fails a check of bytes against
an identifier (`Step.run_checked`).
-/

namespace MarketDag

/-- Is an error something else than bytes that do not belong to their identifier? -/
def Error.Fair (e : Error) : Prop := e.kind ≠ .integrity

theorem Fails.fair {kinds : List ErrorKind} {α : Type} {x : Except Error α}
    (h : Fails (Error.Among kinds) x) (hkinds : .integrity ∉ kinds) : Fails Error.Fair x := by
  refine h.mono fun e he hkind => hkinds ?_
  rw [← hkind]
  exact he

theorem Multihash.eq_iff {h h' : Multihash} :
    h = h' ↔ h.code = h'.code ∧ h.digest = h'.digest := by
  cases h
  cases h'
  rw [mk.injEq]

/-! ## Stored bytes -/

namespace Memory

/-- Have all stored bytes the SHA-256 digests that their identifiers carry? -/
def Intact (s : Memory) : Prop :=
  ∀ e ∈ s.blocks.entries, e.1.hash.code = Multihash.sha256Code ∧ e.1.hash.digest = Sha256.digest e.2

theorem intact_iff {s : Memory} :
    s.Intact ↔ ∀ e ∈ s.blocks.entries, e.1.verify e.2 = .ok () := by
  refine forall₂_congr fun e _ => ?_
  rw [Cid.verify_eq_ok, Multihash.eq_iff]
  rfl

theorem intact_empty : Intact {} := by
  intro e he
  cases he

theorem Intact.erase {s : Memory} (h : s.Intact) (cid : Cid) : (s.erase cid).Intact :=
  fun e he => h e (List.mem_of_mem_filter he)

theorem Intact.insert {s : Memory} (h : s.Intact) {cid : Cid} {data : List UInt8}
    (hverify : cid.verify data = .ok ()) : (s.insert cid data).Intact := by
  rw [intact_iff] at *
  intro e he
  rcases List.mem_append.mp he with he | he
  · exact h e (List.mem_of_mem_filter he)
  · rw [List.mem_singleton.mp he]
    exact hverify

theorem Intact.insertAll {s : Memory} (h : s.Intact) {bs : List Block}
    (hbs : ∀ b ∈ bs, b.cid.verify b.data = .ok ()) : (s.insertAll bs).Intact := by
  induction bs generalizing s with
  | nil => exact h
  | cons b bs ih =>
    obtain ⟨hb, hbs⟩ := List.forall_mem_cons.mp hbs
    exact ih (h.insert hb) hbs

theorem Intact.verify {s : Memory} (h : s.Intact) {cid : Cid} {data : List UInt8}
    (hfind : s.find? cid = some data) : cid.verify data = .ok () := by
  obtain ⟨before, after, hblocks, -⟩ := List.lookup_eq_some_iff.mp hfind
  exact intact_iff.mp h (cid, data) (by simp [hblocks])

/-- What is taken out of an intact store belongs to its identifier. -/
theorem meets_getBlock (cid : Cid) :
    Meets Intact (fun data => Fails Error.Fair (cid.verify data)) Error.Fair
      (store.getBlock cid) := by
  refine ⟨fun s hs => ?_, fun {s data} hs h => ?_, fun {s} _ e h => ?_⟩
  · rw [perform_getBlock]
    exact hs
  · obtain ⟨hfind, -⟩ := perform_getBlock_eq_ok.mp (Prod.ext h rfl)
    rw [hs.verify hfind]
    exact .ok _
  · rw [eq_missing_of_getBlock h]
    exact fun hkind => ErrorKind.noConfusion hkind

theorem preserves_intact_importArchive (a : Archive) :
    Preserves Intact (store.importArchive a) := by
  intro s hs
  rw [perform_importArchive]
  split
  · rename_i haccept
    exact hs.insertAll (accept_eq_ok.mp haccept).2
  · exact hs

end Memory

/-! ## Clients -/

namespace Client

theorem meets_download_memory (registry : Registry) (cid : Cid) :
    Meets Memory.Intact (fun _ => True) Error.Fair
      (download ⟨Memory.store, registry⟩ cid) := by
  refine meets_download Memory.meets_getBlock (fun e he hkind => ?_) cid
  rw [Error.Among, hkind] at he
  simp at he

/-- A root that is not there cannot be downloaded. -/
theorem download_missing (registry : Registry) {cid : Cid} {s : Memory}
    (hcid : cid.ensureSupported = .ok ()) (h : s.find? cid = none) :
    (perform (download ⟨Memory.store, registry⟩ cid) s).1 = .error (Memory.missing cid) := by
  unfold download
  rw [perform_bind, perform_lift, hcid]
  change (perform (Memory.store.getBlock cid >>= _) s).1 = _
  rw [perform_bind, Memory.perform_getBlock, h]

theorem preserves_intact_upload (registry : Registry) (m : Metadata) :
    Preserves Memory.Intact (upload ⟨Memory.store, registry⟩ m) := by
  intro s hs
  rw [perform_upload]
  cases m.archive registry with
  | error e => exact hs
  | ok a => exact Memory.preserves_intact_importArchive a s hs

/-- Whatever is in the store, no upload into memory fails a check of bytes: its own blocks belong to
their identifiers. -/
theorem fails_upload {registry : Registry} {m : Metadata} (hm : m.Addressable registry)
    (s : Memory) :
    Fails Error.Fair (perform (upload ⟨Memory.store, registry⟩ m) s).1 := by
  rw [perform_upload]
  cases harchive : m.archive registry with
  | error e => exact .error ((m.fails_archive registry).fair (by simp) e harchive)
  | ok a =>
    obtain ⟨-, bs, hassemble, hbs⟩ := Metadata.archive_eq_ok.mp harchive
    obtain ⟨top, parts, rfl, hassembled⟩ := Metadata.assemble_eq_ok.mp hassemble
    have hblocks := (Archive.of_ofBlocks hbs).2.1
    have haccept : Fails Error.Fair (Memory.accept a) := by
      refine .bind ((Archive.fails_ofBytes _).fair (by simp)) fun a' hread => ?_
      rw [Archive.eq_of_ofBytes_toBytes hbs (hm a harchive) hread, hblocks]
      have hverify := forM_eq_ok.mpr hassembled.verify
      exact .bind (hverify ▸ .ok _) fun _ _ => .ok _
    change Fails Error.Fair (perform (Memory.store.importArchive a) s).1
    rw [Memory.result_importArchive]
    exact haccept.map _

end Client

/-! ## Steps -/

/-- What can be done with a store in memory without putting bytes into it that were not checked. -/
inductive Step where
  | operate (op : Operation)
  | remove (cid : Cid)

namespace Step

/-- The store after a step, whether or not it went well. -/
def next (s : Memory) : Step → Memory
  | .operate op => op.next s
  | .remove cid => s.erase cid

/-- The store after steps, one after the other. -/
def run (s : Memory) (steps : List Step) : Memory := steps.foldl next s

theorem next_intact (step : Step) {s : Memory} (h : s.Intact) : (next s step).Intact := by
  cases step with
  | operate op =>
    cases op with
    | upload registry m => exact Client.preserves_intact_upload registry m s h
    | importArchive a => exact Memory.preserves_intact_importArchive a s h
    | getBlock cid => exact (Memory.meets_getBlock cid).preserves s h
    | download registry cid => exact (Client.meets_download_memory registry cid).preserves s h
  | remove cid => exact h.erase cid

theorem run_intact (steps : List Step) {s : Memory} (h : s.Intact) : (run s steps).Intact := by
  induction steps generalizing s with
  | nil => exact h
  | cons step steps ih => exact ih (next_intact step h)

/-- After any steps on an empty store, all stored bytes have the SHA-256 digests that their
identifiers carry, and no download and no upload that comes next fails a check of bytes. -/
theorem run_checked (steps : List Step) :
    (run {} steps).Intact ∧
    (∀ registry cid e, (perform (Client.download ⟨Memory.store, registry⟩ cid)
      (run {} steps)).1 = .error e → e.kind ≠ .integrity) ∧
    ∀ registry m e, m.Addressable registry → (perform (Client.upload ⟨Memory.store, registry⟩ m)
      (run {} steps)).1 = .error e → e.kind ≠ .integrity := by
  have hintact := run_intact steps Memory.intact_empty
  refine ⟨hintact, fun registry cid e h => ?_, fun registry m e hm h => ?_⟩
  · exact (Client.meets_download_memory registry cid).fails hintact e h
  · exact Client.fails_upload hm _ e h

/-- The sample is uploaded and its root is removed: the store is intact, but a download of the root
fails since it is missing, and so does an upload of what is not registered.  The sample itself may
be uploaded again. -/
theorem run_checked_sample : ∃ (steps : List Step) (cid : Cid) (e : Error),
    (run {} steps).Intact ∧
    (perform (Client.download ⟨Memory.store, .full⟩ cid) (run {} steps)).1 =
      .error (Memory.missing cid) ∧ (Memory.missing cid).kind ≠ .integrity ∧
    (perform (Client.upload ⟨Memory.store, .empty⟩ (.sample .one)) (run {} steps)).1 =
      .error e ∧ e.kind ≠ .integrity ∧
    (Metadata.sample .one).Addressable .full ∧
    ∀ e', (perform (Client.upload ⟨Memory.store, .full⟩ (.sample .one)) (run {} steps)).1 =
      .error e' → e'.kind ≠ .integrity := by
  obtain ⟨top, parts, hpublished, hfits, -⟩ := Metadata.sample_fits
  let steps : List Step := [.operate (.upload .full (.sample .one)), .remove top.cid]
  have hfind : (run {} steps).find? top.cid = none := by
    change (Memory.erase _ top.cid).find? top.cid = none
    rw [Memory.find?_erase, if_pos rfl]
  obtain ⟨hintact, hdownload, hupload⟩ := run_checked steps
  -- the root is removed, so the download ends before there is anything to check
  have hmissing := Client.download_missing .full hpublished.evidence.supported hfind
  have hempty : (Metadata.sample .one).archive .empty =
      .error (.misconfigured (.unregistered .outcomeSpace)) := rfl
  have haddressable : (Metadata.sample .one).Addressable .empty := by
    intro a ha
    cases hempty.symm.trans ha
  have hrefused : (perform (Client.upload ⟨Memory.store, .empty⟩ (.sample .one))
      (run {} steps)).1 = .error (.misconfigured (.unregistered .outcomeSpace)) := by
    rw [Client.perform_upload, hempty]
  have haddressable' := hpublished.assembled.addressable hfits
  exact ⟨steps, top.cid, _, hintact, hmissing, hdownload _ _ _ hmissing, hrefused,
    hupload _ _ _ haddressable hrefused, haddressable', fun e => hupload _ _ e haddressable'⟩

end Step

end MarketDag
