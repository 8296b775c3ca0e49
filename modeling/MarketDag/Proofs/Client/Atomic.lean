import MarketDag.Proofs.Client.Steps

/-!
# Imports and uploads are all or nothing

A store in memory takes in all blocks of an archive or none of them: it checks every block before
it stores the first (`Memory.takesAll`).  An upload is an import of five blocks, or fails before
it comes to the store (`Client.all_or_nothing`).
-/

namespace MarketDag

namespace Memory

/-! ## Blocks that come in -/

/-- Is this what a store becomes when all of some blocks come in, of which the first has a given
identifier and the last with each identifier stays? -/
structure Admits (s : Memory) (bs : List Block) (root : Cid) (s' : Memory) : Prop where
  root_eq : ∃ b rest, bs = b :: rest ∧ b.cid = root
  contains_root : (s'.find? root).isSome
  find?_last : ∀ before b after, bs = before ++ b :: after → (∀ x ∈ after, x.cid ≠ b.cid) →
    s'.find? b.cid = some b.data
  find?_other : ∀ cid, (∀ b ∈ bs, b.cid ≠ cid) → s'.find? cid = s.find? cid
  fetchCount_eq : ∀ cid, s'.fetchCount cid = s.fetchCount cid

theorem admits_insertAll (s : Memory) (b : Block) (bs : List Block) :
    s.Admits (b :: bs) b.cid (s.insertAll (b :: bs)) where
  root_eq := ⟨b, bs, rfl, rfl⟩
  contains_root := by
    have hsome : ((b :: bs).reverse.find? fun x => x.cid = b.cid).isSome := by
      simp
    rw [find?_insertAll, Option.isSome_or, Option.isSome_map, hsome, Bool.true_or]
  find?_last before x after happend hafter := by
    rw [happend, find?_insertAll_append hafter]
  find?_other cid hcid := find?_insertAll_of_forall_ne hcid
  fetchCount_eq := fetchCount_insertAll s (b :: bs)

/-! ## Imports -/

/-- An import that fails leaves the store alone, whatever the archive. -/
theorem eq_of_importArchive_error {a : Archive} {s s' : Memory} {e : Error}
    (h : perform (store.importArchive a) s = (.error e, s')) : s' = s := by
  rw [perform_importArchive] at h
  split at h
  · cases h
  · cases h
    rfl

variable {bs : List Block} {a : Archive}

theorem admits_of_importArchive (hbs : Archive.ofBlocks bs = .ok a) (ha : a.Addressable)
    {s s' : Memory} {root : Cid} (h : perform (store.importArchive a) s = (.ok root, s')) :
    s.Admits bs root s' := by
  rw [perform_importArchive] at h
  split at h
  · rename_i a' haccept
    rw [Archive.eq_of_ofBytes_toBytes hbs ha (accept_eq_ok.mp haccept).1] at h
    cases h
    cases bs with
    | nil => cases hbs
    | cons b bs =>
      cases hbs
      exact admits_insertAll s b bs
  · cases h

/-- What is read back from an archive's bytes is checked block by block. -/
theorem accept_of_read (hbs : Archive.ofBlocks bs = .ok a) (ha : a.Addressable) {a' : Archive}
    (hread : Archive.ofBytes a.toBytes = .ok a') :
    accept a = bs.forM (fun b => b.cid.verify b.data) >>= fun _ => pure a := by
  have hself := Archive.eq_of_ofBytes_toBytes hbs ha hread
  subst hself
  rw [← (Archive.of_ofBlocks hbs).2.1]
  exact bind_of_ok hread

/-- Does an import of the archive of some blocks take in all of them, and only if it is read back
and they all belong to their identifiers? -/
structure TakesAll (s : Memory) (bs : List Block) (a : Archive) : Prop where
  admits : ∀ root s', perform (store.importArchive a) s = (.ok root, s') → s.Admits bs root s'
  ok_iff : (∃ root, (perform (store.importArchive a) s).1 = .ok root) ↔
    (∃ a', Archive.ofBytes a.toBytes = .ok a') ∧ ∀ b ∈ bs, b.cid.verify b.data = .ok ()
  error_iff : (∃ a', Archive.ofBytes a.toBytes = .ok a') → ∀ e,
    (perform (store.importArchive a) s).1 = .error e ↔
      ∃ before b after, bs = before ++ b :: after ∧
        (∀ x ∈ before, x.cid.verify x.data = .ok ()) ∧ b.cid.verify b.data = .error e

theorem takesAll (hbs : Archive.ofBlocks bs = .ok a) (ha : a.Addressable) (s : Memory) :
    s.TakesAll bs a where
  admits _ _ := admits_of_importArchive hbs ha
  ok_iff := by
    rw [result_importArchive]
    constructor
    · rintro ⟨root, h⟩
      obtain ⟨a', haccept, -⟩ := map_eq_ok.mp h
      have hread := (accept_eq_ok.mp haccept).1
      -- what is read back is the archive itself, so the blocks that are checked are those given
      rw [accept_of_read hbs ha hread] at haccept
      obtain ⟨_, hverify, -⟩ := bind_eq_ok.mp haccept
      exact ⟨⟨a', hread⟩, forM_eq_ok.mp hverify⟩
    · rintro ⟨⟨a', hread⟩, hverify⟩
      refine ⟨a.root, map_eq_ok.mpr ⟨a, ?_, rfl⟩⟩
      exact (accept_of_read hbs ha hread).trans (bind_of_ok (forM_eq_ok.mpr hverify))
  error_iff := by
    rintro ⟨a', hread⟩ e
    rw [result_importArchive, map_eq_error, accept_of_read hbs ha hread, bind_eq_error,
      ← forM_eq_error]
    exact or_iff_left fun ⟨_, _, h⟩ => nomatch h

end Memory

/-- Imports and uploads into memory are all or nothing, whatever the store holds: one that fails
leaves the store alone, and one that goes well takes in all blocks.  An import goes well exactly
when the archive is read back from its bytes and all its blocks belong to their identifiers; if it
is read back, the import fails with the first block that does not. -/
theorem Client.all_or_nothing (s : Memory) :
    (∀ bs, bs ≠ [] → ∃ a, Archive.ofBlocks bs = .ok a ∧
      (∀ e s', perform (Memory.store.importArchive a) s = (.error e, s') → s' = s) ∧
      (a.Addressable → s.TakesAll bs a)) ∧
    ∀ registry m,
      (∀ e s', perform (upload ⟨Memory.store, registry⟩ m) s = (.error e, s') → s' = s) ∧
      (m.Addressable registry → ∀ root s',
        perform (upload ⟨Memory.store, registry⟩ m) s = (.ok root, s') →
          ∃ bs, m.assemble registry = .ok bs ∧ s.Admits bs root s') := by
  refine ⟨fun bs hbs => ?_, fun registry m => ?_⟩
  · cases bs with
    | nil => exact absurd rfl hbs
    | cons b bs =>
      exact ⟨_, rfl, fun _ _ => Memory.eq_of_importArchive_error,
        fun ha => Memory.takesAll rfl ha s⟩
  · rw [perform_upload]
    cases harchive : m.archive registry with
    | error e =>
      refine ⟨fun e s' h => ?_, fun _ root s' h => ?_⟩
      · cases h
        rfl
      · cases h
    | ok a =>
      obtain ⟨-, bs, hassemble, hbs⟩ := Metadata.archive_eq_ok.mp harchive
      refine ⟨fun _ _ => Memory.eq_of_importArchive_error, fun hm root s' h => ?_⟩
      exact ⟨bs, hassemble, Memory.admits_of_importArchive hbs (hm a harchive) h⟩

/-- The sample is uploaded into an empty store.  An import of its blocks and one more, whose hash
function is not known, fails then and leaves the store alone. -/
theorem Client.all_or_nothing_sample : ∃ (bs : List Block) (b : Block) (a : Archive) (root : Cid)
    (s : Memory),
    perform (upload ⟨Memory.store, .full⟩ (.sample .one)) {} = (.ok root, s) ∧
    Memory.Admits {} bs root s ∧ Archive.ofBlocks (bs ++ [b]) = .ok a ∧
    perform (Memory.store.importArchive a) s =
      (.error (.unsupportedCodec b.cid b.cid.hash.code), s) := by
  obtain ⟨top, parts, hpublished, hfits, -⟩ := Metadata.sample_fits
  have hassembled := hpublished.assembled
  have hupload := upload_of_fits hpublished hfits {}
  obtain ⟨bs, hassemble, hadmits⟩ :=
    ((all_or_nothing {}).2 .full (.sample .one)).2 (hassembled.addressable hfits) _ _ hupload
  rw [Metadata.assemble_eq_ok.mpr ⟨top, parts, rfl, hassembled⟩] at hassemble
  cases hassemble
  let s : Memory := Memory.insertAll {} (top :: parts.toList)
  let b : Block := ⟨.v1 Cid.dagCbor ⟨0, [], by decide⟩, []⟩
  have hb : b.cid.verify b.data = .error (.unsupportedCodec b.cid b.cid.hash.code) := rfl
  obtain ⟨a, ha, hunchanged, htakes⟩ :=
    (all_or_nothing s).1 (top :: parts.toList ++ [b]) (by simp)
  obtain ⟨hblocks, hall, hheader⟩ := Archive.of_ofBlocks ha
  have hfits' : ∀ x ∈ a.blocks, Archive.Fits x := by
    rw [hall]
    intro x hx
    rcases List.mem_append.mp hx with hx | hx
    · exact hfits x hx
    · rw [List.mem_singleton.mp hx, Archive.Fits, List.append_nil]
      exact b.cid.length_toBytes_le.trans (by decide)
  have hread := Archive.ofBytes_toBytes hblocks hheader hfits'
  have hlength : a.blocks.length = 6 := by rw [hall]; rfl
  have haddressable := Archive.addressable_of_fits hheader hfits' (by omega)
  -- the five blocks before the last one belong to their identifiers
  have herror := ((htakes haddressable).error_iff ⟨a, hread⟩ _).mpr
    ⟨top :: parts.toList, b, [], rfl, hassembled.verify, hb⟩
  exact ⟨_, b, a, _, s, hupload, hadmits, ha,
    Prod.ext herror (hunchanged _ _ (Prod.ext herror rfl))⟩

end MarketDag
