import MarketDag.Proofs.Archive.RoundTrip
import MarketDag.Proofs.Store.Run
import MarketDag.Store.Memory

/-!
# The store in memory

A store in memory gives what it holds (`gives_iff`), and an archive is imported as it is read back
from its bytes if all its blocks have their digests (`perform_importArchive`).  Such blocks are
never replaced by other ones (`Holds.insertAll`).
-/

namespace MarketDag.Memory

/-! ## Reading -/

theorem perform_getBlock (cid : Cid) (s : Memory) :
    perform (store.getBlock cid) s =
      (match s.find? cid with
        | some data => .ok data
        | none => .error (missing cid), s.countFetch cid) := by
  have h : perform (store.getBlock cid) s =
      perform (match (s.countFetch cid).find? cid with
        | some data => pure data
        | none => throw (missing cid)) (s.countFetch cid) := rfl
  rw [h, find?_countFetch]
  cases s.find? cid <;> rfl

theorem perform_getBlock_eq_ok {cid : Cid} {s s' : Memory} {data : List UInt8} :
    perform (store.getBlock cid) s = (.ok data, s') ↔
      s.find? cid = some data ∧ s' = s.countFetch cid := by
  rw [perform_getBlock]
  cases s.find? cid <;> simp [eq_comm]

theorem eq_missing_of_getBlock {cid : Cid} {s : Memory} {e : Error}
    (h : (perform (store.getBlock cid) s).1 = .error e) : e = missing cid := by
  rw [perform_getBlock] at h
  cases hfind : s.find? cid with
  | none =>
    rw [hfind] at h
    cases h
    rfl
  | some data =>
    rw [hfind] at h
    cases h

/-- A store gives what it holds, and nothing else. -/
theorem gives_iff {s : Memory} {calls : List (Cid × List UInt8)} :
    (∃ s', store.Gives s calls s') ↔ ∀ call ∈ calls, s.find? call.1 = some call.2 := by
  induction calls generalizing s with
  | nil => exact ⟨fun _ _ h => (List.not_mem_nil h).elim, fun _ => ⟨s, .nil s⟩⟩
  | cons call calls ih =>
    have hrest := ih (s := s.countFetch call.1)
    constructor
    · rintro ⟨s', hgives⟩
      obtain ⟨s₁, hhead, htail⟩ := BlockStore.gives_cons.mp hgives
      obtain ⟨hfind, rfl⟩ := perform_getBlock_eq_ok.mp hhead
      exact List.forall_mem_cons.mpr ⟨hfind, hrest.mp ⟨s', htail⟩⟩
    · intro h
      obtain ⟨hfind, hcalls⟩ := List.forall_mem_cons.mp h
      obtain ⟨s', htail⟩ := hrest.mpr hcalls
      exact ⟨s', .cons (perform_getBlock_eq_ok.mpr ⟨hfind, rfl⟩) htail⟩

/-! ## Importing -/

theorem accept_eq_ok {a a' : Archive} :
    accept a = .ok a' ↔
      Archive.ofBytes a.toBytes = .ok a' ∧ ∀ b ∈ a'.blocks, b.cid.verify b.data = .ok () := by
  unfold accept
  constructor
  · intro h
    obtain ⟨a'', hread, h⟩ := bind_eq_ok.mp h
    obtain ⟨_, hverify, h⟩ := bind_eq_ok.mp h
    cases h
    exact ⟨hread, forM_eq_ok.mp hverify⟩
  · rintro ⟨hread, hverify⟩
    exact bind_eq_ok.mpr ⟨a', hread, bind_eq_ok.mpr ⟨(), forM_eq_ok.mpr hverify, rfl⟩⟩

theorem perform_importArchive (a : Archive) (s : Memory) :
    perform (store.importArchive a) s =
      match accept a with
      | .ok a' => (.ok a'.root, s.insertAll a'.blocks)
      | .error e => (.error e, s) := by
  change perform (liftM (accept a) >>= _) s = _
  rw [perform_bind, perform_lift]
  cases accept a <;> rfl

theorem result_importArchive (a : Archive) (s : Memory) :
    (perform (store.importArchive a) s).1 = Archive.root <$> accept a := by
  rw [perform_importArchive]
  cases accept a <;> rfl

/-- Under an identifier one finds the data of the last block with it, or what was there before. -/
theorem find?_insertAll (s : Memory) (bs : List Block) (cid : Cid) :
    (s.insertAll bs).find? cid =
      ((bs.reverse.find? fun b => b.cid = cid).map Block.data).or (s.find? cid) := by
  induction bs generalizing s with
  | nil => simp [insertAll]
  | cons b bs ih =>
    change (insertAll (s.insert b.cid b.data) bs).find? cid = _
    rw [ih, find?_insert, List.reverse_cons, List.find?_append]
    by_cases hcid : b.cid = cid
    · cases bs.reverse.find? fun b => b.cid = cid <;> simp [hcid]
    · simp [hcid, Ne.symm hcid]

theorem find?_insertAll_of_forall_ne {s : Memory} {bs : List Block} {cid : Cid}
    (h : ∀ b ∈ bs, b.cid ≠ cid) : (s.insertAll bs).find? cid = s.find? cid := by
  have hnone : bs.reverse.find? (fun b => b.cid = cid) = none := by
    simpa using h
  rw [find?_insertAll, hnone]
  rfl

theorem find?_insertAll_append {s : Memory} {before after : List Block} {b : Block}
    (h : ∀ x ∈ after, x.cid ≠ b.cid) :
    (s.insertAll (before ++ b :: after)).find? b.cid = some b.data := by
  have hinsert : s.insertAll (before ++ b :: after) =
      ((s.insertAll before).insert b.cid b.data).insertAll after := by
    rw [insertAll, List.foldl_append]
    rfl
  rw [hinsert, find?_insertAll_of_forall_ne h, find?_insert, if_pos rfl]

/-- Among blocks of which those with one identifier have the same data, one finds these data under
it. -/
theorem find?_insertAll_of_data {s : Memory} {bs : List Block} {cid : Cid} {data : List UInt8}
    (hbs : ∀ b ∈ bs, b.cid = cid → b.data = data)
    (h : s.find? cid = some data ∨ ∃ b ∈ bs, b.cid = cid) :
    (s.insertAll bs).find? cid = some data := by
  rw [find?_insertAll]
  cases hfind : bs.reverse.find? fun b => b.cid = cid with
  | some b =>
    have hmem := List.mem_reverse.mp (List.mem_of_find?_eq_some hfind)
    have hcid := List.find?_some hfind
    rw [Option.map_some, hbs b hmem (of_decide_eq_true hcid)]
    rfl
  | none =>
    rw [List.find?_eq_none] at hfind
    simpa using h.resolve_right (by simpa using hfind)

@[simp] theorem fetchCount_insertAll (s : Memory) (bs : List Block) (cid : Cid) :
    (s.insertAll bs).fetchCount cid = s.fetchCount cid := by
  induction bs generalizing s with
  | nil => rfl
  | cons b bs ih => exact ih (s.insert b.cid b.data)

/-! ## Blocks that are there -/

/-- Does a store hold all of some blocks? -/
def Holds (bs : List Block) (s : Memory) : Prop := ∀ b ∈ bs, s.find? b.cid = some b.data

/-- Blocks that belong to their identifiers are there once they are put in, and stay when others
that do so come in. -/
theorem Holds.insertAll {datas : List (List UInt8)} (hfree : CollisionFree datas)
    {bs new : List Block} (hbs : ∀ b ∈ bs, b.data ∈ datas ∧ b.cid.verify b.data = .ok ())
    (hnew : ∀ b ∈ new, b.data ∈ datas ∧ b.cid.verify b.data = .ok ()) {s : Memory}
    (h : Holds bs s ∨ bs ⊆ new) : Holds bs (s.insertAll new) := by
  intro b hb
  obtain ⟨hmem, hverify⟩ := hbs b hb
  refine find?_insertAll_of_data (fun b' hb' hcid => ?_) ?_
  · obtain ⟨hmem', hverify'⟩ := hnew b' hb'
    exact hfree.eq_of_verify hmem' hmem hverify' (hcid ▸ hverify)
  · exact h.imp (fun h => h b hb) fun hsub => ⟨b, hsub hb, rfl⟩

theorem preserves_getBlock (bs : List Block) (cid : Cid) :
    Preserves (Holds bs) (store.getBlock cid) := by
  intro s hs
  rw [perform_getBlock]
  exact fun b hb => hs b hb

theorem preserves_importArchive {datas : List (List UInt8)} (hfree : CollisionFree datas)
    {bs : List Block} (hbs : ∀ b ∈ bs, b.data ∈ datas ∧ b.cid.verify b.data = .ok ())
    {a : Archive} (ha : a.handled ⊆ datas) : Preserves (Holds bs) (store.importArchive a) := by
  intro s hs
  rw [perform_importArchive]
  split
  · rename_i haccept
    obtain ⟨hread, hverify⟩ := accept_eq_ok.mp haccept
    exact .insertAll hfree hbs (fun b hb =>
      ⟨ha (Archive.data_mem_handled_of_ofBytes hread hb), hverify b hb⟩) (.inl hs)
  · exact hs

end MarketDag.Memory
