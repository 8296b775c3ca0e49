import MarketDag.Proofs.Client.Steps

/-!
# The round trip

What was uploaded is downloaded again, whatever was done with the store in the meantime: blocks
that are there are never replaced by other ones, since only blocks with the digests of their
identifiers are imported (`Operation.holds_run`).
-/

namespace MarketDag

/-! ## Clients -/

namespace Client

variable {datas : List (List UInt8)} {bs : List Block}

theorem preserves_download (registry : Registry) (cid : Cid) :
    Preserves (Memory.Holds bs) (download ⟨Memory.store, registry⟩ cid) := by
  have hget : ∀ cid, Meets (Memory.Holds bs) (fun data => Fails (fun _ => True) (cid.verify data))
      (fun _ => True) (Memory.store.getBlock cid) :=
    fun cid => ⟨Memory.preserves_getBlock bs cid, fun _ _ _ _ => trivial, fun _ _ _ => trivial⟩
  exact (meets_download hget (fun _ _ => trivial) cid).preserves

theorem preserves_upload (hfree : CollisionFree datas)
    (hbs : ∀ b ∈ bs, b.data ∈ datas ∧ b.cid.verify b.data = .ok ()) {registry : Registry}
    {m : Metadata} (hm : m.handled registry ⊆ datas) :
    Preserves (Memory.Holds bs) (upload ⟨Memory.store, registry⟩ m) := by
  intro s hs
  rw [perform_upload]
  cases h : m.archive registry with
  | error e => exact hs
  | ok a =>
    obtain ⟨-, blocks, hblocks, ha⟩ := Metadata.archive_eq_ok.mp h
    have hhandled : m.handled registry = a.handled := by
      rw [Metadata.handled, bind_eq_ok.mpr ⟨blocks, hblocks, ha⟩]
    exact Memory.preserves_importArchive hfree hbs (hhandled ▸ hm) s hs

end Client

/-! ## Operations -/

/-- What can be done with a store in memory, by any client or by itself. -/
inductive Operation where
  | upload (registry : Registry) (m : Metadata)
  | importArchive (a : Archive)
  | getBlock (cid : Cid)
  | download (registry : Registry) (cid : Cid)

namespace Operation

/-- The store after an operation, whether or not it went well. -/
def next (s : Memory) : Operation → Memory
  | .upload registry m => (perform (Client.upload ⟨Memory.store, registry⟩ m) s).2
  | .importArchive a => (perform (Memory.store.importArchive a) s).2
  | .getBlock cid => (perform (Memory.store.getBlock cid) s).2
  | .download registry cid => (perform (Client.download ⟨Memory.store, registry⟩ cid) s).2

/-- The store after operations, one after the other. -/
def run (s : Memory) (ops : List Operation) : Memory := ops.foldl next s

/-- The data of the blocks that an operation puts into the store, or tries to. -/
def handled : Operation → List (List UInt8)
  | .upload registry m => m.handled registry
  | .importArchive a => a.handled
  | .getBlock _ => []
  | .download _ _ => []

variable {datas : List (List UInt8)} {bs : List Block}

theorem holds_next (hfree : CollisionFree datas)
    (hbs : ∀ b ∈ bs, b.data ∈ datas ∧ b.cid.verify b.data = .ok ()) {op : Operation}
    (hop : op.handled ⊆ datas) {s : Memory} (h : s.Holds bs) : (op.next s).Holds bs := by
  cases op with
  | upload registry m => exact Client.preserves_upload hfree hbs hop s h
  | importArchive a => exact Memory.preserves_importArchive hfree hbs hop s h
  | getBlock cid => exact Memory.preserves_getBlock bs cid s h
  | download registry cid => exact Client.preserves_download registry cid s h

/-- Blocks that belong to their identifiers stay in a store, whatever is done with it. -/
theorem holds_run (hfree : CollisionFree datas)
    (hbs : ∀ b ∈ bs, b.data ∈ datas ∧ b.cid.verify b.data = .ok ()) {ops : List Operation}
    (hops : ∀ op ∈ ops, op.handled ⊆ datas) {s : Memory} (h : s.Holds bs) :
    (run s ops).Holds bs := by
  induction ops generalizing s with
  | nil => exact h
  | cons op ops ih =>
    obtain ⟨hop, hops⟩ := List.forall_mem_cons.mp hops
    exact ih hops (holds_next hfree hbs hop h)

end Operation

/-! ## The round trip -/

/-- What was uploaded into memory is downloaded from it, with the same kinds of documents, after any
operations on the store, as long as no two byte strings among the blocks have one digest. -/
theorem Client.download_upload {registry : Registry} {m : Metadata} {s s₁ : Memory} {cid : Cid}
    (hupload : perform (upload ⟨Memory.store, registry⟩ m) s = (.ok cid, s₁))
    (ops : List Operation)
    (hfree : CollisionFree (m.handled registry ++ ops.flatMap Operation.handled)) :
    ∃ m' s₂, perform (download ⟨Memory.store, registry⟩ cid) (Operation.run s₁ ops) =
      (.ok m', s₂) ∧ m'.Same m ∧ ∀ f, (m'.get f).1.kind = (m.get f).1.kind := by
  have hsub : m.handled registry ⊆ m.handled registry ++ ops.flatMap Operation.handled :=
    List.subset_append_left _ _
  obtain ⟨top, parts, huploaded, hholds⟩ := uploaded (hfree.mono hsub) hupload
  have hblocks : ∀ b ∈ top :: parts.toList,
      b.data ∈ m.handled registry ++ ops.flatMap Operation.handled ∧
        b.cid.verify b.data = .ok () := by
    intro b hb
    exact ⟨hsub (huploaded.assembled.data_mem_handled b hb), huploaded.assembled.verify b hb⟩
  -- each operation handles bytes of its own list, among which nothing collides
  have hops : ∀ op ∈ ops, op.handled ⊆ m.handled registry ++ ops.flatMap Operation.handled := by
    intro op hop data hdata
    exact List.mem_append_right _ (List.mem_flatMap.mpr ⟨op, hop, hdata⟩)
  obtain ⟨s₂, hdownload⟩ :=
    download_of_holds huploaded (Operation.holds_run hfree hblocks hops hholds)
  exact ⟨m.normal, s₂, hdownload, m.normal_same, m.kind_normal⟩

/-- The sample is downloaded after it was uploaded twice and asked for, from a store that somebody
had put wrong bytes into. -/
theorem Client.download_upload_sample : ∃ (cid : Cid) (s₁ s₂ : Memory) (m' : Metadata),
    perform (upload ⟨Memory.store, .full⟩ (Metadata.sample .one))
      (Memory.insert {} (.ofData Cid.dagCbor []) [0]) = (.ok cid, s₁) ∧
    perform (download ⟨Memory.store, .full⟩ cid) (Operation.run s₁ [.upload .full
      (Metadata.sample .one), .getBlock cid, .download .full cid]) = (.ok m', s₂) ∧
    m'.Same (Metadata.sample .one) := by
  obtain ⟨cid, s₁, hupload, hfree⟩ :=
    upload_sample (Memory.insert {} (.ofData Cid.dagCbor []) [0])
  have hsub : (Metadata.sample .one).handled .full ++
      [Operation.upload .full (Metadata.sample .one), .getBlock cid, .download .full cid].flatMap
        Operation.handled ⊆ (Metadata.sample .one).handled .full := by
    simp [Operation.handled]
  obtain ⟨m', s₂, hdownload, hsame, -⟩ := download_upload hupload _ (hfree.mono hsub)
  exact ⟨cid, s₁, s₂, m', hupload, hdownload, hsame⟩

end MarketDag
