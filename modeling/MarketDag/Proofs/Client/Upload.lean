import MarketDag.Proofs.Client.Download
import MarketDag.Proofs.Store.Memory

/-!
# Uploads

The blocks of an upload are evidence for the metadata with its decimals in canonical form
(`Metadata.Assembled.evidence`).  An upload into a store in memory that goes well puts all of them
there (`Client.Uploaded`).
-/

namespace MarketDag

/-- The archive of the blocks of metadata, whose root is that of the metadata. -/
def Metadata.archiveOf (top : Block) (parts : Slots fun _ => Block) : Archive :=
  ⟨top.cid, [], top :: parts.toList⟩

namespace Client

variable {σ : Type}

/-! ## Uploading -/

theorem upload_eq_ok {client : Client (StateM σ)} {m : Metadata} {s s' : σ} {cid : Cid} :
    perform (client.upload m) s = (.ok cid, s') ↔
      m.validate = .ok () ∧ ∃ top parts, m.Assembled client.registry top parts ∧ top.cid = cid ∧
        perform (client.store.importArchive (Metadata.archiveOf top parts)) s = (.ok cid, s') := by
  unfold upload
  constructor
  · intro h
    obtain ⟨_, hvalid, h⟩ := perform_lift_bind_eq_ok.mp h
    obtain ⟨bs, hassemble, h⟩ := perform_lift_bind_eq_ok.mp h
    obtain ⟨archive, harchive, h⟩ := perform_lift_bind_eq_ok.mp h
    obtain ⟨told, s₁, himport, h⟩ := perform_bind_eq_ok.mp h
    obtain ⟨top, parts, rfl, hassembled⟩ := Metadata.assemble_eq_ok.mp hassemble
    cases harchive
    split at h
    · rename_i htold
      obtain ⟨rfl, rfl⟩ := perform_pure_eq_ok.mp h
      exact ⟨hvalid, top, parts, hassembled, htold.symm, himport⟩
    · cases h
  · rintro ⟨hvalid, top, parts, hassembled, rfl, himport⟩
    have hassemble := Metadata.assemble_eq_ok.mpr ⟨top, parts, rfl, hassembled⟩
    refine perform_lift_bind_eq_ok.mpr ⟨(), hvalid, ?_⟩
    refine perform_lift_bind_eq_ok.mpr ⟨_, hassemble, ?_⟩
    refine perform_lift_bind_eq_ok.mpr ⟨_, rfl, ?_⟩
    refine perform_bind_eq_ok.mpr ⟨top.cid, s', himport, ?_⟩
    rw [if_pos rfl]
    rfl

end Client

/-! ## The bytes that are handled -/

/-- The data of the blocks of metadata, as they are assembled and as they are read back. -/
def Metadata.handled (registry : Registry) (m : Metadata) : List (List UInt8) :=
  match m.assemble registry >>= Archive.ofBlocks with
  | .ok a => a.handled
  | .error _ => []

namespace Metadata.Assembled

variable {registry : Registry} {m : Metadata} {top : Block} {parts : Slots fun _ => Block}

theorem handled_eq (h : m.Assembled registry top parts) :
    m.handled registry = (archiveOf top parts).handled := by
  rw [handled, assemble_eq_ok.mpr ⟨top, parts, rfl, h⟩]
  rfl

theorem data_mem_handled (h : m.Assembled registry top parts) :
    ∀ b ∈ top :: parts.toList, b.data ∈ m.handled registry := by
  intro b hb
  rw [h.handled_eq]
  exact Archive.data_mem_handled hb

/-- The archive of metadata is accepted as it is: if it were not read back as it is, two byte
strings would have one digest. -/
theorem eq_of_accept (h : m.Assembled registry top parts)
    (hfree : CollisionFree (m.handled registry)) {a : Archive}
    (haccept : Memory.accept (archiveOf top parts) = .ok a) :
    a = archiveOf top parts ∧ ∀ b ∈ top :: parts.toList, Archive.Fits b := by
  obtain ⟨hread, hverify⟩ := Memory.accept_eq_ok.mp haccept
  rw [h.handled_eq] at hfree
  exact Archive.eq_of_ofBytes hfree (Archive.length_writeHeader_le top.cid)
    (fun b hb => ⟨Archive.data_mem_handled hb, h.verify b hb⟩)
    (fun b hb => ⟨Archive.data_mem_handled_of_ofBytes hread hb, hverify b hb⟩) hread

/-- The archive of short blocks is accepted. -/
theorem accept_of_fits (h : m.Assembled registry top parts)
    (hfits : ∀ b ∈ top :: parts.toList, Archive.Fits b) :
    Memory.accept (archiveOf top parts) = .ok (archiveOf top parts) :=
  Memory.accept_eq_ok.mpr ⟨Archive.ofBytes_toBytes (List.cons_ne_nil _ _)
    (Archive.length_writeHeader_le top.cid) hfits, h.verify⟩

theorem handled_subset_of_fits (h : m.Assembled registry top parts)
    (hfits : ∀ b ∈ top :: parts.toList, Archive.Fits b) :
    m.handled registry ⊆ (top :: parts.toList).map Block.data := by
  rw [h.handled_eq, Archive.handled, (Memory.accept_eq_ok.mp (h.accept_of_fits hfits)).1]
  exact List.append_subset.mpr ⟨List.Subset.refl _, List.Subset.refl _⟩

end Metadata.Assembled

/-! ## Uploads into memory -/

/-- An upload into memory that goes well puts all blocks there. -/
theorem Client.uploaded {registry : Registry} {m : Metadata} {s s' : Memory} {cid : Cid}
    (hfree : CollisionFree (m.handled registry))
    (h : perform (upload ⟨Memory.store, registry⟩ m) s = (.ok cid, s')) :
    ∃ top parts, m.Published registry cid top parts ∧ s'.Holds (top :: parts.toList) := by
  obtain ⟨hvalid, top, parts, hassembled, hcid, himport⟩ := upload_eq_ok.mp h
  rw [Memory.perform_importArchive] at himport
  split at himport
  · rename_i haccept
    obtain ⟨rfl, hfits⟩ := hassembled.eq_of_accept hfree haccept
    cases himport
    exact ⟨top, parts, ⟨hvalid, hassembled, hcid, fun b hb => (hfits b hb).addressable⟩,
      holds_insertAll hassembled hfree hassembled.data_mem_handled s⟩
  · cases himport

/-- Valid metadata with short blocks are uploaded, whatever is in the store. -/
theorem Client.upload_of_fits {registry : Registry} {m : Metadata} {cid : Cid} {top : Block}
    {parts : Slots fun _ => Block} (h : m.Published registry cid top parts)
    (hfits : ∀ b ∈ top :: parts.toList, Archive.Fits b) (s : Memory) :
    perform (upload ⟨Memory.store, registry⟩ m) s =
      (.ok cid, s.insertAll (top :: parts.toList)) := by
  obtain ⟨hvalid, hassembled, rfl, -⟩ := h
  refine upload_eq_ok.mpr ⟨hvalid, top, parts, hassembled, rfl, ?_⟩
  rw [Memory.perform_importArchive, hassembled.accept_of_fits hfits]
  rfl

/-- The blocks of the sample fit into frames, and are without collisions. -/
theorem Metadata.sample_fits : ∃ top parts,
    (sample .one).Published .full top.cid top parts ∧
      (∀ b ∈ top :: parts.toList, Archive.Fits b) ∧
      CollisionFree ((top :: parts.toList).map Block.data) := by
  obtain ⟨top, parts, hpublished, hshort, hfree⟩ := sample_published
  refine ⟨top, parts, hpublished, fun b hb => ?_, hfree⟩
  have hlength := hshort b hb
  rw [Archive.Fits, List.length_append, hpublished.assembled.cid_eq b hb,
    Cid.length_toBytes_ofData, Archive.maxFrame]
  omega

/-- The sample is uploaded, whatever is in the store, and without collisions. -/
theorem Client.upload_sample (s : Memory) : ∃ cid s',
    perform (upload ⟨Memory.store, .full⟩ (Metadata.sample .one)) s = (.ok cid, s') ∧
      CollisionFree ((Metadata.sample .one).handled .full) := by
  obtain ⟨top, parts, hpublished, hfits, hfree⟩ := Metadata.sample_fits
  exact ⟨_, _, upload_of_fits hpublished hfits s,
    hfree.mono (hpublished.assembled.handled_subset_of_fits hfits)⟩

end MarketDag
