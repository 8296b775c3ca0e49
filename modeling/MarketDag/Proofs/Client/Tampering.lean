import MarketDag.Proofs.Client.Upload

/-!
# Tampering

An identifier decides what can be downloaded under it, whatever is in the store: the metadata that
are downloaded from two stores are equal, and those that are downloaded after an upload are the
uploaded ones, even if somebody has changed the blocks (`Client.same_of_uploaded`).
-/

namespace MarketDag

/-- A change of a store behind the back of its clients. -/
inductive Memory.Edit where
  | insert (cid : Cid) (data : List UInt8)
  | remove (cid : Cid)

/-- The store after a change. -/
def Memory.edit (s : Memory) : Edit → Memory
  | .insert cid data => s.insert cid data
  | .remove cid => s.erase cid

namespace Client

/-- What is downloaded under the identifier of an upload is what was uploaded, from any store. -/
theorem same_of_uploaded {σ : Type} {client : Client (StateM σ)} {registry : Registry}
    {m m' : Metadata} {cid : Cid} {top : Block} {parts : Slots fun _ => Block} {s s' : σ}
    (hfree : CollisionFree (m.handled registry ++ client.served cid s))
    (hupload : m.Published registry cid top parts)
    (h : perform (client.download cid) s = (.ok m', s')) : m'.Same m := by
  obtain ⟨data, root, bytes, h, hdata, hbytes⟩ := evidence_of_download h
  have hmem := hupload.assembled.data_mem_handled
  have hpart : ∀ f, (parts.map (β := fun _ => List UInt8) fun _ b => b.data).get f ∈
      m.handled registry := by
    intro f
    rw [Slots.get_map]
    exact hmem _ (Metadata.Assembled.part_mem top parts f)
  have heq : m' = m.normal := h.eq hfree hupload.evidence
    ⟨List.mem_append_right _ hdata, fun f => List.mem_append_right _ (hbytes f)⟩
    ⟨List.mem_append_left _ (hmem _ List.mem_cons_self),
      fun f => List.mem_append_left _ (hpart f)⟩
  rw [heq]
  exact m.normal_same

/-- An identifier determines what is downloaded under it, as long as no two byte strings among those
that are served have one digest: the metadata from two stores are equal, and after an upload no
changes of the store lead to other metadata than the uploaded ones. -/
theorem download_determined (cid : Cid) :
    (∀ {σ τ : Type} (client : Client (StateM σ)) (client' : Client (StateM τ)) (s s₁ : σ)
      (t t₁ : τ) (m m' : Metadata), perform (client.download cid) s = (.ok m, s₁) →
        perform (client'.download cid) t = (.ok m', t₁) →
        CollisionFree (client.served cid s ++ client'.served cid t) → m = m') ∧
    ∀ (registry : Registry) (m m' : Metadata) (s s₁ s₂ : Memory) (edits : List Memory.Edit),
      perform (upload ⟨Memory.store, registry⟩ m) s = (.ok cid, s₁) →
      perform (download ⟨Memory.store, registry⟩ cid) (edits.foldl Memory.edit s₁) =
        (.ok m', s₂) →
      CollisionFree (m.handled registry ++
        served ⟨Memory.store, registry⟩ cid (edits.foldl Memory.edit s₁)) → m'.Same m := by
  refine ⟨fun _ _ _ _ _ _ _ _ h h' hfree => download_eq hfree h h', ?_⟩
  intro registry m m' s s₁ s₂ edits hupload hdownload hfree
  obtain ⟨top, parts, huploaded, -⟩ :=
    uploaded (hfree.mono (List.subset_append_left _ _)) hupload
  exact same_of_uploaded hfree huploaded hdownload

/-- The sample is downloaded after its upload, and again after a foreign block came and went. -/
theorem download_determined_sample : ∃ (cid x : Cid) (s₁ s₂ s₃ : Memory) (m m' : Metadata),
    perform (upload ⟨Memory.store, .full⟩ (Metadata.sample .one)) {} = (.ok cid, s₁) ∧
    perform (download ⟨Memory.store, .full⟩ cid) s₁ = (.ok m, s₂) ∧
    perform (download ⟨Memory.store, .full⟩ cid)
      ([.insert x [0], .remove x].foldl Memory.edit s₁) = (.ok m', s₃) ∧
    m = m' ∧ m'.Same (Metadata.sample .one) := by
  obtain ⟨cid, s₁, hupload, hfree⟩ := upload_sample {}
  obtain ⟨top, parts, hpublished, hholds⟩ := uploaded hfree hupload
  let x : Cid := .v0 ⟨List.replicate 32 0, rfl⟩
  have hholds' : ([.insert x [0], .remove x].foldl Memory.edit s₁).Holds (top :: parts.toList) := by
    intro b hb
    have hne : b.cid ≠ x := by
      rw [hpublished.assembled.cid_eq b hb]
      exact Cid.noConfusion
    simpa [Memory.edit, hne] using hholds b hb
  obtain ⟨s₂, hdownload⟩ := download_of_holds hpublished hholds
  obtain ⟨s₃, hdownload'⟩ := download_of_holds hpublished hholds'
  have hserved : (top :: parts.toList).map Block.data ⊆ (Metadata.sample .one).handled .full := by
    intro data hdata
    obtain ⟨b, hb, rfl⟩ := List.mem_map.mp hdata
    exact hpublished.assembled.data_mem_handled b hb
  obtain ⟨hunique, hupload_unique⟩ := download_determined cid
  refine ⟨cid, x, s₁, s₂, s₃, _, _, hupload, hdownload, hdownload', ?_, ?_⟩
  · refine hunique _ _ _ _ _ _ _ _ hdownload hdownload' ?_
    rw [served_of_holds hpublished hholds, served_of_holds hpublished hholds']
    exact hfree.mono (List.append_subset.mpr ⟨hserved, hserved⟩)
  · refine hupload_unique _ _ _ _ _ _ _ hupload hdownload' ?_
    rw [served_of_holds hpublished hholds']
    exact hfree.mono (List.append_subset.mpr ⟨List.Subset.refl _, hserved⟩)

end Client

end MarketDag
