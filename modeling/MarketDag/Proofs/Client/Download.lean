import MarketDag.Client
import MarketDag.Proofs.Dag.Metadata
import MarketDag.Proofs.Store.Memory

/-!
# Downloads

A download goes well exactly when the store gives the bytes of a root and of the four documents it
links to, and these bytes are evidence for the metadata (`Client.download_eq_ok`): they have the
digests of the identifiers that led to them, and hold documents of the kinds that the root says.
Without collisions an identifier leaves no choice of the metadata (`Evidence.eq`).
-/

namespace MarketDag

/-! ## Links -/

theorem ComponentLink.resolve_eq_ok {registry : Registry} {f : Family} {l : ComponentLink}
    {r : ResolvedLink f} :
    l.resolve registry f = .ok r ↔
      registry.resolve l.schema = .ok r.kind ∧ l.data.ensureSupported = .ok () ∧
        l.data = r.data := by
  unfold resolve
  constructor
  · intro h
    obtain ⟨kind, hkind, h⟩ := bind_eq_ok.mp h
    split at h
    · obtain ⟨_, hdata, h⟩ := bind_eq_ok.mp h
      cases h
      exact ⟨hkind, hdata, rfl⟩
    · cases h
  · obtain ⟨data, kind, hfamily⟩ := r
    rintro ⟨hkind, hdata, rfl⟩
    refine bind_eq_ok.mpr ⟨kind, hkind, ?_⟩
    rw [dif_pos hfamily]
    exact bind_eq_ok.mpr ⟨(), hdata, rfl⟩

/-- A document is one of its own family only. -/
theorem Document.into_eq_ok {f : Family} {d : Document} {e : DocumentIn f} :
    d.into f = .ok e ↔ d = e.1 := by
  obtain ⟨e, he⟩ := e
  unfold into
  constructor
  · intro h
    split at h
    · cases h
      rfl
    · cases h
  · rintro rfl
    rw [dif_pos he]

/-- Documents make metadata if each of them is one of its slot's family. -/
theorem Metadata.mapM_into_eq_ok {docs : Slots fun _ => Document} {m : Metadata} :
    (docs.mapM fun slot d => d.into slot) = .ok m ↔ ∀ f, docs.get f = (m.get f).1 :=
  Slots.mapM_eq_ok.trans (forall_congr' fun _ => Document.into_eq_ok)

/-! ## Evidence -/

/-- The identifiers of the documents of a root, each with some bytes. -/
def Root.calls (root : Root) (parts : Slots fun _ => List UInt8) : List (Cid × List UInt8) :=
  (Slots.ofFn fun f => ((root.get f).data, parts.get f)).toList

/-- Are these the bytes of metadata under an identifier: those of the root and of its parts? -/
structure Evidence (registry : Registry) (cid : Cid) (data : List UInt8) (root : Root)
    (parts : Slots fun _ => List UInt8) (m : Metadata) : Prop where
  supported : cid.ensureSupported = .ok ()
  decode : Block.decode Root cid data = .ok root
  verify : cid.verify data = .ok ()
  resolve : ∀ f, registry.resolve (root.get f).schema = .ok (m.get f).1.kind
  part_supported : ∀ f, (root.get f).data.ensureSupported = .ok ()
  part_decode : ∀ f, (m.get f).1.kind.decode (root.get f).data (parts.get f) = .ok (m.get f).1
  part_verify : ∀ f, (root.get f).data.verify (parts.get f) = .ok ()

/-- Without collisions among the bytes there is no other evidence, and none for other metadata. -/
theorem Evidence.eq {registry registry' : Registry} {cid : Cid} {data data' : List UInt8}
    {root root' : Root} {parts parts' : Slots fun _ => List UInt8} {m m' : Metadata}
    {datas : List (List UInt8)} (hfree : CollisionFree datas)
    (h : Evidence registry cid data root parts m)
    (h' : Evidence registry' cid data' root' parts' m')
    (hmem : data ∈ datas ∧ ∀ f, parts.get f ∈ datas)
    (hmem' : data' ∈ datas ∧ ∀ f, parts'.get f ∈ datas) : m = m' := by
  have hdata : data = data' := hfree.eq_of_verify hmem.1 hmem'.1 h.verify h'.verify
  have hroot : root = root' := by
    have hread := h.decode
    rw [hdata, h'.decode] at hread
    exact (Except.ok.inj hread).symm
  subst hroot
  apply Slots.ext_get
  intro f
  -- the kind is told by the schema of the link, and links are part of the root
  have hkind : (m.get f).1.kind = (m'.get f).1.kind := by
    have hschema := (Registry.resolve_eq_ok.mp (h.resolve f)).2
    exact Kind.schema_injective (hschema.trans (Registry.resolve_eq_ok.mp (h'.resolve f)).2.symm)
  have hpart : parts.get f = parts'.get f :=
    hfree.eq_of_verify (hmem.2 f) (hmem'.2 f) (h.part_verify f) (h'.part_verify f)
  have hread := h.part_decode f
  rw [hkind, hpart, h'.part_decode f] at hread
  exact Subtype.ext (Except.ok.inj hread).symm

/-- The blocks of valid metadata are evidence for the metadata themselves. -/
theorem Metadata.Published.evidence {registry : Registry} {m : Metadata} {cid : Cid} {top : Block}
    {parts : Slots fun _ => Block} (h : m.Published registry cid top parts) :
    Evidence registry cid top.data (m.rootOf parts) (parts.map fun _ b => b.data) m.normal := by
  obtain ⟨hvalid, h, rfl, hsize⟩ := h
  have hlink : ∀ f, (m.rootOf parts).get f =
      ⟨(parts.get f).cid, (m.get f).1.kind.schema⟩ := by
    intro f
    rw [rootOf, Slots.get_ofFn]
  have htop := List.mem_cons_self (a := top) (l := parts.toList)
  have hpart := Assembled.part_mem top parts
  refine ⟨?_, ?_, h.verify _ htop, fun f => ?_, fun f => ?_, fun f => ?_, fun f => ?_⟩
  · exact Cid.ensureSupported_eq_ok.mpr (.inl (Block.codec_of_encode h.top_encode))
  · rw [Block.decode_encode h.top_encode (hsize _ htop), Root.normal_eq]
  · rw [hlink, kind_normal]
    exact Registry.resolve_eq_ok.mpr ⟨h.kind_mem f, rfl⟩
  · rw [hlink]
    exact Cid.ensureSupported_eq_ok.mpr (.inl (Block.codec_of_encode (h.part_encode f)))
  · rw [hlink, kind_normal, get_normal, Slots.get_map]
    exact Document.decode_encode (validate_eq_ok.mp hvalid f) (h.part_encode f)
      (hsize _ (hpart f))
  · rw [hlink, Slots.get_map]
    exact h.verify _ (hpart f)

namespace Client

variable {σ : Type}

/-! ## Fetching -/

theorem fetch_eq_ok {client : Client (StateM σ)} {f : Family} {link : ResolvedLink f} {s s' : σ}
    {d : Document} :
    perform (client.fetch link) s = (.ok d, s') ↔
      ∃ data, perform (client.store.getBlock link.data) s = (.ok data, s') ∧
        link.kind.decode link.data data = .ok d ∧ link.data.verify data = .ok () := by
  unfold fetch
  constructor
  · intro h
    obtain ⟨data, s₁, hget, h⟩ := perform_bind_eq_ok.mp h
    obtain ⟨d', hdecode, h⟩ := perform_lift_bind_eq_ok.mp h
    obtain ⟨_, hverify, h⟩ := perform_lift_bind_eq_ok.mp h
    obtain ⟨rfl, rfl⟩ := perform_pure_eq_ok.mp h
    exact ⟨data, hget, hdecode, hverify⟩
  · rintro ⟨data, hget, hdecode, hverify⟩
    refine perform_bind_eq_ok.mpr ⟨data, s', hget, ?_⟩
    refine perform_lift_bind_eq_ok.mpr ⟨d, hdecode, ?_⟩
    exact perform_lift_bind_eq_ok.mpr ⟨(), hverify, rfl⟩

/-- The document that is fetched for a link is of the link's kind. -/
theorem kind_of_fetch {client : Client (StateM σ)} {f : Family} {link : ResolvedLink f}
    {s s' : σ} {d : Document} (h : perform (client.fetch link) s = (.ok d, s')) :
    d.kind = link.kind := by
  obtain ⟨data, -, hdecode, -⟩ := fetch_eq_ok.mp h
  exact Kind.kind_of_decode hdecode

/-- The document that is fetched for a link is one of the link's family. -/
theorem into_of_fetch {client : Client (StateM σ)} {f : Family} {link : ResolvedLink f}
    {s s' : σ} {d : Document} (h : perform (client.fetch link) s = (.ok d, s')) :
    ∃ hfamily, d.into f = .ok ⟨d, hfamily⟩ := by
  have hfamily : d.family = f := by rw [Document.family, kind_of_fetch h, link.family_kind]
  exact ⟨hfamily, Document.into_eq_ok.mpr rfl⟩

/-- The documents are fetched in the order of their slots. -/
theorem mapM_fetch_eq_ok {client : Client (StateM σ)} {links : Slots ResolvedLink} {s s' : σ}
    {docs : Slots fun _ => Document} :
    perform (links.mapM fun _ link => client.fetch link) s = (.ok docs, s') ↔
      ∃ parts : Slots fun _ => List UInt8,
        client.store.Gives s
          (Slots.ofFn fun f => ((links.get f).data, parts.get f)).toList s' ∧
        ∀ f, (links.get f).kind.decode (links.get f).data (parts.get f) = .ok (docs.get f) ∧
          (links.get f).data.verify (parts.get f) = .ok () := by
  unfold Slots.mapM
  constructor
  · intro h
    obtain ⟨space, s₁, hspace, h⟩ := perform_bind_eq_ok.mp h
    obtain ⟨point, s₂, hpoint, h⟩ := perform_bind_eq_ok.mp h
    obtain ⟨config, s₃, hconfig, h⟩ := perform_bind_eq_ok.mp h
    obtain ⟨fallback, s₄, hfallback, h⟩ := perform_bind_eq_ok.mp h
    obtain ⟨rfl, rfl⟩ := perform_pure_eq_ok.mp h
    obtain ⟨spaceData, hgetSpace, hspace⟩ := fetch_eq_ok.mp hspace
    obtain ⟨pointData, hgetPoint, hpoint⟩ := fetch_eq_ok.mp hpoint
    obtain ⟨configData, hgetConfig, hconfig⟩ := fetch_eq_ok.mp hconfig
    obtain ⟨fallbackData, hgetFallback, hfallback⟩ := fetch_eq_ok.mp hfallback
    -- each fetch starts where the one before has left the store
    refine ⟨⟨spaceData, pointData, configData, fallbackData⟩, ?_, ?_⟩
    · exact .cons hgetSpace (.cons hgetPoint (.cons hgetConfig (.cons hgetFallback (.nil _))))
    · intro f
      cases f <;> assumption
  · rintro ⟨parts, hgives, hparts⟩
    obtain ⟨s₁, hspace, hgives⟩ := BlockStore.gives_cons.mp hgives
    obtain ⟨s₂, hpoint, hgives⟩ := BlockStore.gives_cons.mp hgives
    obtain ⟨s₃, hconfig, hgives⟩ := BlockStore.gives_cons.mp hgives
    obtain ⟨s₄, hfallback, hgives⟩ := BlockStore.gives_cons.mp hgives
    cases hgives
    refine perform_bind_eq_ok.mpr ⟨_, s₁, fetch_eq_ok.mpr ⟨_, hspace, hparts .outcomeSpace⟩, ?_⟩
    refine perform_bind_eq_ok.mpr ⟨_, s₂, fetch_eq_ok.mpr ⟨_, hpoint, hparts .outcomePoint⟩, ?_⟩
    refine perform_bind_eq_ok.mpr ⟨_, s₃, fetch_eq_ok.mpr ⟨_, hconfig, hparts .oracleConfig⟩, ?_⟩
    exact perform_bind_eq_ok.mpr ⟨_, _, fetch_eq_ok.mpr ⟨_, hfallback, hparts .oracleFallback⟩, rfl⟩

/-! ## Downloading -/

/-- A download goes well exactly when the store gives evidence for the metadata. -/
theorem download_eq_ok {client : Client (StateM σ)} {cid : Cid} {s s' : σ} {m : Metadata} :
    perform (client.download cid) s = (.ok m, s') ↔
      ∃ data root parts, client.store.Gives s ((cid, data) :: root.calls parts) s' ∧
        Evidence client.registry cid data root parts m := by
  unfold download
  constructor
  · intro h
    obtain ⟨_, hsupported, h⟩ := perform_lift_bind_eq_ok.mp h
    obtain ⟨data, s₁, hget, h⟩ := perform_bind_eq_ok.mp h
    obtain ⟨root, hdecode, h⟩ := perform_lift_bind_eq_ok.mp h
    obtain ⟨_, hverify, h⟩ := perform_lift_bind_eq_ok.mp h
    obtain ⟨links, hlinks, h⟩ := perform_lift_bind_eq_ok.mp h
    obtain ⟨docs, s₂, hdocs, h⟩ := perform_bind_eq_ok.mp h
    obtain ⟨hinto, rfl⟩ := perform_lift_eq_ok.mp h
    obtain ⟨parts, hgives, hparts⟩ := mapM_fetch_eq_ok.mp hdocs
    -- the kinds of the links become those of the documents, which is how they come to their slots
    have hlink : ∀ f, client.registry.resolve (root.get f).schema = .ok (links.get f).kind ∧
        (root.get f).data.ensureSupported = .ok () ∧ (root.get f).data = (links.get f).data :=
      fun f => ComponentLink.resolve_eq_ok.mp (Slots.mapM_eq_ok.mp hlinks f)
    have hdoc : ∀ f, docs.get f = (m.get f).1 := Metadata.mapM_into_eq_ok.mp hinto
    have hkind : ∀ f, (links.get f).kind = (m.get f).1.kind := by
      intro f
      rw [← hdoc f, Kind.kind_of_decode (hparts f).1]
    refine ⟨data, root, parts, .cons hget ?_, hsupported, hdecode, hverify, fun f => ?_,
      fun f => (hlink f).2.1, fun f => ?_, fun f => ?_⟩
    · simpa only [Root.calls, (hlink _).2.2] using hgives
    · rw [← hkind f]
      exact (hlink f).1
    · rw [← hkind f, ← hdoc f, (hlink f).2.2]
      exact (hparts f).1
    · rw [(hlink f).2.2]
      exact (hparts f).2
  · rintro ⟨data, root, parts, hgives, h⟩
    obtain ⟨s₁, hget, hgives⟩ := BlockStore.gives_cons.mp hgives
    have hfamily : ∀ f, (m.get f).1.kind.family = f := fun f => (m.get f).2
    let links : Slots ResolvedLink :=
      .ofFn fun f => ⟨(root.get f).data, (m.get f).1.kind, hfamily f⟩
    let docs : Slots fun _ => Document := .ofFn fun f => (m.get f).1
    have hlinks : Root.resolve client.registry root = .ok links := by
      refine Slots.mapM_eq_ok.mpr fun f => ?_
      rw [Slots.get_ofFn]
      exact ComponentLink.resolve_eq_ok.mpr ⟨h.resolve f, h.part_supported f, rfl⟩
    have hdocs : perform (links.mapM fun _ link => client.fetch link) s₁ = (.ok docs, s') := by
      refine mapM_fetch_eq_ok.mpr ⟨parts, ?_, fun f => ?_⟩
      · simpa only [Root.calls, links, Slots.get_ofFn] using hgives
      · simp only [links, docs, Slots.get_ofFn]
        exact ⟨h.part_decode f, h.part_verify f⟩
    have hinto : (docs.mapM fun slot d => d.into slot) = .ok m :=
      Metadata.mapM_into_eq_ok.mpr fun f => Slots.get_ofFn _ f
    refine perform_lift_bind_eq_ok.mpr ⟨(), h.supported, ?_⟩
    refine perform_bind_eq_ok.mpr ⟨data, s₁, hget, ?_⟩
    refine perform_lift_bind_eq_ok.mpr ⟨root, h.decode, ?_⟩
    refine perform_lift_bind_eq_ok.mpr ⟨(), h.verify, ?_⟩
    refine perform_lift_bind_eq_ok.mpr ⟨links, hlinks, ?_⟩
    exact perform_bind_eq_ok.mpr ⟨docs, s', hdocs, perform_lift_eq_ok.mpr ⟨hinto, rfl⟩⟩

/-- A store in memory holds the blocks of metadata once they are put in. -/
theorem holds_insertAll {registry : Registry} {m : Metadata} {top : Block}
    {parts : Slots fun _ => Block} (h : m.Assembled registry top parts)
    {datas : List (List UInt8)} (hfree : CollisionFree datas)
    (hmem : ∀ b ∈ top :: parts.toList, b.data ∈ datas) (s : Memory) :
    (s.insertAll (top :: parts.toList)).Holds (top :: parts.toList) := by
  have hblocks : ∀ b ∈ top :: parts.toList, b.data ∈ datas ∧ b.cid.verify b.data = .ok () :=
    fun b hb => ⟨hmem b hb, h.verify b hb⟩
  exact .insertAll hfree hblocks hblocks (.inr (List.Subset.refl _))

/-- A store in memory that holds the blocks of metadata gives them. -/
theorem gives_of_holds {registry : Registry} {m : Metadata} {cid : Cid} {top : Block}
    {parts : Slots fun _ => Block} (h : m.Published registry cid top parts) {s : Memory}
    (hs : s.Holds (top :: parts.toList)) :
    ∃ s', Memory.store.Gives s
      ((cid, top.data) :: (m.rootOf parts).calls (parts.map fun _ b => b.data)) s' := by
  refine Memory.gives_iff.mpr fun call hcall => ?_
  rcases List.mem_cons.mp hcall with rfl | hcall
  · rw [← h.top_cid]
    exact hs top List.mem_cons_self
  · obtain ⟨f, rfl⟩ := Slots.mem_toList.mp hcall
    have hpart := hs _ (Metadata.Assembled.part_mem top parts f)
    simpa only [Metadata.rootOf, Slots.get_ofFn, Slots.get_map] using hpart

/-- Metadata are downloaded from a store in memory that holds their blocks. -/
theorem download_of_holds {registry : Registry} {m : Metadata} {cid : Cid} {top : Block}
    {parts : Slots fun _ => Block} (h : m.Published registry cid top parts) {s : Memory}
    (hs : s.Holds (top :: parts.toList)) :
    ∃ s', perform (download ⟨Memory.store, registry⟩ cid) s = (.ok m.normal, s') := by
  obtain ⟨s', hgives⟩ := gives_of_holds h hs
  exact ⟨s', download_eq_ok.mpr ⟨_, _, _, hgives, h.evidence⟩⟩

/-- Whatever a store gives, what is downloaded has been checked: the identifiers are of known codecs
and carry the digests of the bytes that the store gave, the root links to documents of registered
kinds of the right families, and each of them is in its slot and valid.  A document that is fetched
for a slot is always one of the slot's family. -/
theorem download_sound {client : Client (StateM σ)} {cid : Cid} {s s' : σ} {m : Metadata}
    (h : perform (client.download cid) s = (.ok m, s')) :
    (cid.codec = Cid.dagCbor ∨ cid.codec = Cid.dagJson) ∧
    cid.hash.code = Multihash.sha256Code ∧
    (∃ data root parts, client.store.Gives s ((cid, data) :: root.calls parts) s' ∧
      cid.hash.digest = Sha256.digest data ∧ Block.decode Root cid data = .ok root ∧
      ∀ f, ∃ kind ∈ client.registry.kinds, kind.schema = (root.get f).schema ∧ kind.family = f ∧
        ((root.get f).data.codec = Cid.dagCbor ∨ (root.get f).data.codec = Cid.dagJson) ∧
        (root.get f).data.hash.code = Multihash.sha256Code ∧
        (root.get f).data.hash.digest = Sha256.digest (parts.get f) ∧
        kind.decodeRaw (root.get f).data (parts.get f) = .ok (m.get f).1 ∧
        (m.get f).1.kind = kind) ∧
    m.validate = .ok () ∧
    ∀ (f : Family) (link : ResolvedLink f) (d : Document) (t t' : σ),
      perform (client.fetch link) t = (.ok d, t') →
        ∃ hfamily, d.into f = .ok ⟨d, hfamily⟩ := by
  obtain ⟨data, root, parts, hgives, h⟩ := download_eq_ok.mp h
  have hhash : cid.hash = Multihash.sha256 data := Cid.verify_eq_ok.mp h.verify
  have hdecode : ∀ f, (m.get f).1.kind.decodeRaw (root.get f).data (parts.get f) =
      .ok (m.get f).1 ∧ (m.get f).1.validate = .ok () :=
    fun f => Kind.decode_eq_ok.mp (h.part_decode f)
  refine ⟨Cid.ensureSupported_eq_ok.mp h.supported, congrArg Multihash.code hhash,
    ⟨data, root, parts, hgives, congrArg Multihash.digest hhash, h.decode, fun f => ?_⟩,
    Metadata.validate_eq_ok.mpr fun f => (hdecode f).2, fun _ _ _ _ _ => into_of_fetch⟩
  obtain ⟨hkind, hschema⟩ := Registry.resolve_eq_ok.mp (h.resolve f)
  have hpart : (root.get f).data.hash = Multihash.sha256 (parts.get f) :=
    Cid.verify_eq_ok.mp (h.part_verify f)
  exact ⟨_, hkind, hschema, (m.get f).2, Cid.ensureSupported_eq_ok.mp (h.part_supported f),
    congrArg Multihash.code hpart, congrArg Multihash.digest hpart, (hdecode f).1, rfl⟩

/-- The sample is downloaded from a store that holds its blocks, and has been checked. -/
theorem download_sound_sample : ∃ (s s' : Memory) (cid : Cid) (m : Metadata),
    perform (download ⟨Memory.store, .full⟩ cid) s = (.ok m, s') ∧ m.validate = .ok () ∧
      cid.hash.code = Multihash.sha256Code := by
  obtain ⟨top, parts, hpublished, -, hfree⟩ := Metadata.sample_published
  have hholds := holds_insertAll hpublished.assembled hfree
    (fun b hb => List.mem_map_of_mem hb) {}
  obtain ⟨s', hdownload⟩ := download_of_holds hpublished hholds
  obtain ⟨-, hcode, -, hvalid, -⟩ := download_sound hdownload
  exact ⟨_, s', top.cid, _, hdownload, hvalid, hcode⟩

/-! ## The bytes that are served -/

/-- The bytes that the store gives in a download: those of the root and of the documents it links
to. -/
def served (client : Client (StateM σ)) (cid : Cid) (s : σ) : List (List UInt8) :=
  match perform (client.store.getBlock cid) s with
  | (.error _, _) => []
  | (.ok data, s') =>
    data ::
      match Block.decode Root cid data with
      | .ok root => client.store.answers s' (root.map (β := fun _ => Cid) fun _ l => l.data).toList
      | .error _ => []

theorem served_of_gives {client : Client (StateM σ)} {cid : Cid} {s s' : σ} {data : List UInt8}
    {root : Root} {parts : Slots fun _ => List UInt8}
    (hgives : client.store.Gives s ((cid, data) :: root.calls parts) s')
    (hdecode : Block.decode Root cid data = .ok root) :
    client.served cid s = data :: parts.toList := by
  obtain ⟨s₁, hget, hgives⟩ := BlockStore.gives_cons.mp hgives
  have hanswers := BlockStore.answers_of_gives hgives
  rw [served, hget]
  simp only [hdecode]
  exact congrArg (data :: ·) hanswers

theorem served_of_holds {registry : Registry} {m : Metadata} {cid : Cid} {top : Block}
    {parts : Slots fun _ => Block} (h : m.Published registry cid top parts) {s : Memory}
    (hs : s.Holds (top :: parts.toList)) :
    served ⟨Memory.store, registry⟩ cid s = (top :: parts.toList).map Block.data := by
  let client : Client (StateM Memory) := ⟨Memory.store, registry⟩
  obtain ⟨s', hgives⟩ := gives_of_holds h hs
  have hgives : client.store.Gives s _ s' := hgives
  exact served_of_gives hgives h.evidence.decode

/-- The bytes that are served in a download that goes well are evidence for its result. -/
theorem evidence_of_download {client : Client (StateM σ)} {cid : Cid} {s s' : σ} {m : Metadata}
    (h : perform (client.download cid) s = (.ok m, s')) :
    ∃ data root parts, Evidence client.registry cid data root parts m ∧
      data ∈ client.served cid s ∧ ∀ f, parts.get f ∈ client.served cid s := by
  obtain ⟨data, root, parts, hgives, h⟩ := download_eq_ok.mp h
  rw [served_of_gives hgives h.decode]
  exact ⟨data, root, parts, h, List.mem_cons_self,
    fun f => List.mem_cons_of_mem _ (Slots.mem_toList.mpr ⟨f, rfl⟩)⟩

/-- Without collisions among the bytes that two stores serve, what is downloaded from them under one
identifier is equal. -/
theorem download_eq {τ : Type} {client : Client (StateM σ)} {client' : Client (StateM τ)}
    {cid : Cid} {s s₁ : σ} {t t₁ : τ} {m m' : Metadata}
    (hfree : CollisionFree (client.served cid s ++ client'.served cid t))
    (h : perform (client.download cid) s = (.ok m, s₁))
    (h' : perform (client'.download cid) t = (.ok m', t₁)) : m = m' := by
  obtain ⟨data, root, parts, h, hdata, hparts⟩ := evidence_of_download h
  obtain ⟨data', root', parts', h', hdata', hparts'⟩ := evidence_of_download h'
  exact h.eq hfree h'
    ⟨List.mem_append_left _ hdata, fun f => List.mem_append_left _ (hparts f)⟩
    ⟨List.mem_append_right _ hdata', fun f => List.mem_append_right _ (hparts' f)⟩

end Client

end MarketDag
