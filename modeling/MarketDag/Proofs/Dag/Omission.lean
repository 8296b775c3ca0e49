import MarketDag.Proofs.Dag.Codecs
import MarketDag.Proofs.Document.Settings

/-!
# Settings left out of a block

What is left of the canonical tree of a description without some of its settings is read as the
description with the defaults of these settings, by itself (`JsonPathSpec.readAs_without`) and in
the tree of a document (`JsonPathSpec.readAs_changeAt`), under either codec.  So it is the
description itself exactly if the settings have their defaults (`JsonPathSpec.omission_exact`).
-/

namespace MarketDag

/-! ## Reading under either codec -/

namespace Block

/-- Is a value read where a tree is written, under either codec? In JSON no header in the tree may
have the reserved name. -/
structure ReadAs {α : Type} (read : Cid → List UInt8 → Except Error α) (tree : Ipld)
    (headers : Option Headers) (a : α) : Prop where
  cbor : ∀ cid : Cid, cid.codec = Cid.dagCbor → (Cbor.write tree).length < UInt64.size →
    read cid (Cbor.write tree) = .ok a
  json : (∀ hs, headers = some hs → hs.Unreserved) →
    ∃ text, Json.writeTree tree = some text ∧
      ∀ cid : Cid, cid.codec = Cid.dagJson → read cid (Utf8.encode text) = .ok a

variable {α β : Type} {read : Cid → List UInt8 → Except Error α} {tree : Ipld}
  {headers : Option Headers} {a : α}

theorem ReadAs.mono {read' : Cid → List UInt8 → Except Error β} {b : β}
    (h : ReadAs read tree headers a)
    (hread : ∀ cid data, read cid data = .ok a → read' cid data = .ok b) :
    ReadAs read' tree headers b where
  cbor cid hcid hsize := hread _ _ (h.cbor cid hcid hsize)
  json hheaders := by
    obtain ⟨text, htext, hjson⟩ := h.json hheaders
    exact ⟨text, htext, fun cid hcid => hread _ _ (hjson cid hcid)⟩

/-- A value is read, with its decimals in canonical form, from every tree that stands for it. -/
theorem readAs_of_writes [Shaped α] [Recoverable α]
    (hdepth : (Shaped.shape α).height < Json.maxDepth)
    (h : (Shaped.shape α).Writes (Shaped.toValue a) tree)
    (hheaders : (∀ hs, headers = some hs → hs.Unreserved) →
      (Shaped.shape α).Unreserved (Shaped.toValue a)) :
    ReadAs (decode α) tree headers (Shaped.normal a) where
  cbor _ hcid hsize := decode_of_writes h hsize hcid
  json hunreserved := by
    have htext := Json.writeTree_eq_some.mpr ⟨Shape.isFinite_of_writes Recoverable.sound h, rfl⟩
    exact ⟨_, htext, fun _ => decode_text_of_writes hdepth h (hheaders hunreserved) htext⟩

end Block

/-! ## Trees of documents -/

/-- The field of a series for its description. -/
theorem SeriesSpace.writesAt_spec_iff {s : SeriesSpace} {t : Ipld} :
    SeriesSpace.fields.WritesAt (Shaped.toValue s) "history_api_spec" t ↔
      (s.historySpec = none ∧ t = .null) ∨ ∃ spec, s.historySpec = some spec ∧
        (Shaped.shape ApiSpec).Writes (Shaped.toValue spec) t := by
  iterate 8 rw [Fields.WritesAt, if_neg (by decide)]
  rw [Fields.WritesAt, if_pos rfl]
  change (s.historySpec.map Shaped.toValue = none ∧ t = .null) ∨ (∃ a,
    s.historySpec.map Shaped.toValue = some a ∧ (Shaped.shape ApiSpec).Writes a t) ↔ _
  cases s.historySpec <;> simp

/-- The field of a prototype's oracle for its description. -/
theorem PrototypeOracle.writesAt_spec_iff {o : PrototypeOracle} {t : Ipld} :
    (Kind.fields .oracleConfigPrototype1).WritesAt (Shaped.toValue o) "evaluation_api_spec" t ↔
      (Shaped.shape ApiSpec).Writes (Shaped.toValue o.evaluationSpec) t := by
  change (Fields.required "description" (.leaf .text) <| .optional "project_url" (.leaf .text) <|
    .required "evaluation_api_spec" (Shaped.shape ApiSpec) .nil).WritesAt
      (o.description, o.projectUrl, Shaped.toValue o.evaluationSpec, ()) _ t ↔ _
  iterate 2 rw [Fields.WritesAt, if_neg (by decide)]
  rw [Fields.WritesAt, if_pos rfl]

/-- With another tree in the place of its description, a tree stands for the document with another
description. -/
theorem Document.writes_withSpec {d : Document} {spec : ApiSpec} (spec' : ApiSpec) {key : String}
    {t : Ipld} {f : Ipld → Ipld} (hkey : d.kind.specKey? = some key) (h : d.spec? = some spec)
    (hd : (Shaped.shape d.kind.Body).Writes (Shaped.toValue d.body) t)
    (hf : ∀ t, (Shaped.shape ApiSpec).Writes (Shaped.toValue spec) t →
      (Shaped.shape ApiSpec).Writes (Shaped.toValue spec') (f t)) :
    (Shaped.shape d.kind.Body).Writes (Shaped.toValue (d.withSpec spec').body)
      (t.changeAt key f) := by
  obtain ⟨k, body⟩ := d
  cases k with
  | outcomeSpaceTimeSeries =>
    cases hkey
    have hspec : body.historySpec = some spec := h
    refine Shape.writes_changeAt SeriesSpace.fields hd ?_ ?_ ?_
    · exact ⟨fun _ => rfl, fun _ => rfl, fun _ => rfl, fun _ => rfl, fun _ => rfl, fun _ => rfl,
        fun _ => rfl, fun _ => rfl, by simp, trivial⟩
    · rintro es rfl
      obtain ⟨_, heq, -, -, hspares⟩ := hd
      cases heq
      -- without the key there would be no description to change
      by_contra hmissing
      have hnone : body.historySpec.map Shaped.toValue = none :=
        hspares.2.2.2.2.2.2.2.2.1 hmissing
      rw [hspec] at hnone
      cases hnone
    · intro t ht
      obtain ⟨hnone, -⟩ | ⟨spec, hsome, ht⟩ := SeriesSpace.writesAt_spec_iff.mp ht
      · cases hspec.symm.trans hnone
      · cases hspec.symm.trans hsome
        exact SeriesSpace.writesAt_spec_iff.mpr (.inr ⟨spec', rfl, hf t ht⟩)
  | oracleConfigPrototype1 =>
    cases hkey
    cases h
    refine Shape.writes_changeAt (Kind.fields .oracleConfigPrototype1) hd ?_ ?_ ?_
    · exact ⟨fun _ => rfl, fun _ => rfl, by simp, trivial⟩
    · rintro es rfl
      obtain ⟨_, heq, -, -, hspares⟩ := hd
      cases heq
      exact hspares.2.2.1
    · intro t ht
      exact PrototypeOracle.writesAt_spec_iff.mpr (hf t (PrototypeOracle.writesAt_spec_iff.mp ht))
  | _ => cases hkey

/-- Documents with a description of an interface have no times, so that all have a tree. -/
theorem Document.exists_canonical_of_specKey? {d : Document} {key : String}
    (hkey : d.kind.specKey? = some key) : ∃ tree, d.canonical = .ok tree := by
  have hfree (k : Kind) (hkey : k.specKey? = some key) :
      (Shaped.shape k.Body).instantFree = true := by
    cases k with
    | outcomeSpaceTimeSeries | oracleConfigPrototype1 => decide
    | _ => cases hkey
  obtain ⟨t, ht⟩ := Shape.exists_layout _ (hfree _ hkey) (Shaped.toValue d.body)
  exact ⟨t.canonical, Block.canonical_eq_ok.mpr ⟨t, ht, rfl⟩⟩

/-! ## Settings left out -/

namespace JsonPathSpec

variable {s : JsonPathSpec} {tree : Ipld}

theorem headers_withDefaults {removed : List Setting} {hs : Headers}
    (h : (s.withDefaults removed).headers = some hs) : s.headers = some hs := by
  simp only [withDefaults] at h
  split at h
  · cases h
  · exact h

theorem unreserved_withDefaults (removed : List Setting)
    (h : ∀ hs, s.headers = some hs → hs.Unreserved) :
    (Shaped.shape ApiSpec).Unreserved
      (Shaped.toValue (ApiSpec.jsonPath (s.withDefaults removed))) :=
  ApiSpec.unreserved fun hs hheaders => h hs (headers_withDefaults hheaders)

/-- Without the entries of some settings, the canonical tree of a description is read as what is
built without them, be it read by paths or in either form. -/
theorem readAs_without (removed : List Setting) (h : Block.canonical s = .ok tree) :
    Block.ReadAs (Block.decode JsonPathSpec) (tree.without (removed.map Setting.key)) s.headers
        (Shaped.normal (s.withDefaults removed)) ∧
      Block.ReadAs (Block.decode ApiSpec) (tree.without (removed.map Setting.key)) s.headers
        (.jsonPath (Shaped.normal (s.withDefaults removed))) := by
  obtain ⟨t, ht, rfl⟩ := Block.canonical_eq_ok.mp h
  have hwrites := writes_without removed (Shape.writes_canonical Recoverable.sound ht)
  have hspec : (Shaped.shape ApiSpec).Writes
      (Shaped.toValue (ApiSpec.jsonPath (s.withDefaults removed))) _ := hwrites
  exact ⟨Block.readAs_of_writes (by decide) hwrites (unreserved_withDefaults removed),
    Block.readAs_of_writes (by decide) hspec (unreserved_withDefaults removed)⟩

variable {d : Document} {key : String}

/-- Without the entries of some settings of its description, the canonical tree of a document is
read as the document with what is built without them. -/
theorem readAs_changeAt (removed : List Setting) (hkey : d.kind.specKey? = some key)
    (hspec : d.spec? = some (.jsonPath s)) (h : d.canonical = .ok tree) :
    Block.ReadAs d.kind.decodeRaw (tree.changeAt key (Ipld.without (removed.map Setting.key)))
      s.headers (d.withSpec (.jsonPath (s.withDefaults removed))).normal := by
  obtain ⟨t, ht, rfl⟩ := Block.canonical_eq_ok.mp h
  have hwrites := Document.writes_withSpec (.jsonPath (s.withDefaults removed)) hkey hspec
    (Shape.writes_canonical Recoverable.sound ht) fun t => writes_without (s := s) removed
  have hheaders (h : ∀ hs, s.headers = some hs → hs.Unreserved) :
      (d.withSpec (.jsonPath (s.withDefaults removed))).Unreserved := by
    intro spec hs hspec' hspecHeaders
    rw [Document.spec?_withSpec hkey] at hspec'
    cases hspec'
    exact h hs (headers_withDefaults hspecHeaders)
  have hread := Block.readAs_of_writes (Document.height_lt d.kind) hwrites
    fun h => (hheaders h).shape
  exact hread.mono fun cid data h => congrArg (Functor.map (Document.mk d.kind)) h

/-- A setting that is left out has its default, and nothing else.  Whatever settings are left out of
the canonical tree of a description, by itself or in a document, under either codec it is read as
what is built without them: as the description itself exactly if these settings have their defaults
in it, and then the block is the same.  A limit of pages that is left out is one of ten pages, and
not that there is none. -/
theorem omission_exact (s : JsonPathSpec) (removed : List Setting) :
    ∃ s' : JsonPathSpec,
      (Shaped.Same s' s ↔ ∀ x ∈ removed, s.IsDefault x) ∧
      Shaped.Same s' (s.withDefaults removed) ∧
      s'.maxPages = (if .maxPages ∈ removed then some 10 else s.maxPages) ∧
      (∃ tree b, Block.canonical s = .ok tree ∧ Block.encode s = .ok b ∧
        Block.ReadAs (Block.decode JsonPathSpec) (tree.without (removed.map Setting.key))
          s.headers s' ∧
        Block.ReadAs (Block.decode ApiSpec) (tree.without (removed.map Setting.key))
          s.headers (.jsonPath s') ∧
        (Shaped.Same s' s → Block.encode s' = .ok b)) ∧
      ∀ (d : Document) (key : String), d.spec? = some (.jsonPath s) →
        d.kind.specKey? = some key →
        ∃ tree b d', d.canonical = .ok tree ∧ d.encode = .ok b ∧
          Block.ReadAs d.kind.decodeRaw
            (tree.changeAt key (Ipld.without (removed.map Setting.key))) s.headers d' ∧
          (d'.validate = .ok () → Block.ReadAs d.kind.decode
            (tree.changeAt key (Ipld.without (removed.map Setting.key))) s.headers d') ∧
          d'.spec? = some (.jsonPath s') ∧
          (d'.Same d ↔ ∀ x ∈ removed, s.IsDefault x) ∧
          (d'.Same d → d'.encode = .ok b) := by
  refine ⟨Shaped.normal (s.withDefaults removed), ?_, Shaped.same_normal _, ?_, ?_, ?_⟩
  · rw [Shaped.same_normal_iff, same_withDefaults_iff]
  · rw [normal_eq]
    rfl
  · obtain ⟨t, ht⟩ := (Shaped.shape JsonPathSpec).exists_layout (by decide) (Shaped.toValue s)
    have h : Block.canonical s = .ok t.canonical := Block.canonical_eq_ok.mpr ⟨t, ht, rfl⟩
    obtain ⟨b, hb, -⟩ := Block.exists_encode_of_canonical h
    obtain ⟨hread, hspec⟩ := readAs_without removed h
    exact ⟨_, b, h, hb, hread, hspec, fun hsame => (Block.encode_eq_of_same hsame).trans hb⟩
  · intro d key hspec hkey
    obtain ⟨tree, h⟩ := Document.exists_canonical_of_specKey? hkey
    obtain ⟨b, hb, -⟩ := Block.exists_encode_of_canonical h
    have hread := readAs_changeAt removed hkey hspec h
    refine ⟨tree, b, _, h, hb, hread, fun hvalid => ?_, ?_, ?_, ?_⟩
    · -- the rules look at the document, so they are checked behind the reading
      exact hread.mono fun cid data hraw => Kind.decode_eq_ok.mpr ⟨hraw, hvalid⟩
    · rw [Document.spec?_normal, Document.spec?_withSpec hkey]
      rfl
    · rw [Document.same_normal_iff, Document.same_withSpec_iff hkey hspec,
        ApiSpec.same_jsonPath_iff, same_withDefaults_iff]
    · exact fun hsame => (Document.encode_eq_of_same hsame).trans hb

/-- An oracle that looks at all pages looks at ten without its limit, and is the same without its
time zone, which is the default. -/
theorem omission_exact_sample : ∃ tree b text text' d d',
    Document.sampleOracle.canonical = .ok tree ∧ Document.sampleOracle.encode = .ok b ∧
    Json.writeTree (tree.changeAt "evaluation_api_spec" (Ipld.without ["max_pages"])) = some text ∧
    Document.sampleOracle.kind.decodeRaw (.ofData Cid.dagJson []) (Utf8.encode text) = .ok d ∧
    ¬ d.Same Document.sampleOracle ∧
    Json.writeTree (tree.changeAt "evaluation_api_spec" (Ipld.without ["timezone"])) = some text' ∧
    Document.sampleOracle.kind.decodeRaw (.ofData Cid.dagJson []) (Utf8.encode text') = .ok d' ∧
    d'.Same Document.sampleOracle ∧ d'.encode = .ok b := by
  obtain ⟨s, hspec, hpages, hzone, hheaders⟩ : ∃ s, Document.sampleOracle.spec? =
      some (.jsonPath s) ∧ s.maxPages = none ∧ s.timezone = "UTC" ∧
        s.headers = some ((Headers.empty.insert "bb" "1").insert "c" "2") := ⟨_, rfl, rfl, rfl, rfl⟩
  have hunreserved (hs : Headers) (h : s.headers = some hs) : hs.Unreserved := by
    cases hheaders.symm.trans h
    unfold Headers.Unreserved
    decide +kernel
  obtain ⟨_, -, -, -, -, hlimit⟩ := omission_exact s [.maxPages]
  obtain ⟨tree, b, d, htree, hb, hread, -, -, hsame, -⟩ := hlimit _ "evaluation_api_spec" hspec rfl
  obtain ⟨text, htext, hjson⟩ := hread.json hunreserved
  obtain ⟨_, -, -, -, -, hplace⟩ := omission_exact s [.timezone]
  obtain ⟨tree', b', d', htree', hb', hread', -, -, hsame', hencode⟩ :=
    hplace _ "evaluation_api_spec" hspec rfl
  obtain ⟨text', htext', hjson'⟩ := hread'.json hunreserved
  cases htree.symm.trans htree'
  cases hb.symm.trans hb'
  have hdefault : d'.Same Document.sampleOracle := hsame'.mpr (by simp [IsDefault, hzone])
  refine ⟨tree, b, text, text', d, d', htree, hb, htext, hjson _ rfl, ?_, htext', hjson' _ rfl,
    hdefault, hencode hdefault⟩
  rw [hsame]
  simp [IsDefault, hpages]

end JsonPathSpec

end MarketDag
