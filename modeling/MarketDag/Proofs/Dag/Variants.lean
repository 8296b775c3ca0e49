import MarketDag.Proofs.Cbor.Step
import MarketDag.Proofs.Dag.Exclusive
import MarketDag.Proofs.Dag.Failures
import MarketDag.Proofs.Dag.Normal
import MarketDag.Proofs.Json.Entries
import MarketDag.Proofs.Json.Faithful
import MarketDag.Proofs.Json.Reserved

/-!
# Descriptions by paths and by name

A description of an interface is tried by paths first and by name then, and what kept it from the
first form is forgotten.  No fields are lost by this: a map that is read in one of the two forms
has the keys of this form, and no map has the keys of both (`ApiSpec.not_both_of_hasKeys`).  So a
document whose description is a map is read with a description that fits the keys of the map, or
refused (`Kind.fits_or_rejected`).  This is shown of a binary block that is the written form of its
map, and it takes the fields before the description to keep step with their values
(`Kind.not_always_fits`).
-/

namespace MarketDag

namespace ApiSpec

/-! ## Keys -/

/-- The keys that a description by paths may have. -/
def pathKeys : List String :=
  ["standard", "spec_variant", "url", "date_path", "value_path", "auth_param_location",
    "auth_param_name", "auth_param_prefix", "continuation_token_param", "continuation_token_path",
    "date_format_custom", "date_format_type", "headers", "max_pages", "timestamp_scale", "timezone"]

/-- Are these the keys of a map in the form of a description? By name there are two; by paths there
are five and no others than those that such a description may have. -/
def Fits : ApiSpec → List String → Prop
  | .generic _, keys => ∀ key, key ∈ keys ↔ key ∈ ["standard", "spec_variant"]
  | .jsonPath _, keys =>
    (∀ key ∈ ["standard", "spec_variant", "url", "date_path", "value_path"], key ∈ keys) ∧
      ∀ key ∈ keys, key ∈ pathKeys

variable {keys : List String} {value : Buffered}

/-- A map that is read in one of the two forms fits it. -/
theorem fits_of_firstOf {v : (Shaped.shape ApiSpec).Value} (hkeys : value.HasKeys keys)
    (h : firstOf "ApiSpec" ((Shaped.shape JsonPathSpec).read Buffered.source)
      ((Shaped.shape GenericSpec).read Buffered.source) value = .ok v) :
    (Shaped.ofValue v : ApiSpec).Fits keys := by
  unfold firstOf at h
  split at h
  · rename_i a hfirst
    cases h
    obtain ⟨hknown, hrequired⟩ := Buffered.fits_of_read hkeys hfirst
    exact ⟨hrequired, hknown⟩
  · split at h
    · rename_i b hsecond
      cases h
      obtain ⟨hknown, hrequired⟩ := Buffered.fits_of_read hkeys hsecond
      exact fun key => ⟨hknown key, hrequired key⟩
    · cases h

/-- No map is read in both forms: by paths it needs a key that is unknown by name. -/
theorem not_both_of_hasKeys {v : (Shaped.shape JsonPathSpec).Value}
    {w : (Shaped.shape GenericSpec).Value} (hkeys : value.HasKeys keys)
    (hv : ((Shaped.shape JsonPathSpec).read Buffered.source).run value = .ok v) :
    ((Shaped.shape GenericSpec).read Buffered.source).run value ≠ .ok w := by
  intro hw
  have hurl : "url" ∈ keys := (Buffered.fits_of_read hkeys hv).2 "url" (by decide)
  have hname : "url" ∈ GenericSpec.fields.keys := (Buffered.fits_of_read hkeys hw).1 "url" hurl
  exact absurd hname (by decide)

/-! ## Fields -/

section

variable {m : Type → Type} [Monad m] [MonadExceptOf DecodeFault m] {src : Source m}
  {R : {α : Type} → m α → α → Prop} {P : ApiSpec → Prop}

/-- Has every description that is read a property, and is one read even where it may be null? -/
structure ReadsSpec (src : Source m) (R : {α : Type} → m α → α → Prop) (P : ApiSpec → Prop) :
    Prop where
  required : ∀ v, R ((Shaped.shape ApiSpec).read src) v → P (Shaped.ofValue v)
  optional : ∀ v?, R (src.optional ((Shaped.shape ApiSpec).read src)) v? →
    ∃ v, v? = some v ∧ P (Shaped.ofValue v)

/-- The description of a series, in a record whose field for it was read. -/
theorem ReadsSpec.series (h : ReadsSpec src R P) {v : (Shaped.shape SeriesSpace).Value}
    (hv : SeriesSpace.fields.MadeFrom src R "history_api_spec" v) :
    ∃ spec, (Shaped.ofValue v : SeriesSpace).historySpec = some spec ∧ P spec := by
  have hv := (hv.of_required (by decide)).of_required (by decide)
  have hv := (hv.of_required (by decide)).of_required (by decide)
  have hv := (hv.of_required (by decide)).of_required (by decide)
  have hv := (hv.of_required (by decide)).of_required (by decide)
  rw [Fields.MadeFrom, if_pos rfl] at hv
  obtain ⟨w, hw, hspec⟩ := h.optional _ hv
  exact ⟨_, congrArg (Option.map Shaped.ofValue) hw, hspec⟩

/-- The description of a prototype's oracle, in a record whose field for it was read. -/
theorem ReadsSpec.oracle (h : ReadsSpec src R P) {v : (Shaped.shape PrototypeOracle).Value}
    (hv : (Kind.fields .oracleConfigPrototype1).MadeFrom src R "evaluation_api_spec" v) :
    P (Shaped.ofValue v : PrototypeOracle).evaluationSpec := by
  have hv := hv.of_required (by decide)
  have hv := hv.of_optional (by decide)
  rw [Fields.MadeFrom, if_pos rfl] at hv
  exact h.required _ hv

end

variable {es : List (String × Ipld)} {P : ApiSpec → Prop}

/-- In a binary tree, a description is read from what is buffered where its map is written. -/
theorem readsSpec_cbor {budget depth : Nat} {u u' : List UInt8}
    (hes : Cbor.Readable budget (.map es)) (hsize : (Cbor.write (.map es)).length < UInt64.size)
    (hP : ∀ value v, value.Holds Shows es →
      firstOf "ApiSpec" ((Shaped.shape JsonPathSpec).read Buffered.source)
        ((Shaped.shape GenericSpec).read Buffered.source) value = .ok v → P (Shaped.ofValue v)) :
    ReadsSpec Cbor.source (fun x a => x.run depth (Cbor.write (.map es) ++ u) = .ok (a, u')) P := by
  have hrequired (d : Nat) (v : (Shaped.shape ApiSpec).Value)
      (h : ((Shaped.shape ApiSpec).read Cbor.source).run d (Cbor.write (.map es) ++ u) =
        .ok (v, u')) : P (Shaped.ofValue v) := by
    obtain ⟨value, s, hvalue, h⟩ := (Cbor.outcome d).bind_iff.mp h
    exact hP value v (Cbor.holds_of_readBuffered hes hsize hvalue)
      ((Cbor.outcome d).gives_ofExcept.mp h).1
  refine ⟨hrequired depth, fun v? h => ?_⟩
  obtain ⟨b, bytes, hwrite, hb⟩ := Cbor.write_eq_cons (t := .map es) Ipld.noConfusion
  have hpeek : Cbor.peek (Cbor.write (.map es) ++ u) = .ok (b, Cbor.write (.map es) ++ u) := by
    rw [hwrite]
    rfl
  change Cbor.readOptional _ depth _ = _ at h
  rw [Cbor.readOptional, read_bind hpeek, if_neg hb] at h
  obtain ⟨v, hread, rfl⟩ := Cbor.read_map_eq_ok.mp h
  cases depth with
  | zero => cases hread
  | succ d => exact ⟨v, rfl, hrequired d v hread⟩

/-- In JSON, a description is read from what is buffered for the object of its map. -/
theorem readsSpec_json {value : Json} (htree : value.tree = .ok (.map es))
    (hP : ∀ value v, value.Holds Shows es →
      firstOf "ApiSpec" ((Shaped.shape JsonPathSpec).read Buffered.source)
        ((Shaped.shape GenericSpec).read Buffered.source) value = .ok v → P (Shaped.ofValue v)) :
    ReadsSpec Json.source (fun x a => (Outcome.looking Json).Gives value x a value) P := by
  have hrequired (v : (Shaped.shape ApiSpec).Value)
      (h : (Outcome.looking Json).Gives value ((Shaped.shape ApiSpec).read Json.source) v value) :
      P (Shaped.ofValue v) := by
    obtain ⟨b, value', ⟨hb, rfl⟩, h⟩ := (Outcome.looking Json).bind_iff.mp h
    exact hP b v (Json.holds_of_buffered htree hb) ((Outcome.looking Json).gives_ofExcept.mp h).1
  refine ⟨hrequired, fun v? h => ?_⟩
  have hnull : value ≠ .null := by
    rintro rfl
    cases htree
  have hread := h.1
  rw [Json.run_optional hnull] at hread
  obtain ⟨v, hv, rfl⟩ := map_eq_ok.mp hread
  exact ⟨v, rfl, hrequired v ⟨hv, rfl⟩⟩

end ApiSpec

/-! ## Documents -/

namespace Kind

/-- Is a binary block the written form of its map, the fields of a kind in step with all entries but
that of a key? -/
structure Aligned (k : Kind) (key : String) (data : List UInt8) (entries : List (String × Ipld)) :
    Prop where
  written : data = Cbor.write (.map entries)
  short : data.length < UInt64.size
  inStep : ∀ e ∈ entries, e.1 ≠ key → Cbor.InStep (Cbor.maxDepth - 1) k.fields e

variable {k : Kind} {key : String} {cid : Cid} {data : List UInt8} {d : Document}
  {entries es : List (String × Ipld)}

/-- The description in a document has whatever property the values have that are read from what is
buffered for its map. -/
theorem spec_of_decode {P : ApiSpec → Prop} (hkey : k.specKey? = some key)
    (htree : Block.decodeTree cid data = .ok (.map entries)) (hmem : (key, .map es) ∈ entries)
    (haligned : cid.codec = Cid.dagCbor → k.Aligned key data entries)
    (hP : ∀ value v, value.Holds Shows es →
      firstOf "ApiSpec" ((Shaped.shape JsonPathSpec).read Buffered.source)
        ((Shaped.shape GenericSpec).read Buffered.source) value = .ok v → P (Shaped.ofValue v))
    (h : k.decodeRaw cid data = .ok d) : ∃ spec, d.spec? = some spec ∧ P spec := by
  have hreadable := Block.readable_of_decodeTree htree
  obtain ⟨v, hv, rfl⟩ := decodeWith_of_decodeRaw h
  -- each codec finds the value of the key in its own way; two kinds have such a key
  rcases Block.decodeWith_both htree hv with ⟨hcbor, -, hv⟩ | ⟨-, htree, hv⟩
  · obtain ⟨rfl, hsize, hstep⟩ := haligned hcbor
    have hspec : Cbor.Readable 254 (.map es) := hreadable.2 _ hmem
    have hshort := Cbor.length_write_lt hmem hsize
    have hnodup := Ascending.nodup hreadable.1
    cases k with
    | outcomeSpaceTimeSeries =>
      cases hkey
      obtain ⟨u, u', hmade⟩ := Cbor.madeFrom_of_decode SeriesSpace.fields hnodup hmem hsize hstep hv
      exact (ApiSpec.readsSpec_cbor hspec hshort hP).series hmade
    | oracleConfigPrototype1 =>
      cases hkey
      obtain ⟨u, u', hmade⟩ := Cbor.madeFrom_of_decode (fields .oracleConfigPrototype1) hnodup hmem
        hsize hstep hv
      exact ⟨_, rfl, (ApiSpec.readsSpec_cbor hspec hshort hP).oracle hmade⟩
    | _ => cases hkey
  · cases k with
    | outcomeSpaceTimeSeries =>
      cases hkey
      obtain ⟨value, hvalue, hmade⟩ := Json.madeFrom_of_decode SeriesSpace.fields hmem htree hv
      exact (ApiSpec.readsSpec_json hvalue hP).series hmade
    | oracleConfigPrototype1 =>
      cases hkey
      obtain ⟨value, hvalue, hmade⟩ := Json.madeFrom_of_decode (fields .oracleConfigPrototype1) hmem
        htree hv
      exact ⟨_, rfl, (ApiSpec.readsSpec_json hvalue hP).oracle hmade⟩
    | _ => cases hkey

/-- The description in a document that is read fits the keys of the map that it is read from. -/
theorem fits_of_decode (hkey : k.specKey? = some key)
    (htree : Block.decodeTree cid data = .ok (.map entries)) (hmem : (key, .map es) ∈ entries)
    (haligned : cid.codec = Cid.dagCbor → k.Aligned key data entries)
    (h : k.decode cid data = .ok d) :
    ∃ spec, d.spec? = some spec ∧ spec.Fits (es.map Prod.fst) :=
  spec_of_decode hkey htree hmem haligned
    (fun _ _ hvalue => ApiSpec.fits_of_firstOf hvalue.hasKeys) (decode_eq_ok.mp h).1

/-- The block of a document is aligned, whatever stands in it in place of the description. -/
theorem aligned_of_layout {d : Document} {layout : List (String × Ipld)}
    (h : d.layout = .ok (.map layout))
    (hentries : ∀ e ∈ entries, e.1 ≠ key → ∃ t, (e.1, t) ∈ layout ∧ e.2 = t.canonical)
    (hsize : (Cbor.write (.map entries)).length < UInt64.size) :
    d.kind.Aligned key (Cbor.write (.map entries)) entries := by
  have hsound : (Shaped.shape d.kind.Body).Sound true = true := Recoverable.sound
  have hbudget : (Shaped.shape d.kind.Body).budget ≤ Cbor.maxDepth := Recoverable.budget_le
  have hlayout : ∃ v, (Shaped.shape d.kind.Body).layout v = .ok (.map layout) := ⟨_, h⟩
  obtain ⟨name, hshape⟩ := d.kind.shape_eq
  rw [hshape] at hsound hbudget hlayout
  obtain ⟨v, hv⟩ := hlayout
  obtain ⟨es, hes, heq⟩ := map_eq_ok.mp hv
  cases heq
  obtain ⟨hnodup, hfields⟩ := Bool.and_eq_true_iff.mp hsound
  refine ⟨rfl, hsize, fun e he hne => ?_⟩
  obtain ⟨key, value⟩ := e
  obtain ⟨t, ht, rfl⟩ := hentries _ he hne
  exact Cbor.inStep_of_layout hfields (of_decide_eq_true hnodup)
    (Nat.le_sub_one_of_lt (Nat.lt_of_succ_le hbudget)) hes ht (Cbor.length_write_lt he hsize)

/-! ## Fitting or rejected -/

/-- A document of a kind with a description is read, under either codec, with one that fits the keys
of the map in its place, by name only the two keys and by paths all five that it has to have and
none that is unknown; any other map is refused, and with it the document.  No map has both forms.
A binary block has to be the written form of its map, with the keys in order and every number in its
shortest form, and its fields have to keep step with the other entries (`Aligned`). -/
theorem fits_or_rejected (hkey : k.specKey? = some key)
    (htree : Block.decodeTree cid data = .ok (.map entries)) (hmem : (key, .map es) ∈ entries)
    (haligned : cid.codec = Cid.dagCbor → k.Aligned key data entries) :
    ((∃ d spec, k.decode cid data = .ok d ∧ d.spec? = some spec ∧
        spec.Fits (es.map Prod.fst)) ∨
      ∃ e, k.decode cid data = .error e ∧ e.kind = .validation) ∧
    ∀ (value : Buffered) v w, value.HasKeys (es.map Prod.fst) →
      ((Shaped.shape JsonPathSpec).read Buffered.source).run value = .ok v →
      ((Shaped.shape GenericSpec).read Buffered.source).run value ≠ .ok w := by
  refine ⟨?_, fun value v w hkeys hv => ApiSpec.not_both_of_hasKeys hkeys hv⟩
  have hsupported := Block.supported_of_decodeTree htree
  cases hdecode : k.decode cid data with
  | ok d =>
    obtain ⟨spec, hspec, hfits⟩ := fits_of_decode hkey htree hmem haligned hdecode
    exact .inl ⟨d, spec, rfl, hspec, hfits⟩
  | error e =>
    have hkind := k.fails_decode_of_supported hsupported data e hdecode
    exact .inr ⟨e, rfl, List.mem_singleton.mp hkind⟩

/-- An oracle whose description is neither by paths, for want of four keys, nor by name. -/
def sampleUnfit : List (String × Ipld) :=
  [("description", .text "d"),
    ("evaluation_api_spec", .map [("standard", .text "JSONPath"), ("url", .text "urn:x")]),
    ("project_url", .null)]

/-- A description by paths with keys missing is not taken for one by name. -/
theorem fits_or_rejected_sample : ∃ e,
    Kind.oracleConfigPrototype1.decode
      (.ofData Cid.dagCbor (Cbor.write (.map sampleUnfit))) (Cbor.write (.map sampleUnfit)) =
        .error e ∧ e.kind = .validation := by
  let cid : Cid := .ofData Cid.dagCbor (Cbor.write (.map sampleUnfit))
  let d : Document :=
    ⟨.oracleConfigPrototype1, ⟨"d", none⟩, .generic ⟨.jsonPath, .productFsv⟩⟩
  have hsize : (Cbor.write (.map sampleUnfit)).length < UInt64.size := by decide +kernel
  have hreadable : Cbor.Readable Cbor.maxDepth (.map sampleUnfit) := by
    have hspec : Ascending [("standard", Ipld.text "JSONPath"), ("url", .text "urn:x")] := by
      decide +kernel
    refine ⟨by decide +kernel, ?_⟩
    simp [Cbor.Readable, sampleUnfit, hspec]
  have htree : Block.decodeTree cid (Cbor.write (.map sampleUnfit)) = .ok (.map sampleUnfit) := by
    rw [Block.decodeTree, Block.decodeWith, if_pos (Cid.codec_ofData ..),
      Cbor.decodeTree_write hreadable hsize]
    rfl
  have hentries : ∀ e ∈ sampleUnfit, e.1 ≠ "evaluation_api_spec" →
      ∃ t, (e.1, t) ∈ [("description", Ipld.text "d"), ("project_url", .null),
        ("evaluation_api_spec", .map [("standard", .text "JSONPath"),
          ("spec_variant", .text "product-fsv")])] ∧ e.2 = t.canonical := by
    simp [sampleUnfit, Ipld.canonical]
  have haligned := aligned_of_layout (d := d) rfl hentries hsize
  have hmem : ("evaluation_api_spec", Ipld.map [("standard", .text "JSONPath"),
      ("url", .text "urn:x")]) ∈ sampleUnfit := by simp [sampleUnfit]
  obtain ⟨hread | hrejected, -⟩ :=
    fits_or_rejected (k := .oracleConfigPrototype1) rfl htree hmem fun _ => haligned
  · obtain ⟨d, spec, -, -, hfits⟩ := hread
    cases spec with
    | jsonPath spec => exact absurd (hfits.1 "date_path" (by decide)) (by decide)
    | generic spec => exact absurd ((hfits "url").mp (by decide)) (by decide)
  · exact hrejected

/-- What the fields of a series read once they are out of step: a description by name, and all of a
list of two cases but the last one.  The text that the first case ends with is the key that follows
in the map, with its head. -/
def slippedFields : List UInt8 :=
  Cbor.writeText "history_api_spec" ++
  Cbor.write (.map [("standard", .text "GraphQL"), ("spec_variant", .text "underlying-history")]) ++
  Cbor.writeText "edge_cases" ++ Cbor.writeHead .list 2 ++
  Cbor.writeHead .map 2 ++ Cbor.writeText "condition" ++ Cbor.writeText "c" ++
  Cbor.writeText "fsp_resolution" ++ Cbor.writeHead .text 17

/-- A series whose description is no description at all.  The number under the name of its source
is taken for the length of a text, which ends inside the entry that follows. -/
def slippedEntries : List (String × Ipld) :=
  [("base_case", .map [("condition", .text "c"), ("fsp_resolution", .text "r")]),
    ("description", .text "d"), ("embedded-doc", .bytes slippedFields),
    ("frequency", .text "daily"), ("fsp_type", .text "binary"),
    ("history_api_spec", .map [("condition", .text "c"), ("fsp_resolution", .text "r")]),
    ("source_name", .integer 15), ("source_uri", .text "urn:x"), ("units", .text "u")]

/-- A binary block may be read with a description by name although the map in its place has neither
of the two keys. -/
theorem not_always_fits : ¬ ∀ (k : Kind) (key : String) (cid : Cid) (data : List UInt8)
    (entries es : List (String × Ipld)) (d : Document), k.specKey? = some key →
      Block.decodeTree cid data = .ok (.map entries) → (key, .map es) ∈ entries →
      k.decode cid data = .ok d → ∃ spec, d.spec? = some spec ∧ spec.Fits (es.map Prod.fst) := by
  intro hfits
  let data := Cbor.write (.map slippedEntries)
  let cid : Cid := .ofData Cid.dagCbor data
  have hsize : data.length < UInt64.size := by decide +kernel
  have hreadable : Cbor.Readable Cbor.maxDepth (.map slippedEntries) := by
    have hcase : Ascending [("condition", Ipld.text "c"), ("fsp_resolution", .text "r")] := by
      decide +kernel
    refine ⟨by decide +kernel, ?_⟩
    simp [Cbor.Readable, slippedEntries, hcase]
  have htree : Block.decodeTree cid data = .ok (.map slippedEntries) := by
    rw [Block.decodeTree, Block.decodeWith, if_pos (Cid.codec_ofData ..),
      Cbor.decodeTree_write hreadable hsize]
    rfl
  have hrun : (Kind.outcomeSpaceTimeSeries.decode cid data).isOk = true := by decide +kernel
  obtain ⟨d, hd⟩ := exists_of_isOk hrun
  obtain ⟨spec, -, hspec⟩ := hfits .outcomeSpaceTimeSeries "history_api_spec" cid data
    slippedEntries [("condition", .text "c"), ("fsp_resolution", .text "r")] d rfl htree
    (by simp [slippedEntries]) hd
  cases spec with
  | jsonPath spec => exact absurd (hspec.1 "standard" (by decide)) (by decide)
  | generic spec => exact absurd ((hspec "condition").mp (by decide)) (by decide)

end Kind

end MarketDag
