import MarketDag.Proofs.Client.Steps
import MarketDag.Proofs.Dag.Coherence

/-!
# What is valid can be uploaded

The rules of the documents ask for what an upload needs: valid metadata are always assembled
(`Metadata.exists_assembled_of_valid`), and uploaded into memory, whatever is in there, when the
frames of their documents are not too large for the reader of archives (`Client.upload_of_valid`).
The rules do not ask for the latter: a text may be as long as it likes, so that there are valid
metadata that cannot be uploaded (`Client.not_uploaded_of_valid`).
-/

namespace MarketDag

/-! ## Assembly -/

/-- The time of a valid fallback has a canonical form. -/
theorem Fallback.hasCanonical_of_valid {f : Fallback} (h : f.violations = []) :
    f.time.HasCanonical := by
  simp only [violations, List.append_eq_nil_iff, require_eq_nil, Bool.not_eq_true',
    Instant.beforeEpoch, Instant.isFractional, decide_eq_false_iff_not, not_not] at h
  obtain ⟨⟨hepoch, hlast⟩, hwhole⟩ := h
  have hlast : f.time.date.year ≤ (9999 : Nat) := of_decide_eq_true hlast
  exact ⟨⟨by omega, hlast⟩, hwhole⟩

namespace Metadata

variable {m : Metadata}

theorem exists_assembled_of_valid (h : m.validate = .ok ()) :
    ∃ top parts, m.Assembled .full top parts := by
  have hfallback : m.oracleFallback.1.violations = [] :=
    firstViolation_eq_ok.mp (validate_eq_ok.mp h .oracleFallback)
  rw [oracleFallback_eq] at hfallback
  have htime := Fallback.hasCanonical_of_valid hfallback
  have hfull : ∀ f, (m.get f).1.kind ∈ Registry.full.kinds ∧ m.Encodable f := fun f =>
    ⟨Registry.kinds_full ▸ Kind.mem_all _, (m.encodable_iff f).mpr fun _ => htime⟩
  obtain ⟨bs, hbs⟩ := exists_assemble_iff.mpr hfull
  obtain ⟨top, parts, -, hassembled⟩ := assemble_eq_ok.mp hbs
  exact ⟨top, parts, hassembled⟩

variable {registry : Registry} {top : Block} {parts : Slots fun _ => Block}

/-- The block of the root always fits into a frame. -/
theorem Assembled.fits_top (h : m.Assembled registry top parts) : Archive.Fits top := by
  have hlength := Root.length_data_of_encode h.top_encode
  rw [Archive.Fits, List.length_append, Block.cid_of_encode h.top_encode,
    Cid.length_toBytes_ofData, Archive.maxFrame]
  omega

theorem Assembled.archive_eq (h : m.Assembled registry top parts) (hvalid : m.validate = .ok ()) :
    m.archive registry = .ok (archiveOf top parts) :=
  archive_eq_ok.mpr ⟨hvalid, _, assemble_eq_ok.mpr ⟨top, parts, rfl, h⟩, rfl⟩

end Metadata

/-! ## Frames that are too large -/

namespace Client

variable {registry : Registry} {m : Metadata} {top : Block} {parts : Slots fun _ => Block}

/-- An upload of a document that does not fit into a frame is refused. -/
theorem upload_of_not_fits (h : m.Assembled registry top parts) (hvalid : m.validate = .ok ())
    (hcount : ∀ b ∈ parts.toList, Archive.Countable b)
    (hlarge : ∃ b ∈ parts.toList, ¬ Archive.Fits b) (s : Memory) :
    ∃ size, perform (upload ⟨Memory.store, registry⟩ m) s =
      (.error (.unexpectedResponse (.badArchive (.tooLarge size))), s) := by
  have htop : Archive.Countable top := Archive.lt_of_le_maxFrame h.fits_top
  rcases Archive.ofBytes_toBytes_cases (a := Metadata.archiveOf top parts) rfl
    (List.forall_mem_cons.mpr ⟨htop, hcount⟩) with ⟨hfits, -⟩ | ⟨-, size, hread⟩
  · obtain ⟨b, hb, hlarge⟩ := hlarge
    exact absurd (hfits b (List.mem_cons_of_mem _ hb)) hlarge
  · have haccept : Memory.accept (Metadata.archiveOf top parts) = .error _ := bind_of_error hread
    refine ⟨size, ?_⟩
    rw [perform_upload, h.archive_eq hvalid]
    change perform (Memory.store.importArchive (Metadata.archiveOf top parts)) s = _
    rw [Memory.perform_importArchive, haccept]

end Client

/-! ## Long texts -/

namespace Metadata

/-- An outcome space without details that has a given description. -/
def describedSpace (description : String) : OutcomeSpace := ⟨"b", description, ⟨"c", "r"⟩, []⟩

/-- Metadata without details, whose outcome space has a given description. -/
def described (description : String) : Metadata :=
  { sample .one with outcomeSpace := ⟨⟨.outcomeSpace, describedSpace description⟩, rfl⟩ }

variable {description : String}

/-- There is no rule against a long description. -/
theorem validate_described (h : description ≠ "") : (described description).validate = .ok () := by
  have hblank : description.isEmpty = false := by simpa using h
  have hspace : (describedSpace description).violations = [] := by
    simp only [describedSpace, OutcomeSpace.violations, notBlank, hblank]
    rfl
  refine validate_eq_ok.mpr fun f => ?_
  cases f with
  | outcomeSpace => exact firstViolation_eq_ok.mpr hspace
  | _ => rfl

open Cbor in
/-- The block of an outcome space is as much longer than its description as the rest takes. -/
theorem length_described {b : Block} (h : (described description).outcomeSpace.1.encode = .ok b) :
    b.data.length = (writeText description).length + 76 := by
  obtain ⟨t, ht, -, hdata, -⟩ := Block.encode_eq_ok.mp h
  cases ht
  -- the entries of a map stand in another order, which does not change how long they are
  have hlength : (write (Ipld.map _).canonical).length = (writeHead .map 4).length + _ :=
    length_write_canonical_map [("fsp_type", .text "b"), ("description", .text description),
      ("base_case", .map [("condition", .text "c"), ("fsp_resolution", .text "r")]),
      ("edge_cases", .list [])]
  have hrest : (writeHead .map 4).length + (writeText "description").length +
      ([("fsp_type", .text "b"),
        ("base_case", .map [("condition", .text "c"), ("fsp_resolution", .text "r")]),
        ("edge_cases", .list [])].flatMap fun (e : String × Ipld) =>
          writeEntry (e.1, e.2.canonical)).length = 76 := by decide +kernel
  have hdescription : (writeEntry ("description", (Ipld.text description).canonical)).length =
      (writeText "description").length + (writeText description).length := List.length_append
  simp only [List.flatMap_cons, List.flatMap_nil, List.length_append, hdescription]
    at hlength hrest
  rw [hdata]
  refine hlength.trans ?_
  omega

/-- The other documents are those of the sample, with short blocks. -/
theorem fits_described {registry : Registry} {top : Block} {parts : Slots fun _ => Block}
    (h : (described description).Assembled registry top parts) {f : Family}
    (hf : f ≠ .outcomeSpace) : Archive.Fits (parts.get f) := by
  obtain ⟨top', parts', hpublished, hfits, -⟩ := sample_fits
  have hsame : ((described description).get f).1 = ((sample .one).get f).1 := by
    cases f with
    | outcomeSpace => exact absurd rfl hf
    | _ => rfl
  have hpart := h.part_encode f
  rw [hsame, hpublished.assembled.part_encode f] at hpart
  rw [← Except.ok.inj hpart]
  exact hfits _ (Assembled.part_mem top' parts' f)

/-- A description of four mebibytes or more makes a frame that is too large. -/
theorem upload_described (hne : description ≠ "")
    (hlong : Archive.maxFrame ≤ (Utf8.encode description).length)
    (hcount : (Utf8.encode description).length < 2 ^ 63) (s : Memory) :
    ∃ size, perform (Client.upload ⟨Memory.store, .full⟩ (described description)) s =
      (.error (.unexpectedResponse (.badArchive (.tooLarge size))), s) := by
  have hvalid := validate_described hne
  obtain ⟨top, parts, h⟩ := exists_assembled_of_valid hvalid
  have hencode := h.part_encode .outcomeSpace
  have hspace : ((parts.get .outcomeSpace).cid.toBytes ++ (parts.get .outcomeSpace).data).length =
      36 + ((Cbor.writeText description).length + 76) := by
    rw [List.length_append, Block.cid_of_encode hencode, Cid.length_toBytes_ofData,
      length_described hencode]
  have hlow : (Utf8.encode description).length ≤ (Cbor.writeText description).length := by
    rw [Cbor.writeText, List.length_append]
    exact Nat.le_add_left _ _
  have hhigh := Cbor.length_writeText_le description
  refine Client.upload_of_not_fits h hvalid (fun b hb => ?_)
    ⟨_, Slots.mem_toList.mpr ⟨.outcomeSpace, rfl⟩, ?_⟩ s
  · obtain ⟨f, rfl⟩ := Slots.mem_toList.mp hb
    -- all other documents are those of the sample, and fit
    by_cases hf : f = .outcomeSpace
    · rw [hf, Archive.Countable, hspace, UInt64.size]
      omega
    · exact Archive.lt_of_le_maxFrame (fits_described h hf)
  · rw [Archive.Fits, hspace]
    omega

/-- Metadata with a description of four mebibytes. -/
def overlong : Metadata := described (String.ofList (List.replicate Archive.maxFrame 'a'))

end Metadata

/-! ## Uploads -/

namespace Client

/-- Valid metadata are assembled.  They are uploaded under their root, whatever is in the store, if
the frame of no document, its identifier and its data, is larger than a reader of archives takes;
otherwise they are refused as an archive that cannot be read, and the store is left alone. -/
theorem upload_of_valid {m : Metadata} (hvalid : m.validate = .ok ()) :
    ∃ (top : Block) (parts : Slots fun _ => Block),
      m.assemble .full = .ok (top :: parts.toList) ∧ ∀ s : Memory,
      ((∀ b ∈ parts.toList, (b.cid.toBytes ++ b.data).length ≤ Archive.maxFrame) →
        perform (upload ⟨Memory.store, .full⟩ m) s =
          (.ok top.cid, s.insertAll (top :: parts.toList))) ∧
      ((∀ b ∈ parts.toList, Archive.Countable b) →
        (∃ b ∈ parts.toList, Archive.maxFrame < (b.cid.toBytes ++ b.data).length) →
        ∃ e, perform (upload ⟨Memory.store, .full⟩ m) s = (.error e, s) ∧
          e.kind = .transportFormat) := by
  obtain ⟨top, parts, h⟩ := Metadata.exists_assembled_of_valid hvalid
  refine ⟨top, parts, Metadata.assemble_eq_ok.mpr ⟨top, parts, rfl, h⟩, fun s => ⟨?_, ?_⟩⟩
  · intro hparts
    have hfits : ∀ b ∈ top :: parts.toList, Archive.Fits b :=
      List.forall_mem_cons.mpr ⟨h.fits_top, hparts⟩
    exact upload_of_fits ⟨hvalid, h, rfl, fun b hb => (hfits b hb).addressable⟩ hfits s
  · rintro hcount ⟨b, hb, hlarge⟩
    obtain ⟨size, hupload⟩ :=
      upload_of_not_fits h hvalid hcount ⟨b, hb, Nat.not_le.mpr hlarge⟩ s
    exact ⟨_, hupload, rfl⟩

theorem upload_of_valid_sample : (Metadata.sample .one).validate = .ok () ∧
    ∃ top bs, (Metadata.sample .one).assemble .full = .ok (top :: bs) ∧ bs.length = 4 ∧
      perform (upload ⟨Memory.store, .full⟩ (Metadata.sample .one)) {} =
        (.ok top.cid, Memory.insertAll {} (top :: bs)) := by
  have hvalid := Metadata.validate_sample .one
  obtain ⟨top, parts, hassemble, hupload⟩ := upload_of_valid hvalid
  obtain ⟨top', parts', hpublished, hfits, -⟩ := Metadata.sample_fits
  have hsame := hassemble.symm.trans
    (Metadata.assemble_eq_ok.mpr ⟨top', parts', rfl, hpublished.assembled⟩)
  have hparts : ∀ b ∈ parts.toList, Archive.Fits b := by
    rw [(List.cons.inj (Except.ok.inj hsame)).2]
    exact (List.forall_mem_cons.mp hfits).2
  exact ⟨hvalid, top, _, hassemble, rfl, (hupload {}).1 hparts⟩

/-- There are valid metadata that cannot be uploaded, whatever is in the store. -/
theorem not_uploaded_of_valid : Metadata.overlong.validate = .ok () ∧ ∀ s : Memory,
    ∃ e, perform (upload ⟨Memory.store, .full⟩ Metadata.overlong) s = (.error e, s) ∧
      e.kind = .transportFormat := by
  have hlength (n : Nat) : (Utf8.encode (String.ofList (List.replicate n 'a'))).length = n := by
    have hone : (Utf8.encodeChar 'a').length = 1 := rfl
    rw [Utf8.encode, String.toList_ofList, List.length_flatMap, List.map_replicate,
      List.sum_replicate_nat, hone, Nat.mul_one]
  have hne : String.ofList (List.replicate Archive.maxFrame 'a') ≠ "" := by
    intro hempty
    have hnone := hlength Archive.maxFrame
    rw [hempty] at hnone
    cases hnone
  refine ⟨Metadata.validate_described hne, fun s => ?_⟩
  obtain ⟨size, hupload⟩ := Metadata.upload_described hne (hlength _).ge
    (by rw [hlength]; decide) s
  exact ⟨_, hupload, rfl⟩

end Client

end MarketDag
