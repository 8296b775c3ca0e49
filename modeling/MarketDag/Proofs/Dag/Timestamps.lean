import MarketDag.Proofs.Dag.Coherence
import MarketDag.Proofs.Dag.TimeText
import MarketDag.Proofs.Document.Validation
import MarketDag.Proofs.Time.Spelling

/-!
# Timestamps

A time is written in one way and read in many.  Whichever spelling of a time a fallback is written
with, in either codec, it is read as the same fallback (`Fallback.decodeRaw_of_spelling`), and this
has one block; so the block of a fallback does not tell how its time was spelt
(`Instant.written_in_one_way`).
-/

namespace MarketDag

/-! ## Fallbacks of one time -/

namespace Fallback

/-- A fallback as a document. -/
def document (time : Instant) (fsp : Decimal) : Document :=
  ⟨.oracleFallback, (⟨time, fsp⟩ : Fallback)⟩

variable {t : Instant} {fsp fsp' : Decimal} {cid : Cid} {data : List UInt8}

/-- A fallback whose time is written in any spelling is read as one of the time that is named. -/
theorem decodeRaw_of_spelling {w : Spelling} (h : WrittenIn cid data w.text fsp)
    (hw : w.Names t) : Kind.oracleFallback.decodeRaw cid data = .ok (document t fsp) :=
  decodeRaw_eq_ok_iff.mpr ⟨w.text, h, mapError_eq_ok.mpr (Spelling.ofText_eq_ok_iff.mpr hw)⟩

/-- Fallbacks of one time and one number have one block. -/
theorem exists_encode_both (ht : t.HasCanonical) (h : fsp.SameValue fsp') :
    ∃ b, (document t fsp).encode = .ok b ∧ (document t fsp').encode = .ok b := by
  have hencode : ∃ b, (document t fsp).encode = .ok b :=
    Document.exists_encode_fallback_iff.mpr ht
  obtain ⟨b, hb⟩ := hencode
  have hsame : (document t fsp).Same (document t fsp') :=
    .mk ((Fallback.same_iff _ _).mpr ⟨rfl, h⟩)
  exact ⟨b, hb, (Document.encode_eq_of_same hsame).symm.trans hb⟩

/-- A fallback of a time that can be written is valid from the start of 1970 on. -/
theorem validate_document_iff (ht : t.HasCanonical) :
    (document t fsp).validate = .ok () ↔ ¬ t.Before .epoch := by
  have hyear : t.date.year ≤ maxFallbackYear := ht.1.2
  have hrules : (document t fsp).rules = [.epoch t, .lastYear t, .wholeSecond t] := rfl
  rw [Document.validate_eq_ok_iff_rules, hrules]
  simp [Rule.Holds, hyear, ht.2]

/-- A fallback whose time is written in a spelling of a time that can be written is found valid from
the start of 1970 on. -/
theorem decode_of_spelling_iff {w : Spelling} (ht : t.HasCanonical)
    (h : WrittenIn cid data w.text fsp) (hw : w.Names t) :
    Kind.oracleFallback.decode cid data = .ok (document t fsp) ↔ ¬ t.Before .epoch := by
  rw [Kind.decode_eq_ok, validate_document_iff ht, and_iff_right (decodeRaw_of_spelling h hw)]

end Fallback

/-! ## Times -/

namespace Instant

/-- A time is written exactly if its year has four digits and it is a whole second, and then in one
way: as a text of the form `YYYY-MM-DDTHH:MM:SSZ`, which is read as this time.  A spelling, at
whichever offset and with however many zeros behind a point, is read as the one time that it names.
So fallbacks of one number that are written with two spellings of such a time are read as fallbacks
of this time, valid ones from the start of 1970 on, and have one block.  There are such fallbacks,
for every text can be written for a time in both codecs. -/
theorem written_in_one_way :
    (∀ t : Instant, (∃ tree, Leaf.layout .instant t = .ok tree) ↔
      (0 ≤ t.date.year ∧ t.date.year ≤ 9999) ∧ t.nanos = 0) ∧
    (∀ (t : Instant) (tree : Ipld), Leaf.layout .instant t = .ok tree →
      ∃ s, tree = .text s ∧ HasForm s ∧ readInstant s = .ok t) ∧
    (∀ w : Spelling, (∃ t, readInstant w.text = .ok t) ∧
      ∀ t, readInstant w.text = .ok t ↔ w.Names t) ∧
    (∀ (t : Instant) (w w' : Spelling) (cid cid' : Cid) (data data' : List UInt8)
      (fsp fsp' : Decimal), t.HasCanonical → w.Names t → w'.Names t →
      Fallback.WrittenIn cid data w.text fsp → Fallback.WrittenIn cid' data' w'.text fsp' →
      fsp.SameValue fsp' →
      Kind.oracleFallback.decodeRaw cid data = .ok (Fallback.document t fsp) ∧
      Kind.oracleFallback.decodeRaw cid' data' = .ok (Fallback.document t fsp') ∧
      (Kind.oracleFallback.decode cid data = .ok (Fallback.document t fsp) ↔ ¬ t.Before .epoch) ∧
      (Kind.oracleFallback.decode cid' data' = .ok (Fallback.document t fsp') ↔
        ¬ t.Before .epoch) ∧
      ∃ b, (Fallback.document t fsp).encode = .ok b ∧ (Fallback.document t fsp').encode = .ok b) ∧
    ∀ (time : String) (fsp : Decimal) (cid : Cid),
      (cid.codec = Cid.dagCbor →
        (Cbor.write (Fallback.textTree time fsp)).length < UInt64.size →
        Fallback.WrittenIn cid (Cbor.write (Fallback.textTree time fsp)) time fsp.normalize) ∧
      (cid.codec = Cid.dagJson → ∃ text, Json.writeTree (Fallback.textTree time fsp) = some text ∧
        Fallback.WrittenIn cid (Utf8.encode text) time fsp.normalize) := by
  have hwrite (t : Instant) : (∃ tree, Leaf.layout .instant t = .ok tree) ↔ t.HasCanonical := by
    rw [← exists_canonical_iff]
    constructor
    · rintro ⟨tree, htree⟩
      obtain ⟨s, hs, -⟩ := layout_instant htree
      exact ⟨s, hs⟩
    · rintro ⟨s, hs⟩
      exact ⟨.text s, by rw [Leaf.layout, hs]⟩
  have hread (w : Spelling) (t : Instant) : readInstant w.text = .ok t ↔ w.Names t :=
    mapError_eq_ok.trans Spelling.ofText_eq_ok_iff
  refine ⟨hwrite, fun t tree htree => ?_, fun w => ⟨?_, hread w⟩,
    fun t w w' cid cid' data data' fsp fsp' ht hw hw' h h' hfsp =>
      ⟨Fallback.decodeRaw_of_spelling h hw, Fallback.decodeRaw_of_spelling h' hw',
        Fallback.decode_of_spelling_iff ht h hw, Fallback.decode_of_spelling_iff ht h' hw',
        Fallback.exists_encode_both ht hfsp⟩,
    fun time fsp cid => ⟨Fallback.writtenIn_cbor, fun hcid => ?_⟩⟩
  · obtain ⟨s, hs, rfl⟩ := layout_instant htree
    exact ⟨s, rfl, hasForm_canonical hs, readInstant_canonical hs⟩
  · obtain ⟨t, ht, -⟩ := w.exists_ofText
    exact ⟨t, mapError_eq_ok.mpr ht⟩
  · exact ⟨_, Json.writeTree_eq_some.mpr ⟨rfl, rfl⟩, Fallback.writtenIn_json hcid⟩

/-- A quarter past midnight of a new year. -/
def newYear : Instant :=
  { epoch with date := ⟨2031, 1, 1, by decide⟩, second := 900, second_lt := by decide }

/-- The time at universal time: `2031-01-01T00:15:00Z`. -/
def newYearSpelling : Spelling :=
  ⟨newYear.date, by decide, 'T', by decide, 0, 15, 0, 0, .universal 'Z' (by decide)⟩

/-- The time at an offset, where it is still the old year: `2030-12-31t23:30:00.000-00:45`. -/
def oldYearSpelling : Spelling :=
  ⟨⟨2030, 12, 31, by decide⟩, by decide, 't', by decide, 23, 30, 0, 3, .offset '-' (by decide) 0 45⟩

/-- The two spellings of one time are read as fallbacks with one block. -/
theorem new_year_written_in_one_way :
    newYearSpelling.text = "2031-01-01T00:15:00Z" ∧
    oldYearSpelling.text = "2030-12-31t23:30:00.000-00:45" ∧
    ∃ cid data cid' data' d d' b, cid.codec = Cid.dagCbor ∧ cid'.codec = Cid.dagJson ∧
      Kind.oracleFallback.decode cid data = .ok d ∧
      Kind.oracleFallback.decode cid' data' = .ok d' ∧ d.encode = .ok b ∧ d'.encode = .ok b := by
  obtain ⟨-, -, -, hsame, hwritten⟩ := written_in_one_way
  let data := Cbor.write (Fallback.textTree newYearSpelling.text .one)
  let cid : Cid := .ofData Cid.dagCbor data
  let cid' : Cid := .ofData Cid.dagJson []
  have hsize : data.length < UInt64.size := by decide +kernel
  have hcbor := (hwritten newYearSpelling.text .one cid).1 rfl hsize
  obtain ⟨text, -, hjson⟩ := (hwritten oldYearSpelling.text .one cid').2 rfl
  have hnew : newYearSpelling.Names newYear := ⟨rfl, by decide +kernel⟩
  have hold : oldYearSpelling.Names newYear := ⟨rfl, by decide +kernel⟩
  obtain ⟨-, -, hvalid, hvalid', b, hb, hb'⟩ := hsame newYear newYearSpelling oldYearSpelling cid
    cid' data (Utf8.encode text) _ _ (by decide) hnew hold hcbor hjson (.refl _)
  have hepoch : ¬ newYear.Before .epoch := by
    rw [before_epoch_iff]
    decide
  exact ⟨by decide +kernel, by decide +kernel, cid, data, cid', Utf8.encode text, _, _, b, rfl, rfl,
    hvalid.mpr hepoch, hvalid'.mpr hepoch, hb, hb'⟩

end Instant

end MarketDag
