import MarketDag.Proofs.Dag.Variants
import MarketDag.Proofs.Number.Grammar

/-!
# Decimals in documents

A decimal is written as a text, as a whole number or as a binary number, and every source reads it
from there.  What is read is told by the form alone (`DecimalForm.exists_read_iff`): a whole number
that fits is kept as it is, and the number of a text as far as it fits
(`DecimalForm.denotes_of_read`).  So it is with the decimals of documents, whichever codec they are
read with (`Kind.decimal_of_decodeRaw`).
-/

namespace MarketDag

/-! ## Forms -/

/-- The form in which a decimal is written. -/
inductive DecimalForm where
  | text (s : String)
  | integer (n : Int)
  | float (x : Binary64)

/-- The decimal that a form is read as. -/
def DecimalForm.read : DecimalForm → Except DecodeFault Decimal
  | .text s => readDecimal s
  | .integer n => readDecimalInt n
  | .float x => readDecimalFloat x

/-- Is a decimal what a form denotes, as far as it fits? A whole number is kept as it is. -/
def DecimalForm.Denotes : DecimalForm → Decimal → Prop
  | .text s, d => Decimal.ReadAs s d
  | .integer n, d => d.value = n
  | .float x, d => Decimal.ofBinary64 x = .ok d

/-- Is a form read as a decimal? A whole number is if it fits into the mantissa. -/
def DecimalForm.Fits : DecimalForm → Prop
  | .text s => Decimal.Readable s
  | .integer n => n.natAbs < Decimal.mantissaLimit
  | .float x => ∃ d, Decimal.ofBinary64 x = .ok d

/-- A form is read exactly if it fits. -/
theorem DecimalForm.exists_read_iff {form : DecimalForm} :
    (∃ d, form.read = .ok d) ↔ form.Fits := by
  cases form with
  | text s =>
    refine Iff.trans (exists_congr fun d => ?_) Decimal.exists_ofText_iff
    exact mapError_eq_ok
  | integer n =>
    refine Iff.trans (exists_congr fun d => ?_) Decimal.exists_ofInt_iff
    exact mapError_eq_ok
  | float x => exact exists_congr fun d => mapError_eq_ok

/-- What is read is what the form denotes. -/
theorem DecimalForm.denotes_of_read {form : DecimalForm} {d : Decimal} (h : form.read = .ok d) :
    form.Denotes d := by
  cases form with
  | text s => exact Decimal.readAs_of_ofText (mapError_eq_ok.mp h)
  | integer n => exact Decimal.value_of_ofInt (mapError_eq_ok.mp h)
  | float x => exact mapError_eq_ok.mp h

/-- The form of a decimal that a tree may be. -/
def Ipld.decimalForm? : Ipld → Option DecimalForm
  | .text s => some (.text s)
  | .integer n => some (.integer n)
  | .float x => some (.float x)
  | _ => none

/-! ## Sources -/

namespace Cbor

/-- The form of a decimal that an item may be. -/
def Item.decimalForm? : Item → Option DecimalForm
  | .text s => some (.text s)
  | .integer n => some (.integer n)
  | .float x => some (.float x)
  | _ => none

/-- In a binary tree, a decimal is read from the item that stands there. -/
theorem readLeaf_decimal_eq_ok {depth : Nat} {bytes rest : List UInt8} {d : Decimal} :
    (readLeaf .decimal).run depth bytes = .ok (d, rest) ↔
      ∃ k item form, depth = k + 1 ∧ readItem k bytes = .ok (item, rest) ∧
        item.decimalForm? = some form ∧ form.read = .ok d := by
  obtain _ | k := depth
  · exact iff_of_false nofun fun ⟨k, _, _, hdepth, _⟩ => absurd hdepth k.succ_ne_zero.symm
  have hread {item : Item} {form : DecimalForm} (hitem : readItem k bytes = .ok (item, rest))
      (hform : item.decimalForm? = some form) (hd : form.read = .ok d) :
      ∃ k' item form, k + 1 = k' + 1 ∧ readItem k' bytes = .ok (item, rest) ∧
        item.decimalForm? = some form ∧ form.read = .ok d :=
    ⟨k, item, form, rfl, hitem, hform, hd⟩
  constructor
  · intro h
    obtain ⟨item, s, hitem, h⟩ := read_bind_eq_ok.mp h
    -- the items that are no form of a decimal are refused, whatever they are
    cases item with
    | text s =>
      obtain ⟨hd, rfl⟩ := ofExcept_eq_ok.mp h
      exact hread hitem rfl hd
    | integer n =>
      obtain ⟨hd, rfl⟩ := ofExcept_eq_ok.mp h
      exact hread hitem rfl hd
    | float x =>
      obtain ⟨hd, rfl⟩ := ofExcept_eq_ok.mp h
      exact hread hitem rfl hd
    | _ => cases h
  · rintro ⟨k', item, form, hdepth, hitem, hform, hd⟩
    cases hdepth
    refine read_bind_eq_ok.mpr ⟨item, rest, hitem, ?_⟩
    cases item with
    | text s =>
      cases hform
      exact ofExcept_eq_ok.mpr ⟨hd, rfl⟩
    | integer n =>
      cases hform
      exact ofExcept_eq_ok.mpr ⟨hd, rfl⟩
    | float x =>
      cases hform
      exact ofExcept_eq_ok.mpr ⟨hd, rfl⟩
    | _ => cases hform

/-- The item that is read where a form is written is that form. -/
theorem readItem_form {budget depth : Nat} {t : Ipld} {form : DecimalForm} {item : Item}
    {rest s : List UInt8} (ht : Readable budget t) (hsize : (write t).length < UInt64.size)
    (hform : t.decimalForm? = some form)
    (h : readItem depth (write t ++ rest) = .ok (item, s)) : item.decimalForm? = some form := by
  obtain _ | k := budget
  · exact ht.elim
  cases t with
  | text text =>
    rw [write] at h hsize
    cases (readItem_text depth hsize rest).symm.trans h
    exact hform
  | integer n =>
    obtain ⟨hlow, hhigh⟩ := readable_integer.mp ht
    rw [write] at h
    cases (readItem_integer hlow hhigh rest).symm.trans h
    exact hform
  | float x =>
    rw [write, List.cons_append] at h
    cases (readItem_float x rest).symm.trans h
    exact hform
  | _ => cases hform

end Cbor

namespace Json

/-- The form of a decimal that a JSON value may be. -/
def decimalForm? : Json → Option DecimalForm
  | .text s => some (.text s)
  | .integer n => some (.integer n)
  | .float x => some (.float x)
  | _ => none

/-- In JSON, a decimal is read from a text or a number. -/
theorem asLeaf_decimal_eq_ok {value : Json} {d : Decimal} : asLeaf .decimal value = .ok d ↔
    ∃ form, value.decimalForm? = some form ∧ form.read = .ok d := by
  constructor
  · intro h
    cases value with
    | text s => exact ⟨.text s, rfl, h⟩
    | integer n => exact ⟨.integer n, rfl, h⟩
    | float x => exact ⟨.float x, rfl, h⟩
    | object entries closed => exact absurd h not_decimal_of_object
    | _ => cases h
  · rintro ⟨form, hform, hd⟩
    cases value <;> cases hform <;> exact hd

/-- A form is the tree of itself alone. -/
theorem form_of_tree {value : Json} {t : Ipld} {form : DecimalForm} (ht : value.tree = .ok t)
    (hform : t.decimalForm? = some form) : value.decimalForm? = some form := by
  cases value with
  | list items closed =>
    obtain ⟨ts, -, ht⟩ := bind_eq_ok.mp ht
    cases closed <;> cases ht
    cases hform
  | object entries closed =>
    obtain ⟨r, -, ht⟩ := bind_eq_ok.mp ht
    -- neither a map, nor a link, nor bytes are a form of a decimal
    obtain _ | cid | bytes := r
    · obtain ⟨es, -, ht⟩ := bind_eq_ok.mp ht
      cases closed <;> cases ht
      cases hform
    · obtain ⟨_, -, ht⟩ := bind_eq_ok.mp ht
      cases ht
      cases hform
    · obtain ⟨_, -, ht⟩ := bind_eq_ok.mp ht
      cases ht
      cases hform
  | broken => cases ht
  | _ =>
    cases ht
    exact hform

end Json

namespace Buffered

/-- The form of a decimal that a buffered value may be. -/
def decimalForm? : Buffered → Option DecimalForm
  | .text s => some (.text s)
  | .integer n => some (.integer n)
  | .float x => some (.float x)
  | _ => none

/-- Among buffered values, a decimal is read from a text or a number. -/
theorem leaf_decimal_eq_ok {value : Buffered} {d : Decimal} : leaf .decimal value = .ok d ↔
    ∃ form, value.decimalForm? = some form ∧ form.read = .ok d := by
  constructor
  · intro h
    cases value with
    | text s => exact ⟨.text s, rfl, h⟩
    | integer n => exact ⟨.integer n, rfl, h⟩
    | float x => exact ⟨.float x, rfl, h⟩
    | _ => cases h
  · rintro ⟨form, hform, hd⟩
    cases value <;> cases hform <;> exact hd

theorem form_of_shows {t : Ipld} {value : Buffered} (h : Shows t value) :
    value.decimalForm? = t.decimalForm? := by
  cases h <;> rfl

end Buffered

/-! ## Descriptions of interfaces -/

namespace ApiSpec

/-- The scale of the times of an interface, if it is described by paths. -/
def scale? : ApiSpec → Option Decimal
  | .jsonPath spec => some spec.timestampScale
  | .generic _ => none

variable {es : List (String × Ipld)} {t : Ipld} {form : DecimalForm}

theorem scale_of_madeFrom {m : Type → Type} [Monad m] [MonadExceptOf DecodeFault m]
    {src : Source m} {R : {α : Type} → m α → α → Prop} {v : (Shaped.shape JsonPathSpec).Value}
    (hv : JsonPathSpec.fields.MadeFrom src R "timestamp_scale" v) :
    R (src.leaf .decimal) (Shaped.ofValue v : JsonPathSpec).timestampScale := by
  simp [Fields.MadeFrom] at hv
  exact hv

/-- The scale of a description is read from what is buffered under its key. -/
theorem scale_of_firstOf {value : Buffered} {v : (Shaped.shape ApiSpec).Value}
    (hvalue : value.Holds Shows es) (hmem : ("timestamp_scale", t) ∈ es)
    (hform : t.decimalForm? = some form)
    (h : firstOf "ApiSpec" ((Shaped.shape JsonPathSpec).read Buffered.source)
      ((Shaped.shape GenericSpec).read Buffered.source) value = .ok v) :
    ∃ x, (Shaped.ofValue v : ApiSpec).scale? = some x ∧ form.read = .ok x := by
  unfold firstOf at h
  split at h
  · rename_i a hfirst
    cases h
    obtain ⟨b, hshows, hmade⟩ := Buffered.madeFrom_of_holds JsonPathSpec.fields hvalue hmem hfirst
    obtain ⟨form', hform', hread⟩ := Buffered.leaf_decimal_eq_ok.mp (scale_of_madeFrom hmade).1
    rw [Buffered.form_of_shows hshows, hform] at hform'
    cases hform'
    exact ⟨_, rfl, hread⟩
  · split at h
    · -- by name there is no such key
      rename_i b hsecond
      have hkeys := (Buffered.fits_of_read hvalue.hasKeys hsecond).1 "timestamp_scale"
        (List.mem_map_of_mem hmem)
      exact absurd hkeys (by decide)
    · cases h

end ApiSpec

/-! ## Documents -/

/-- The decimal of a document that has one. -/
def Document.decimal? : Document → Option Decimal
  | ⟨.oracleFallback, f⟩ => some f.fsp
  | d => d.spec?.bind ApiSpec.scale?

theorem Document.decimal?_of_spec {d : Document} {spec : ApiSpec} (h : d.spec? = some spec) :
    d.decimal? = spec.scale? := by
  obtain ⟨k, body⟩ := d
  cases k with
  | oracleFallback => cases h
  | _ => exact congrArg (Option.bind · ApiSpec.scale?) h

namespace Kind

/-- Is a tree the decimal of a document of a kind, under a key or in the description that stands
there? -/
inductive DecimalAt (entries : List (String × Ipld)) (t : Ipld) : Kind → String → Prop where
  | fsp (hmem : ("fallback_fsp", t) ∈ entries) : DecimalAt entries t .oracleFallback "fallback_fsp"
  | scale {k : Kind} {key : String} {es : List (String × Ipld)} (hkey : k.specKey? = some key)
    (hmem : (key, .map es) ∈ entries) (hscale : ("timestamp_scale", t) ∈ es) :
    DecimalAt entries t k key

variable {k : Kind} {key : String} {cid : Cid} {data : List UInt8} {d : Document}
  {entries : List (String × Ipld)} {t : Ipld} {form : DecimalForm}

/-- The price of a fallback is read from the form that stands under its key. -/
theorem fsp_of_decodeRaw {d : Document} (hmem : ("fallback_fsp", t) ∈ entries)
    (hform : t.decimalForm? = some form)
    (htree : Block.decodeTree cid data = .ok (.map entries))
    (haligned : cid.codec = Cid.dagCbor → oracleFallback.Aligned "fallback_fsp" data entries)
    (h : oracleFallback.decodeRaw cid data = .ok d) :
    ∃ x, d.decimal? = some x ∧ form.read = .ok x := by
  have hreadable := Block.readable_of_decodeTree htree
  obtain ⟨v, hv, rfl⟩ := decodeWith_of_decodeRaw h
  rcases Block.decodeWith_both htree hv with ⟨hcbor, -, hv⟩ | ⟨-, htree, hv⟩
  · obtain ⟨rfl, hsize, hstep⟩ := haligned hcbor
    have hvalue : Cbor.Readable 254 t := hreadable.2 _ hmem
    obtain ⟨u, u', hmade⟩ := Cbor.madeFrom_of_decode (fields .oracleFallback)
      (Ascending.nodup hreadable.1) hmem hsize hstep hv
    have hmade := hmade.of_required (by decide)
    rw [Fields.MadeFrom, if_pos rfl] at hmade
    obtain ⟨k, item, form', -, hitem, hform', hread⟩ := Cbor.readLeaf_decimal_eq_ok.mp hmade
    rw [Cbor.readItem_form hvalue (Cbor.length_write_lt hmem hsize) hform hitem] at hform'
    cases hform'
    exact ⟨_, rfl, hread⟩
  · -- a text need not keep step: its value is parsed before the fields are read
    obtain ⟨value, hvalue, hmade⟩ := Json.madeFrom_of_decode (fields .oracleFallback) hmem htree hv
    have hmade := hmade.of_required (by decide)
    rw [Fields.MadeFrom, if_pos rfl] at hmade
    obtain ⟨form', hform', hread⟩ := Json.asLeaf_decimal_eq_ok.mp hmade.1
    rw [Json.form_of_tree hvalue hform] at hform'
    cases hform'
    exact ⟨_, rfl, hread⟩

/-- The decimal of a document is read from the form that stands in its place. -/
theorem decimal_of_decodeRaw (hat : DecimalAt entries t k key) (hform : t.decimalForm? = some form)
    (htree : Block.decodeTree cid data = .ok (.map entries))
    (haligned : cid.codec = Cid.dagCbor → k.Aligned key data entries)
    (h : k.decodeRaw cid data = .ok d) : ∃ x, d.decimal? = some x ∧ form.read = .ok x := by
  cases hat with
  | fsp hmem => exact fsp_of_decodeRaw hmem hform htree haligned h
  | scale hkey hmem hscale =>
    obtain ⟨spec, hspec, x, hx, hread⟩ := spec_of_decode hkey htree hmem haligned
      (P := fun spec => ∃ x, spec.scale? = some x ∧ form.read = .ok x)
      (fun value v hvalue => ApiSpec.scale_of_firstOf hvalue hscale hform) h
    exact ⟨x, (Document.decimal?_of_spec hspec).trans hx, hread⟩

/-! ## Reading -/

/-- A decimal is read, from whichever source, exactly if the text, the whole number or the binary
number that stands there fits, and what is read is told by this form alone.  A whole number fits if
the mantissa has room for it, and is kept as it is.  A text has to be a numeral, with an exponent
behind it or without; the whole part has to fit, the exponent must not be larger than the places of
a decimal are many, in either direction, and must not move the point beyond the largest number.  The
numeral is kept as far as it fits, the places that do not fit rounded half away from zero, and so is
then the number with its point moved.  So a text of this form whose exponent is no larger is read,
and nothing of it is lost, if its numeral and its number fit; with a larger exponent it is refused,
whether or not they do.  So it is with the price of a fallback and with the scale in a description
of an interface, under either codec: a document whose decimal does not fit is refused.  A binary
block has to be the written form of its map, and its fields have to keep step with the other
entries. -/
theorem decimal_as_far_as_fits :
    (∀ form : DecimalForm, (∃ x, form.read = .ok x) ↔ form.Fits) ∧
    (∀ (form : DecimalForm) (x : Decimal), form.read = .ok x → form.Denotes x) ∧
    (∀ (s : String) (a b : Decimal), Decimal.Spelled s →
      |Decimal.exponentOf s| ≤ Decimal.maxScale → a.value = Decimal.numeralOf s →
      b.value = Decimal.numeralOf s * 10 ^ Decimal.exponentOf s →
      ∃ x, (DecimalForm.text s).read = .ok x ∧
        x.value = Decimal.numeralOf s * 10 ^ Decimal.exponentOf s) ∧
    (∀ (depth : Nat) (bytes rest : List UInt8) (x : Decimal),
      (Cbor.readLeaf .decimal).run depth bytes = .ok (x, rest) ↔
      ∃ k item form, depth = k + 1 ∧ Cbor.readItem k bytes = .ok (item, rest) ∧
        item.decimalForm? = some form ∧ form.read = .ok x) ∧
    (∀ (value : Json) (x : Decimal), Json.asLeaf .decimal value = .ok x ↔
      ∃ form, value.decimalForm? = some form ∧ form.read = .ok x) ∧
    (∀ (value : Buffered) (x : Decimal), Buffered.leaf .decimal value = .ok x ↔
      ∃ form, value.decimalForm? = some form ∧ form.read = .ok x) ∧
    ∀ (k : Kind) (key : String) (cid : Cid) (data : List UInt8) (entries : List (String × Ipld))
      (t : Ipld) (form : DecimalForm), DecimalAt entries t k key →
      t.decimalForm? = some form → Block.decodeTree cid data = .ok (.map entries) →
      (cid.codec = Cid.dagCbor → k.Aligned key data entries) →
      (∀ d, k.decodeRaw cid data = .ok d → ∃ x, d.decimal? = some x ∧ form.read = .ok x) ∧
      (¬ form.Fits → ∃ e, k.decodeRaw cid data = .error e ∧ e.kind = .validation) := by
  refine ⟨fun form => DecimalForm.exists_read_iff, fun form x => DecimalForm.denotes_of_read,
    fun s a b hs hplaces ha hb => ?_, fun depth bytes rest x => Cbor.readLeaf_decimal_eq_ok,
    fun value x => Json.asLeaf_decimal_eq_ok, fun value x => Buffered.leaf_decimal_eq_ok,
    fun k key cid data entries t form hat hform htree haligned =>
      ⟨fun d => decimal_of_decodeRaw hat hform htree haligned, fun hfits => ?_⟩⟩
  · obtain ⟨x, hx, hvalue⟩ := Decimal.ofText_of_fits hs hplaces ha hb
    exact ⟨x, mapError_eq_ok.mpr hx, hvalue⟩
  · cases hdecode : k.decodeRaw cid data with
    | ok d =>
      obtain ⟨x, -, hread⟩ := decimal_of_decodeRaw hat hform htree haligned hdecode
      exact absurd (DecimalForm.exists_read_iff.mp ⟨x, hread⟩) hfits
    | error e =>
      have hkind := k.fails_decodeRaw_of_supported (Block.supported_of_decodeTree htree) data e
        hdecode
      exact ⟨e, rfl, List.mem_singleton.mp hkind⟩

/-- A fallback whose price has a zero at the end of its places. -/
def sampleFallback : List (String × Ipld) :=
  [("fallback_fsp", .text "1.50"), ("fallback_time", .text "2025-01-01T00:00:00Z")]

/-- The price of the sample is one and a half, as it is a text or a whole number elsewhere.  The
least price above zero is refused when it is written with an exponent that is too large. -/
theorem decimal_as_far_as_fits_sample :
    (∃ k item form, Cbor.readItem k [0x07] = .ok (item, []) ∧ item.decimalForm? = some form ∧
      form.Denotes ⟨false, 7, 0, by decide, by decide⟩) ∧
    (∃ form, (Json.text "1e2").decimalForm? = some form ∧ form.Fits ∧
      form.Denotes ⟨false, 100, 0, by decide, by decide⟩) ∧
    ¬ (DecimalForm.text "10e-29").Fits ∧
    (∃ form, (Buffered.integer (-7)).decimalForm? = some form ∧
      form.Denotes ⟨true, 7, 0, by decide, by decide⟩) ∧
    ∃ cid data d x, oracleFallback.decodeRaw cid data = .ok d ∧ d.decimal? = some x ∧
      Decimal.ReadAs "1.50" x := by
  obtain ⟨hfits, hdenotes, -, hcbor, hjson, hbuffered, hdocument⟩ := decimal_as_far_as_fits
  let data := Cbor.write (.map sampleFallback)
  let cid : Cid := .ofData Cid.dagCbor data
  let time : Instant := ⟨⟨2025, 1, 1, by decide⟩, 0, 0, by decide, by decide⟩
  have hsize : data.length < UInt64.size := by decide +kernel
  have hreadable : Cbor.Readable Cbor.maxDepth (.map sampleFallback) := by
    refine ⟨by decide +kernel, ?_⟩
    simp [Cbor.Readable, sampleFallback]
  have htree : Block.decodeTree cid data = .ok (.map sampleFallback) := by
    rw [Block.decodeTree, Block.decodeWith, if_pos (Cid.codec_ofData ..),
      Cbor.decodeTree_write hreadable hsize]
    rfl
  have htime : Leaf.layout .instant time = .ok (.text "2025-01-01T00:00:00Z") := by
    have hcanonical : time.canonical? = some "2025-01-01T00:00:00Z" := by decide +kernel
    rw [Leaf.layout, hcanonical]
  have hlayout : Document.layout ⟨.oracleFallback, ⟨time, .one⟩⟩ =
      .ok (.map [("fallback_time", .text "2025-01-01T00:00:00Z"),
        ("fallback_fsp", .text Decimal.one.canonicalText)]) :=
    map_eq_ok.mpr ⟨_, bind_eq_ok.mpr ⟨_, htime, rfl⟩, rfl⟩
  have hentries : ∀ e ∈ sampleFallback, e.1 ≠ "fallback_fsp" →
      ∃ t, (e.1, t) ∈ [("fallback_time", Ipld.text "2025-01-01T00:00:00Z"),
        ("fallback_fsp", .text Decimal.one.canonicalText)] ∧ e.2 = t.canonical := by
    simp [sampleFallback, Ipld.canonical]
  have haligned := aligned_of_layout hlayout hentries hsize
  have hrun : (oracleFallback.decodeRaw cid data).isOk = true := by decide +kernel
  obtain ⟨d, hd⟩ := exists_of_isOk hrun
  obtain ⟨x, hx, hread⟩ := (hdocument .oracleFallback "fallback_fsp" cid data sampleFallback
    (.text "1.50") (.text "1.50") (.fsp (by simp [sampleFallback])) rfl htree
    fun _ => haligned).1 d hd
  refine ⟨?_, ?_, fun hlarge => ?_, ?_, cid, data, d, x, hd, hx, hdenotes _ _ hread⟩
  · obtain ⟨k, item, form, -, hitem, hform, hread⟩ := (hcbor 2 [0x07] [] _).mp rfl
    exact ⟨k, item, form, hitem, hform, hdenotes _ _ hread⟩
  · obtain ⟨form, hform, hread⟩ := (hjson (.text "1e2") _).mp rfl
    exact ⟨form, hform, (hfits form).mp ⟨_, hread⟩, hdenotes _ _ hread⟩
  · obtain ⟨x, hx⟩ := (hfits _).mpr hlarge
    cases hx
  · obtain ⟨form, hform, hread⟩ := (hbuffered (.integer (-7)) _).mp rfl
    exact ⟨form, hform, hdenotes _ _ hread⟩

/-- A price with one place too many. -/
def fineText : String := "0.00000000000000000000000000005"

/-- Not all that is read is the number that is written.  Of a price with one place too many the five
in the last place is rounded up to one in the place before it, and a whole number in a JSON text
that is beyond 64 bits is taken for a binary number, which has no room for its last bit. -/
theorem not_read_exactly :
    (¬ ∀ (s : String) (x : Decimal), Json.asLeaf .decimal (.text s) = .ok x →
      x.value = Decimal.numeralOf s * 10 ^ Decimal.exponentOf s) ∧
    ¬ ∀ (n : ℕ) (x : Decimal), Json.decode (.leaf .decimal) (Utf8.encode (toString n)) = .ok x →
      x.value = n := by
  constructor
  · intro hexact
    let cs := fineText.toList.takeWhile (! Decimal.isExponentMark ·)
    have hread : Json.asLeaf .decimal (.text fineText) =
        .ok ⟨false, 1, 28, by decide, by decide⟩ := rfl
    have hsign : decide (cs.head? = some '-') = false := by decide +kernel
    have hdigits : Nat.ofDigitChars 10 (Decimal.digitsIn cs) 0 = 5 := by decide +kernel
    have hplaces : (Decimal.placesIn cs).length = 29 := by decide +kernel
    have hexponent : Decimal.exponentOf fineText = 0 := by decide +kernel
    have hnumeral : Decimal.numeralOf fineText = 5 / 10 ^ 29 := by
      change Decimal.numeral cs = _
      rw [Decimal.numeral, hsign, hdigits, hplaces]
      rfl
    have h := hexact fineText _ hread
    rw [hnumeral, hexponent] at h
    norm_num [Decimal.value, Decimal.signed] at h
  · intro hexact
    have hread : Json.decode (.leaf .decimal) (Utf8.encode (toString (2 ^ 64 + 1))) =
        .ok (⟨false, 2 ^ 64, 0, by decide, by decide⟩ : Decimal) := rfl
    have h := hexact (2 ^ 64 + 1) _ hread
    norm_num [Decimal.value, Decimal.signed] at h

end Kind

end MarketDag
