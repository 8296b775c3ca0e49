import MarketDag.Proofs.Cbor.Record
import MarketDag.Proofs.Dag.Documents
import MarketDag.Proofs.Json.Record
import MarketDag.Proofs.Number.Digits
import MarketDag.Proofs.Web.Url

/-!
# Bytes of two kinds

Of any two kinds of documents one has to have a key that the other does not know, so that no binary
tree and no JSON object is a document of both.  A JSON list has no keys: two texts in a list may be
the outcome of an event and an oracle's configuration or fallback as well, and nothing else may be
two documents (`Kind.ambiguous_of_decode`).
-/

namespace MarketDag

namespace Kind

/-! ## Fields -/

/-- The fields of the documents of a kind. -/
def fields (k : Kind) : Fields :=
  match Shaped.shape k.Body with
  | .record _ fields => fields
  | _ => .nil

theorem shape_eq (k : Kind) : ∃ name, Shaped.shape k.Body = .record name k.fields := by
  cases k <;> exact ⟨_, rfl⟩

/-- The fields of all documents: a key has one form wherever it stands. -/
def vocabulary : Fields :=
  ScalarSpace.fields <|
  .required "frequency" (.leaf (Choice.leaf Frequency)) <|
  .optional "history_api_spec" (Shaped.shape ApiSpec) <|
  .required "outcome" (.leaf .text) <|
  .required "observation" (Shaped.shape Observation) <|
  .optional "project_url" (.leaf .text) <|
  .required "evaluation_api_spec" (Shaped.shape ApiSpec) <|
  .required "fallback_time" (.leaf .instant) <|
  .required "fallback_fsp" (.leaf .decimal) .nil

theorem form_eq (k : Kind) :
    ∀ key ∈ k.fields.keys, k.fields.form? key = vocabulary.form? key := by
  cases k <;> simp [fields, vocabulary, Shaped.shape, Fields.keys, Fields.form?]

theorem form_unique {k l : Kind} {key : String} {f g : Form} (hf : k.fields.form? key = some f)
    (hg : l.fields.form? key = some g) : f = g := by
  rw [k.form_eq key (Fields.mem_keys_of_form hf)] at hf
  rw [l.form_eq key (Fields.mem_keys_of_form hg), hf] at hg
  exact Option.some.inj hg

theorem nodup_keys (k : Kind) : k.fields.keys.Nodup := by cases k <;> decide

theorem neededKeys_positional (k : Kind) : k.fields.neededKeys .positional = k.fields.keys := by
  cases k <;> rfl

/-- Of two kinds one has to have a key that the other does not know. -/
theorem apart_or_apart {k l : Kind} (h : k ≠ l) :
    (∃ key ∈ k.fields.requiredKeys, key ∉ l.fields.keys) ∨
      ∃ key ∈ l.fields.requiredKeys, key ∉ k.fields.keys := by
  cases k <;> cases l <;> first | exact absurd rfl h | decide

/-! ## Binary trees and objects -/

variable {k l : Kind}

/-- The value of a kind's shape in some bytes, of which a document was made. -/
theorem decodeWith_of_decodeRaw {cid : Cid} {data : List UInt8} {d : Document}
    (h : k.decodeRaw cid data = .ok d) :
    ∃ v, Block.decodeWith cid data (Cbor.decode (Shaped.shape k.Body))
      (Json.decode (Shaped.shape k.Body)) = .ok v ∧ d = ⟨k, Shaped.ofValue v⟩ := by
  obtain ⟨body, hbody, rfl⟩ := decodeRaw_eq_ok.mp h
  obtain ⟨v, hv, rfl⟩ := map_eq_ok.mp hbody
  exact ⟨v, hv, rfl⟩

/-- No binary tree is a document of two kinds. -/
theorem eq_of_decode_cbor {data : List UInt8} {v : (Shaped.shape k.Body).Value}
    {w : (Shaped.shape l.Body).Value} (hv : Cbor.decode (Shaped.shape k.Body) data = .ok v)
    (hw : Cbor.decode (Shaped.shape l.Body) data = .ok w) : k = l := by
  by_contra hne
  have hv : ∃ v, Cbor.decode (Shaped.shape k.Body) data = .ok v := ⟨v, hv⟩
  have hw : ∃ w, Cbor.decode (Shaped.shape l.Body) data = .ok w := ⟨w, hw⟩
  obtain ⟨name, hk⟩ := k.shape_eq
  obtain ⟨name', hl⟩ := l.shape_eq
  rw [hk] at hv
  rw [hl] at hw
  obtain ⟨v, hv⟩ := hv
  obtain ⟨w, hw⟩ := hw
  rcases apart_or_apart hne with ⟨key, hkey, hother⟩ | ⟨key, hkey, hother⟩
  · exact Cbor.not_both_of_required (fun _ _ _ => form_unique) hkey hother hv hw
  · exact Cbor.not_both_of_required (fun _ _ _ => form_unique) hkey hother hw hv

/-- No object is a document of two kinds. -/
theorem eq_of_read_object {entries : List (String × Json)} {closed : Bool}
    (hk : ∃ v, ((Shaped.shape k.Body).read Json.source).run (.object entries closed) = .ok v)
    (hl : ∃ w, ((Shaped.shape l.Body).read Json.source).run (.object entries closed) = .ok w) :
    k = l := by
  by_contra hne
  obtain ⟨name, hkshape⟩ := k.shape_eq
  obtain ⟨name', hlshape⟩ := l.shape_eq
  rw [hkshape] at hk
  rw [hlshape] at hl
  obtain ⟨v, hv⟩ := hk
  obtain ⟨w, hw⟩ := hl
  obtain ⟨hknown, hrequired⟩ := Json.read_object hv
  obtain ⟨hknown', hrequired'⟩ := Json.read_object hw
  -- one of the two kinds needs a key that the other does not know
  rcases apart_or_apart hne with ⟨key, hkey, hother⟩ | ⟨key, hkey, hother⟩
  · obtain ⟨e, he, rfl⟩ := List.mem_map.mp (hrequired key hkey)
    exact hother (hknown' e he)
  · obtain ⟨e, he, rfl⟩ := List.mem_map.mp (hrequired' key hkey)
    exact hother (hknown e he)

/-! ## Lists -/

/-- The items of a list that is a document of a kind are its fields, all of them, in their order. -/
theorem isField_of_read_list {items : List Json} {closed : Bool}
    (h : ∃ v, ((Shaped.shape k.Body).read Json.source).run (.list items closed) = .ok v) :
    closed = true ∧ List.Forall₂ (Json.IsField k.fields) k.fields.keys items := by
  obtain ⟨name, hshape⟩ := k.shape_eq
  rw [hshape] at h
  obtain ⟨v, hv⟩ := h
  obtain ⟨hclosed, read, left, hkeys, hitems, hleft⟩ := Json.read_list k.nodup_keys hv
  rw [k.neededKeys_positional, hkeys] at hleft
  cases left with
  | nil => exact ⟨hclosed, by rwa [hkeys, List.append_nil]⟩
  | cons key left =>
    have hmem : key ∈ read ++ key :: left := List.mem_append_right _ List.mem_cons_self
    exact absurd hmem (hleft key List.mem_cons_self)

/-- The only kind whose second field may be a value that is no text. -/
def soleKind? : Json → Option Kind
  | .null => some .oracleConfig
  | .object _ _ => some .outcomePointTimeSeries
  | .list _ _ => some .outcomePointTimeSeries
  | .integer _ => some .oracleFallback
  | .float _ => some .oracleFallback
  | _ => none

/-- The kinds that two texts may be. -/
def ofTexts : List Kind := [.outcomePointEvent, .oracleConfig, .oracleFallback]

theorem eq_or_length_eq_two {k l : Kind} (h : k.fields.keys.length = l.fields.keys.length) :
    k = l ∨ k ∈ [.outcomePointEvent, .outcomePointTimeSeries, .oracleConfig, .oracleFallback] := by
  cases k <;> cases l <;> first | exact .inl rfl | exact .inr (by decide) | cases h

theorem pair_of_forall₂ {α β : Type} {r : α → β → Prop} {a b : α} {items : List β}
    (h : List.Forall₂ r [a, b] items) : ∃ x y, items = [x, y] ∧ r a x ∧ r b y := by
  cases h with
  | cons ha h =>
    cases h with
    | cons hb h =>
      cases h
      exact ⟨_, _, rfl, ha, hb⟩

theorem second_of_event {x : Json} (h : Json.IsField outcomePointEvent.fields "outcome" x) :
    ∃ t, x = .text t :=
  Json.eq_text_of_read (h.read rfl)

theorem second_of_config {x : Json} (h : Json.IsField oracleConfig.fields "project_url" x) :
    x = .null ∨ ∃ t, x = .text t :=
  (h.null_or_read rfl).imp_right Json.eq_text_of_read

theorem second_of_series {x : Json}
    (h : Json.IsField outcomePointTimeSeries.fields "observation" x) :
    soleKind? x = some .outcomePointTimeSeries := by
  obtain ⟨v, hv⟩ := h.read rfl
  rcases Json.object_or_list_of_read hv with ⟨_, _, rfl⟩ | ⟨_, _, rfl⟩ <;> rfl

theorem second_of_fallback {x : Json} (h : Json.IsField oracleFallback.fields "fallback_fsp" x) :
    soleKind? x = some .oracleFallback ∨ ∃ t, x = .text t := by
  obtain ⟨d, hd⟩ := h.read rfl
  cases x with
  | integer n => exact .inl rfl
  | float x => exact .inl rfl
  | text t => exact .inr ⟨t, rfl⟩
  | object entries closed => exact absurd hd Json.not_decimal_of_object
  | _ => cases hd

/-- Two fields are a text and a value that is a text or tells the kind. -/
theorem items_of_two {items : List Json}
    (hkind : k ∈ [.outcomePointEvent, .outcomePointTimeSeries, .oracleConfig, .oracleFallback])
    (h : List.Forall₂ (Json.IsField k.fields) k.fields.keys items) :
    ∃ s x, items = [.text s, x] ∧ (soleKind? x = some k ∨ k ∈ ofTexts ∧ ∃ t, x = .text t) := by
  simp only [List.mem_cons, List.not_mem_nil, or_false] at hkind
  rcases hkind with rfl | rfl | rfl | rfl
  · obtain ⟨x, y, rfl, hx, hy⟩ := pair_of_forall₂ (a := "fsp_type") (b := "outcome") h
    obtain ⟨s, rfl⟩ := Json.eq_text_of_read (hx.read rfl)
    exact ⟨s, y, rfl, .inr ⟨by decide, second_of_event hy⟩⟩
  · obtain ⟨x, y, rfl, hx, hy⟩ := pair_of_forall₂ (a := "fsp_type") (b := "observation") h
    obtain ⟨s, rfl⟩ := Json.eq_text_of_read (hx.read rfl)
    exact ⟨s, y, rfl, .inl (second_of_series hy)⟩
  · obtain ⟨x, y, rfl, hx, hy⟩ := pair_of_forall₂ (a := "description") (b := "project_url") h
    obtain ⟨s, rfl⟩ := Json.eq_text_of_read (hx.read rfl)
    rcases second_of_config hy with rfl | htext
    · exact ⟨s, .null, rfl, .inl rfl⟩
    · exact ⟨s, y, rfl, .inr ⟨by decide, htext⟩⟩
  · obtain ⟨x, y, rfl, hx, hy⟩ := pair_of_forall₂ (a := "fallback_time") (b := "fallback_fsp") h
    obtain ⟨v, hv⟩ := hx.read rfl
    obtain ⟨s, hs, -⟩ := bind_eq_ok.mp hv
    obtain ⟨s, rfl⟩ := Json.eq_text_of_read ⟨s, hs⟩
    exact ⟨s, y, rfl, (second_of_fallback hy).imp_right fun htext => ⟨by decide, htext⟩⟩

/-- A list that is a document of two kinds is two texts. -/
theorem texts_of_read_list {items : List Json} {closed : Bool} (hne : k ≠ l)
    (hk : ∃ v, ((Shaped.shape k.Body).read Json.source).run (.list items closed) = .ok v)
    (hl : ∃ w, ((Shaped.shape l.Body).read Json.source).run (.list items closed) = .ok w) :
    closed = true ∧ k ∈ ofTexts ∧ l ∈ ofTexts ∧ ∃ s t, items = [.text s, .text t] := by
  obtain ⟨hclosed, hkitems⟩ := isField_of_read_list hk
  obtain ⟨-, hlitems⟩ := isField_of_read_list hl
  -- both read all the items, and kinds with as many fields have two of them
  have hlength := hkitems.length_eq.trans hlitems.length_eq.symm
  have hktwo := (eq_or_length_eq_two hlength).resolve_left hne
  have hltwo := (eq_or_length_eq_two hlength.symm).resolve_left hne.symm
  obtain ⟨s, x, rfl, hkx⟩ := items_of_two hktwo hkitems
  obtain ⟨s', x', hitems, hlx⟩ := items_of_two hltwo hlitems
  cases hitems
  rcases hkx with hkx | ⟨hkmem, t, rfl⟩
  · rcases hlx with hlx | ⟨-, t, rfl⟩
    · exact absurd (Option.some.inj (hkx.symm.trans hlx)) hne
    · cases hkx
  · rcases hlx with hlx | ⟨hlmem, -⟩
    · cases hlx
    · exact ⟨hclosed, hkmem, hlmem, s, t, rfl⟩

/-- A JSON value that is a document of two kinds is a list of two texts. -/
theorem texts_of_read {value : Json} (hne : k ≠ l)
    (hk : ∃ v, ((Shaped.shape k.Body).read Json.source).run value = .ok v)
    (hl : ∃ w, ((Shaped.shape l.Body).read Json.source).run value = .ok w) :
    k ∈ ofTexts ∧ l ∈ ofTexts ∧ ∃ s t, value = .list [.text s, .text t] true := by
  have hrecord := hk
  obtain ⟨name, hshape⟩ := k.shape_eq
  rw [hshape] at hrecord
  obtain ⟨v, hv⟩ := hrecord
  rcases Json.object_or_list_of_read hv with ⟨entries, closed, rfl⟩ | ⟨items, closed, rfl⟩
  · exact absurd (eq_of_read_object hk hl) hne
  · obtain ⟨rfl, hkmem, hlmem, s, t, rfl⟩ := texts_of_read_list hne hk hl
    exact ⟨hkmem, hlmem, s, t, rfl⟩

/-! ## Addresses and decimals -/

theorem not_alpha_of_digit {c : Char} (h : c.isDigit = true) :
    0x20 < c.toNat ∧ c.isAlpha = false := by
  obtain ⟨hlow, hhigh⟩ : 48 ≤ c.toNat ∧ c.toNat ≤ 57 := Char.isDigit_iff_toNat.mp h
  have hupper : ¬ 65 ≤ c.toNat := by omega
  have hlower : ¬ 97 ≤ c.toNat := by omega
  have hnotUpper : c.isUpper = false := decide_eq_false fun h => hupper h.1
  have hnotLower : c.isLower = false := Bool.and_eq_false_iff.mpr (.inl (decide_eq_false hlower))
  have halpha : c.isAlpha = (c.isUpper || c.isLower) := rfl
  exact ⟨by omega, by rw [halpha, hnotUpper, hnotLower]; rfl⟩

/-- No text is both a decimal and an absolute address. -/
theorem not_url_of_decimal {s : String} {d : Decimal} {url : Url} (hd : Decimal.ofText s = .ok d) :
    Url.ofText s ≠ .ok url := by
  intro hurl
  obtain ⟨c, rest, hs, hc⟩ := Decimal.canBegin_of_ofText hd
  have hfirst : 0x20 < c.toNat ∧ c.isAlpha = false := by
    rcases hc with hdigit | rfl | rfl | rfl
    · exact not_alpha_of_digit hdigit
    · decide
    · decide
    · decide
  rw [Url.ofText, hs, Url.ofChars_of_not_alpha hfirst.1 hfirst.2] at hurl
  cases hurl

/-- Two texts are no fallback and no valid configuration of an oracle at once: the second one would
be a decimal and an address. -/
theorem not_config_of_fallback {s t : String} {v : (Shaped.shape OracleConfig).Value}
    {w : (Shaped.shape Fallback).Value}
    (hv : ((Shaped.shape OracleConfig).read Json.source).run
      (.list [.text s, .text t] true) = .ok v)
    (hw : ((Shaped.shape Fallback).read Json.source).run
      (.list [.text s, .text t] true) = .ok w)
    (hvalid : (Shaped.ofValue v : OracleConfig).violations = []) : False := by
  have hconfig : ((Shaped.shape OracleConfig).read Json.source).run
      (.list [.text s, .text t] true) = .ok (s, some t, ()) := rfl
  cases hconfig.symm.trans hv
  obtain ⟨-, hurl⟩ := List.append_eq_nil_iff.mp hvalid
  -- an address begins with the letters of a scheme, and a decimal with none
  obtain ⟨-, -, url, hurl⟩ := validUrl_eq_nil.mp hurl
  obtain ⟨-, hitems⟩ := isField_of_read_list (k := .oracleFallback) ⟨w, hw⟩
  obtain ⟨x, y, hitems, -, hy⟩ :=
    pair_of_forall₂ (a := "fallback_time") (b := "fallback_fsp") hitems
  cases hitems
  obtain ⟨d, hd⟩ := hy.read rfl
  exact not_url_of_decimal (mapError_eq_ok.mp hd) hurl

/-! ## Two kinds -/

/-- Bytes that are documents of two kinds are a JSON list of two texts, taken for the outcome of an
event and for an oracle's configuration or fallback. -/
theorem ambiguous_of_decode {cid : Cid} {data : List UInt8} {d e : Document}
    (hk : k.decode cid data = .ok d) (hl : l.decode cid data = .ok e) (hne : k ≠ l) :
    cid.codec = Cid.dagJson ∧
    (∃ s t rest, Json.parse data = (.list [.text s, .text t] true, some rest)) ∧
    (k = .outcomePointEvent ∧ l ∈ [.oracleConfig, .oracleFallback] ∨
      l = .outcomePointEvent ∧ k ∈ [.oracleConfig, .oracleFallback]) := by
  have hkvalid := (decode_eq_ok.mp hk).2
  have hlvalid := (decode_eq_ok.mp hl).2
  obtain ⟨v, hv, rfl⟩ := decodeWith_of_decodeRaw (decode_eq_ok.mp hk).1
  obtain ⟨w, hw, rfl⟩ := decodeWith_of_decodeRaw (decode_eq_ok.mp hl).1
  unfold Block.decodeWith at hv hw
  by_cases hcbor : cid.codec = Cid.dagCbor
  · rw [if_pos hcbor] at hv hw
    exact absurd (eq_of_decode_cbor (mapError_eq_ok.mp hv) (mapError_eq_ok.mp hw)) hne
  · rw [if_neg hcbor] at hv hw
    by_cases hjson : cid.codec = Cid.dagJson
    · rw [if_pos hjson] at hv hw
      obtain ⟨value, rest, hparse, hv⟩ := Json.read_of_decode (mapError_eq_ok.mp hv)
      obtain ⟨value', rest', hparse', hw⟩ := Json.read_of_decode (mapError_eq_ok.mp hw)
      -- one text, parsed once, is read as both documents
      cases hparse.symm.trans hparse'
      obtain ⟨hkmem, hlmem, s, t, rfl⟩ := texts_of_read hne ⟨v, hv⟩ ⟨w, hw⟩
      refine ⟨hjson, ⟨s, t, rest, hparse⟩, ?_⟩
      simp only [ofTexts, List.mem_cons, List.not_mem_nil, or_false] at hkmem hlmem
      rcases hkmem with rfl | rfl | rfl <;> rcases hlmem with rfl | rfl | rfl
      · exact absurd rfl hne
      · exact .inl ⟨rfl, by decide⟩
      · exact .inl ⟨rfl, by decide⟩
      · exact .inr ⟨rfl, by decide⟩
      · exact absurd rfl hne
      · -- a decimal is no address, so configuration and fallback exclude each other
        exact (not_config_of_fallback hv hw (firstViolation_eq_ok.mp hkvalid)).elim
      · exact .inr ⟨rfl, by decide⟩
      · exact (not_config_of_fallback hw hv (firstViolation_eq_ok.mp hlvalid)).elim
      · exact absurd rfl hne
    · rw [if_neg hjson] at hv
      cases hv

/-! ### Samples -/

/-- A JSON list of two texts without characters that need an escape. -/
def twoTexts (s t : String) : List UInt8 := Utf8.encode s!"[\"{s}\",\"{t}\"]"

/-- The block identifier of JSON bytes. -/
abbrev jsonCid (data : List UInt8) : Cid := .ofData Cid.dagJson data

theorem exists_of_isOk {ε α : Type} {x : Except ε α} (h : x.isOk = true) : ∃ a, x = .ok a := by
  cases x with
  | ok a => exact ⟨a, rfl⟩
  | error e => cases h

/-- Two texts that are the outcome of an event and a fallback. -/
theorem ambiguous_sample : ∃ data d e,
    outcomePointEvent.decode (jsonCid data) data = .ok d ∧
    oracleFallback.decode (jsonCid data) data = .ok e ∧
    ∃ s t rest, Json.parse data = (.list [.text s, .text t] true, some rest) := by
  let data := twoTexts "2025-01-15T00:00:00Z" "1.5"
  have hevent : (outcomePointEvent.decode (jsonCid data) data).isOk = true := by decide +kernel
  have hfallback : (oracleFallback.decode (jsonCid data) data).isOk = true := by decide +kernel
  obtain ⟨d, hd⟩ := exists_of_isOk hevent
  obtain ⟨e, he⟩ := exists_of_isOk hfallback
  exact ⟨data, d, e, hd, he, (ambiguous_of_decode hd he (by decide)).2.1⟩

/-- Bytes may be valid documents of two kinds. -/
theorem not_exclusive : ¬ ∀ (cid : Cid) (data : List UInt8) (k l : Kind) (d e : Document),
    k.decode cid data = .ok d → l.decode cid data = .ok e → k = l := by
  intro hexclusive
  let data := twoTexts "binary" "urn:x"
  have hevent : (outcomePointEvent.decode (jsonCid data) data).isOk = true := by decide +kernel
  have hconfig : (oracleConfig.decode (jsonCid data) data).isOk = true := by decide +kernel
  obtain ⟨d, hd⟩ := exists_of_isOk hevent
  obtain ⟨e, he⟩ := exists_of_isOk hconfig
  exact absurd (hexclusive _ data _ _ d e hd he) (by decide)

end Kind

end MarketDag
