import MarketDag.Json.Writer
import MarketDag.Proofs.Dag.Exclusive
import MarketDag.Proofs.Dag.Failures
import MarketDag.Proofs.Dag.Root
import MarketDag.Proofs.Json.Faithful

/-!
# Blocks of both codecs

A value may be kept as a binary block or as the JSON text of its canonical tree.  Both are read back
as the same value (`Block.decode_text`), and neither is a document of another kind
(`Kind.eq_of_decodeRaw`), so that it does not matter in which form documents and roots are kept
(`Block.codecs_agree`).
-/

namespace MarketDag

/-! ## Texts -/

namespace Json

theorem writeTree_eq_some {t : Ipld} {text : String} :
    writeTree t = some text ↔ t.isFinite = true ∧ String.ofList (write t) = text := by
  unfold writeTree
  split <;> simp [*]

end Json

namespace Block

variable {α : Type} [Shaped α]

theorem canonical_eq_ok {a : α} {tree : Ipld} :
    canonical a = .ok tree ↔ ∃ t, layout a = .ok t ∧ t.canonical = tree := by
  unfold canonical
  cases layout a <;> simp

variable [Recoverable α] {a : α} {tree : Ipld}

/-- The canonical tree of a value has a text. -/
theorem exists_text (h : canonical a = .ok tree) : ∃ text, Json.writeTree tree = some text := by
  obtain ⟨t, ht, rfl⟩ := canonical_eq_ok.mp h
  exact ⟨_, Json.writeTree_eq_some.mpr ⟨Shape.isFinite_layout Recoverable.sound ht, rfl⟩⟩

/-- The canonical tree of a value has a block. -/
theorem exists_encode_of_canonical (h : canonical a = .ok tree) :
    ∃ b, encode a = .ok b ∧ b.data = Cbor.write tree := by
  obtain ⟨t, ht, rfl⟩ := canonical_eq_ok.mp h
  obtain ⟨b, hb⟩ := (exists_encode_iff a).mpr ⟨t, ht⟩
  obtain ⟨t', ht', -, hdata, -⟩ := encode_eq_ok.mp hb
  cases ht.symm.trans ht'
  exact ⟨b, hb, hdata⟩

/-- A value is read, with its decimals in canonical form, from the text of every tree that stands
for it. -/
theorem decode_text_of_writes (hdepth : (Shaped.shape α).height < Json.maxDepth)
    (h : (Shaped.shape α).Writes (Shaped.toValue a) tree)
    (ha : (Shaped.shape α).Unreserved (Shaped.toValue a)) {text : String}
    (htext : Json.writeTree tree = some text) {cid : Cid} (hcid : cid.codec = Cid.dagJson) :
    decode α cid (Utf8.encode text) = .ok (Shaped.normal a) := by
  obtain ⟨-, rfl⟩ := Json.writeTree_eq_some.mp htext
  have hread := Json.decode_of_writes Recoverable.sound hdepth h ha
  have hcbor : cid.codec ≠ Cid.dagCbor := by
    rw [hcid]
    decide
  rw [decode, decodeWith, if_neg hcbor, if_pos hcid, Json.encode_ofList, hread]
  rfl

/-- The text of the canonical tree of a value is read as the value, with its decimals in canonical
form. -/
theorem decode_text (hdepth : (Shaped.shape α).height < Json.maxDepth) (h : canonical a = .ok tree)
    (ha : (Shaped.shape α).Unreserved (Shaped.toValue a)) {text : String}
    (htext : Json.writeTree tree = some text) {cid : Cid} (hcid : cid.codec = Cid.dagJson) :
    decode α cid (Utf8.encode text) = .ok (Shaped.normal a) := by
  obtain ⟨t, ht, rfl⟩ := canonical_eq_ok.mp h
  exact decode_text_of_writes hdepth (Shape.writes_canonical Recoverable.sound ht) ha htext hcid

end Block

/-! ## Kinds -/

namespace Kind

/-- What is a document of one kind as a binary tree or as a JSON object is none of another one,
whether it keeps the rules or not. -/
theorem eq_of_decodeRaw {cid : Cid} {data : List UInt8} {k l : Kind} {d e : Document}
    (hobject : cid.codec = Cid.dagJson →
      ∃ entries closed rest, Json.parse data = (.object entries closed, rest))
    (hk : k.decodeRaw cid data = .ok d) (hl : l.decodeRaw cid data = .ok e) : k = l := by
  obtain ⟨v, hv, -⟩ := decodeWith_of_decodeRaw hk
  obtain ⟨w, hw, -⟩ := decodeWith_of_decodeRaw hl
  rcases Block.decodeWith_both hv hw with ⟨-, hv, hw⟩ | ⟨hcid, hv, hw⟩
  · exact eq_of_decode_cbor hv hw
  · obtain ⟨entries, closed, rest?, hparse⟩ := hobject hcid
    obtain ⟨value, rest, hvalue, hv⟩ := Json.read_of_decode hv
    obtain ⟨value', rest', hvalue', hw⟩ := Json.read_of_decode hw
    cases hvalue.symm.trans hparse
    cases hvalue'.symm.trans hparse
    exact eq_of_read_object ⟨v, hv⟩ ⟨w, hw⟩

end Kind

/-! ## Documents -/

namespace Document

theorem height_lt (k : Kind) : (Shaped.shape k.Body).height < Json.maxDepth := by
  cases k <;> decide

theorem canonical_eq_map {d : Document} {tree : Ipld} (h : d.canonical = .ok tree) :
    ∃ entries, tree = .map entries := by
  obtain ⟨t, ht, rfl⟩ := Block.canonical_eq_ok.mp h
  obtain ⟨name, hshape⟩ := d.kind.shape_eq
  have hmap : ∀ (shape : Shape) (v : shape.Value), shape = .record name d.kind.fields →
      shape.layout v = .ok t → ∃ es, t = .map es := by
    rintro shape v rfl hlayout
    obtain ⟨es, -, rfl⟩ := map_eq_ok.mp hlayout
    exact ⟨es, rfl⟩
  obtain ⟨es, rfl⟩ := hmap _ _ hshape ht
  obtain ⟨sorted, hsorted, -⟩ := Ipld.canonical_map es
  exact ⟨sorted, hsorted⟩

section Both

variable {d : Document} {tree : Ipld} (h : d.canonical = .ok tree)

include h

/-- The text of a document's canonical tree is that of a JSON object. -/
theorem parse_text {text : String} (htext : Json.writeTree tree = some text) :
    ∃ entries, Json.parse (Utf8.encode text) = (.object entries true, some []) := by
  obtain ⟨entries, rfl⟩ := canonical_eq_map h
  obtain ⟨t, ht, hcanonical⟩ := Block.canonical_eq_ok.mp h
  obtain ⟨-, rfl⟩ := Json.writeTree_eq_some.mp htext
  have hlinked :=
    (Shaped.shape d.kind.Body).layout_hereditary Ipld.hereditary_linkedWithin Recoverable.sound ht
  rw [hcanonical] at hlinked
  have hparse := Json.parse_write hlinked (height_lt d.kind)
  rw [Json.ofTree_map] at hparse
  rw [Json.encode_ofList]
  exact ⟨_, hparse⟩

theorem decodeRaw_text (hd : d.Unreserved) {text : String}
    (htext : Json.writeTree tree = some text) {cid : Cid} (hcid : cid.codec = Cid.dagJson) :
    d.kind.decodeRaw cid (Utf8.encode text) = .ok d.normal := by
  rw [Kind.decodeRaw, Block.decode_text (height_lt d.kind) h hd.shape htext hcid]
  rfl

/-- As documents of its kind, the block of a document and the text of its canonical tree have one
outcome. -/
theorem decode_text_eq (hd : d.Unreserved) {text : String} (htext : Json.writeTree tree = some text)
    {cid : Cid} (hcid : cid.codec = Cid.dagJson) {b : Block} (hb : d.encode = .ok b)
    (hsize : b.Addressable) :
    d.kind.decode cid (Utf8.encode text) = d.kind.decode b.cid b.data := by
  rw [Kind.decode, Kind.decode, decodeRaw_text h hd htext hcid, decodeRaw_encode hb hsize]

/-- As documents of any kind, the block of a document and the text of its canonical tree have the
same outcome. -/
theorem sameOutcome_decode (hd : d.Unreserved) {text : String}
    (htext : Json.writeTree tree = some text) {cid : Cid} (hcid : cid.codec = Cid.dagJson)
    {b : Block} (hb : d.encode = .ok b) (hsize : b.Addressable) (k : Kind) :
    SameOutcome (k.decode cid (Utf8.encode text)) (k.decode b.cid b.data) := by
  have hjson := decodeRaw_text h hd htext hcid
  have hcbor := decodeRaw_encode hb hsize
  have hcodec := Block.codec_of_encode hb
  by_cases hk : k = d.kind
  · rw [hk, decode_text_eq h hd htext hcid hb hsize]
    exact .refl _
  -- as documents of another kind both are refused, for their form
  obtain ⟨entries, hparse⟩ := parse_text h htext
  refine .of_fails
    (Kind.fails_decode_of_supported k (Cid.ensureSupported_eq_ok.mpr (.inr hcid)) _)
    (Kind.fails_decode_of_supported k (Cid.ensureSupported_eq_ok.mpr (.inl hcodec)) _) ?_ ?_
  · intro e he
    have hsame := Kind.eq_of_decodeRaw (fun _ => ⟨_, _, _, hparse⟩)
      (Kind.decode_eq_ok.mp he).1 hjson
    exact hk hsame
  · intro e he
    have hobject : b.cid.codec ≠ Cid.dagJson := by
      rw [hcodec]
      decide
    have hsame := Kind.eq_of_decodeRaw (fun hjson => absurd hjson hobject)
      (Kind.decode_eq_ok.mp he).1 hcbor
    exact hk hsame

end Both

end Document

/-- The two codecs carry the same documents and the same roots.  A document with a canonical tree,
whose headers are without the reserved key, has a block and a text; both are read as the same
document, and it has the values of the original.  With the rules checked they have one outcome as
documents of this kind, and the same as documents of another.  A root, whatever it links to, is read
back from both. -/
theorem Block.codecs_agree :
    (∀ (d : Document) (tree : Ipld), d.canonical = .ok tree → d.Unreserved →
      (Cbor.write tree).length < UInt64.size →
      ∃ b text d', d.encode = .ok b ∧ Json.writeTree tree = some text ∧ d'.Same d ∧
        d.kind.decodeRaw b.cid b.data = .ok d' ∧
        ∀ cid : Cid, cid.codec = Cid.dagJson →
          d.kind.decodeRaw cid (Utf8.encode text) = .ok d' ∧
          d.kind.decode cid (Utf8.encode text) = d.kind.decode b.cid b.data ∧
          ∀ k : Kind, SameOutcome (k.decode cid (Utf8.encode text)) (k.decode b.cid b.data)) ∧
    ∀ r : Root, ∃ tree b text, canonical r = .ok tree ∧ encode r = .ok b ∧
      Json.writeTree tree = some text ∧ decode Root b.cid b.data = .ok r ∧
      ∀ cid : Cid, cid.codec = Cid.dagJson → decode Root cid (Utf8.encode text) = .ok r := by
  constructor
  · intro d tree h hd hsize
    obtain ⟨b, hb, hdata⟩ := exists_encode_of_canonical h
    obtain ⟨text, htext⟩ := exists_text h
    rw [← hdata] at hsize
    exact ⟨b, text, d.normal, hb, htext, d.same_normal, Document.decodeRaw_encode hb hsize,
      fun cid hcid => ⟨Document.decodeRaw_text h hd htext hcid,
        Document.decode_text_eq h hd htext hcid hb hsize,
        Document.sameOutcome_decode h hd htext hcid hb hsize⟩⟩
  · intro r
    -- a root has no instants, and so always a tree
    obtain ⟨t, ht⟩ := Shape.exists_layout (Shaped.shape Root) (by decide) (Shaped.toValue r)
    have h : canonical r = .ok t.canonical := canonical_eq_ok.mpr ⟨t, ht, rfl⟩
    obtain ⟨b, hb⟩ := Root.exists_encode r
    obtain ⟨text, htext⟩ := exists_text h
    refine ⟨t.canonical, b, text, h, hb, htext, Root.decode_encode hb, fun cid hcid => ?_⟩
    rw [decode_text (by decide) h r.unreserved htext hcid, Root.normal_eq]

theorem Block.codecs_agree_sample : ∃ tree b text, Document.sampleOracle.canonical = .ok tree ∧
    Document.sampleOracle.Unreserved ∧ (Cbor.write tree).length < UInt64.size ∧
    Document.sampleOracle.encode = .ok b ∧ Json.writeTree tree = some text ∧
    Document.sampleOracle.kind.decode (.ofData Cid.dagJson []) (Utf8.encode text) =
      Document.sampleOracle.kind.decode b.cid b.data := by
  obtain ⟨tree, htree⟩ : ∃ tree, Document.sampleOracle.canonical = .ok tree := ⟨_, rfl⟩
  have hsize : Document.sampleOracle.canonical.toOption.all
      (fun tree => (Cbor.write tree).length < UInt64.size) = true := by decide +kernel
  rw [htree] at hsize
  have hsize : (Cbor.write tree).length < UInt64.size := of_decide_eq_true hsize
  have hunreserved : Document.sampleOracle.Unreserved := by
    intro spec hs hspec hheaders
    cases hspec
    cases hheaders
    unfold Headers.Unreserved
    decide +kernel
  obtain ⟨b, text, d', hb, htext, -, -, hjson⟩ :=
    codecs_agree.1 Document.sampleOracle tree htree hunreserved hsize
  exact ⟨tree, b, text, htree, hunreserved, hsize, hb, htext,
    (hjson (.ofData Cid.dagJson []) rfl).2.1⟩

end MarketDag
