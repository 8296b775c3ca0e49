import MarketDag.Proofs.Ipld.Canonical
import MarketDag.Proofs.Json.Record
import MarketDag.Proofs.Shape.Buffered
import MarketDag.Proofs.Shape.Origin

/-!
# Entries of objects

A tree, a record and a value of any shape are read from one and the same JSON value.  So the
entries of an object that is read as a map stand for those of the map (`tree_eq_map`), the field of
a key is read from the value whose tree the map has under that key (`madeFrom_of_decode`), and what
is buffered for the object holds the entries of the map (`holds_of_buffered`).
-/

namespace MarketDag.Json

/-! ## Maps -/

/-- The entries of a map are those of the object that it is read from, put into their places. -/
theorem treeEntries_eq_ok {before es : List (String × Ipld)} {entries : List (String × Json)}
    (h : treeEntries before entries = .ok es) :
    ∃ ts, List.Forall₂ (fun e t => t.1 = e.1 ∧ e.2.tree = .ok t.2) entries ts ∧
      es.Perm (ts ++ before) := by
  induction entries generalizing before with
  | nil =>
    cases h
    exact ⟨[], .nil, .refl _⟩
  | cons e entries ih =>
    obtain ⟨t, ht, h⟩ := bind_eq_ok.mp h
    split at h
    · cases h
    · obtain ⟨ts, hts, hperm⟩ := ih h
      have hplace := insertEntry_perm textBefore (e.1, t) before
      refine ⟨(e.1, t) :: ts, .cons ⟨rfl, ht⟩ hts, hperm.trans ?_⟩
      exact (hplace.append_left ts).trans List.perm_middle

/-- A map is read from a closed object that stands for no link and no bytes. -/
theorem tree_eq_map {value : Json} {es : List (String × Ipld)} (h : value.tree = .ok (.map es)) :
    ∃ entries ts, value = .object entries true ∧ reserved? entries = .ok none ∧
      List.Forall₂ (fun e t => t.1 = e.1 ∧ e.2.tree = .ok t.2) entries ts ∧ es.Perm ts := by
  cases value with
  | list items closed =>
    obtain ⟨ts, -, h⟩ := bind_eq_ok.mp h
    split at h <;> cases h
  | object entries closed =>
    -- an object with a reserved key is a link or bytes, and no map
    obtain ⟨r, hreserved, h⟩ := bind_eq_ok.mp h
    cases r with
    | some r =>
      cases r with
      | link cid =>
        obtain ⟨_, -, h⟩ := bind_eq_ok.mp h
        cases h
      | bytes b =>
        obtain ⟨_, -, h⟩ := bind_eq_ok.mp h
        cases h
    | none =>
      obtain ⟨es', hes, h⟩ := bind_eq_ok.mp h
      cases closed with
      | false => cases h
      | true =>
        cases h
        obtain ⟨ts, hts, hperm⟩ := treeEntries_eq_ok hes
        rw [List.append_nil] at hperm
        exact ⟨entries, ts, rfl, hreserved, hts, hperm⟩
  | _ => cases h

/-! ## Values of any shape -/

/-- What is buffered for a value that is read as a tree shows the tree. -/
theorem shows_of_buffered {value : Json} {t : Ipld} {b : Buffered} (ht : value.tree = .ok t)
    (h : value.buffered = .ok b) : Shows t b := by
  cases value with
  | list items closed =>
    obtain ⟨ts, -, ht⟩ := bind_eq_ok.mp ht
    obtain ⟨values, -, h⟩ := bind_eq_ok.mp h
    cases closed <;> cases ht
    cases h
    exact .list ts values
  | object entries closed =>
    obtain ⟨r, hreserved, ht⟩ := bind_eq_ok.mp ht
    -- both readers look at the reserved key first and find the same there
    rw [buffered, bind_of_ok hreserved] at h
    obtain _ | cid | bytes := r
    · obtain ⟨es, -, ht⟩ := bind_eq_ok.mp ht
      obtain ⟨values, -, h⟩ := bind_eq_ok.mp h
      cases closed <;> cases ht
      cases h
      exact .map es values
    · cases h
    · obtain ⟨_, -, ht⟩ := bind_eq_ok.mp ht
      obtain ⟨_, -, h⟩ := bind_eq_ok.mp h
      cases ht
      cases h
      exact .bytes bytes
  | broken => cases ht
  | _ =>
    cases ht
    cases h
    constructor

theorem forall₂_of_bufferedEntries {entries : List (String × Json)}
    {ts : List (String × Ipld)} {values : List (Buffered × Buffered)}
    (hts : List.Forall₂ (fun e t => t.1 = e.1 ∧ e.2.tree = .ok t.2) entries ts)
    (h : bufferedEntries entries = .ok values) :
    List.Forall₂ (fun e v => v.1 = .text e.1 ∧ Shows e.2 v.2) ts values := by
  induction hts generalizing values with
  | nil =>
    cases h
    exact .nil
  | cons head _ ih =>
    obtain ⟨hkey, ht⟩ := head
    obtain ⟨value, hvalue, h⟩ := bind_eq_ok.mp h
    obtain ⟨values', hvalues, h⟩ := bind_eq_ok.mp h
    cases h
    exact .cons ⟨congrArg Buffered.text hkey.symm, shows_of_buffered ht hvalue⟩ (ih hvalues)

/-- What is buffered for an object that is read as a map holds the entries of the map. -/
theorem holds_of_buffered {value : Json} {es : List (String × Ipld)} {b : Buffered}
    (htree : value.tree = .ok (.map es)) (h : value.buffered = .ok b) : b.Holds Shows es := by
  obtain ⟨entries, ts, rfl, hreserved, hts, hperm⟩ := tree_eq_map htree
  rw [buffered, bind_of_ok hreserved] at h
  obtain ⟨values, hvalues, h⟩ := bind_eq_ok.mp h
  cases h
  exact ⟨values, ts, rfl, hperm.symm, forall₂_of_bufferedEntries hts hvalues⟩

/-! ## Fields -/

section

variable {fields : Fields} {known : List String} {closed : Bool} {start last : fields.Slots}
  {entries : List (String × Json)}

/-- A field that was read stays through the entries that follow. -/
theorem readFrom_of_namedFields {key : String} {R : {α : Type} → Read α → α → Prop}
    (hstart : fields.ReadFrom source R key start)
    (h : namedFields (fields.readField source known) closed start entries = .ok last) :
    fields.ReadFrom source R key last := by
  induction entries generalizing start with
  | nil =>
    rw [namedFields] at h
    split at h
    · cases h
      exact hstart
    · cases h
  | cons e entries ih =>
    obtain ⟨slots, hfield, h⟩ := bind_eq_ok.mp h
    exact ih (hstart.of_readField (.looking Json) ⟨hfield, rfl⟩) h

/-- The field of a key is read from the value under it. -/
theorem readFrom_of_mem {e : String × Json} (he : e ∈ entries)
    (h : namedFields (fields.readField source known) closed start entries = .ok last) :
    fields.ReadFrom source (fun x a => (Outcome.looking Json).Gives e.2 x a e.2) e.1 last := by
  induction entries generalizing start with
  | nil => cases he
  | cons e' entries ih =>
    obtain ⟨slots, hfield, htail⟩ := bind_eq_ok.mp h
    rcases List.mem_cons.mp he with rfl | he
    · have hslots := fields.readFrom_of_readField (.looking Json) ⟨hfield, rfl⟩
      exact readFrom_of_namedFields hslots htail
    · exact ih he htail

end

/-- A record that is read from the text of a map is made of what was read from the values whose
trees the map has. -/
theorem madeFrom_of_decode (fields : Fields) {name key : String} {t : Ipld}
    {es : List (String × Ipld)} {bytes : List UInt8} {v : fields.Value} (hmem : (key, t) ∈ es)
    (htree : decodeTree bytes = .ok (.map es))
    (h : decode (.record name fields) bytes = .ok v) :
    ∃ value, value.tree = .ok t ∧
      fields.MadeFrom source (fun x a => (Outcome.looking Json).Gives value x a value) key v := by
  obtain ⟨value, rest, hparse, htree⟩ := read_of_readAll htree
  obtain ⟨value', rest', hparse', hread⟩ := read_of_decode h
  -- one text, parsed once: tree and record are read from the same value
  cases hparse.symm.trans hparse'
  obtain ⟨entries, ts, rfl, hreserved, hts, hperm⟩ := tree_eq_map htree
  obtain ⟨e, he, hkey, ht⟩ := exists_of_mem_forall₂ hts (hperm.mem_iff.mp hmem)
  rw [Shape.read] at hread
  obtain ⟨-, last, hlast, hfinish⟩ := record_object_eq_ok.mp hread
  have hslots := readFrom_of_mem he hlast
  rw [← hkey] at hslots
  exact ⟨e.2, ht, hslots.madeFrom hfinish⟩

end MarketDag.Json
