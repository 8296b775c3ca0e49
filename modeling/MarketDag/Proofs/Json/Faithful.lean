import MarketDag.Json.Reader
import MarketDag.Proofs.Address.CidText
import MarketDag.Proofs.Json.Reserved
import MarketDag.Proofs.Json.Tree
import MarketDag.Proofs.Shape.Reader

/-!
# JSON is faithful

Whatever tree is written as JSON is read back, if no map in it has the reserved key (`faithful`).
So a value of a sound shape is read back from the text of its canonical tree (`decode_write`).
-/

namespace MarketDag.Json

/-- The reader gives `a` for the JSON value of the tree `t`. -/
def Reads {α : Type} (_ : Nat) (t : Ipld) (x : Read α) (a : α) : Prop :=
  t.unreserved = true → x.run (ofTree t) = .ok a

/-! ## Objects -/

/-- An object without the reserved key stands for itself. -/
theorem reserved?_of_unreserved {entries : List (String × Json)} (h : ∀ e ∈ entries, e.1 ≠ "/") :
    reserved? entries = .ok none := by
  unfold reserved?
  split
  · exact absurd rfl (h _ List.mem_cons_self)
  · rfl

theorem reserved?_ofTree {entries : List (String × Ipld)}
    (h : (Ipld.map entries).unreserved = true) :
    reserved? (entries.map fun e => (e.1, ofTree e.2)) = .ok none := by
  refine reserved?_of_unreserved fun e he => ?_
  obtain ⟨x, hx, rfl⟩ := List.mem_map.mp he
  exact (Ipld.unreserved_map.mp h x hx).1

theorem ofTree_map (entries : List (String × Ipld)) :
    ofTree (.map entries) = .object (entries.map fun e => (e.1, ofTree e.2)) true := by
  rw [ofTree, ofEntries_eq]

theorem ofTree_list (items : List Ipld) : ofTree (.list items) = .list (items.map ofTree) true := by
  rw [ofTree, ofItems_eq]

theorem ofTree_ne_null {t : Ipld} (h : t ≠ .null) : ofTree t ≠ .null := by
  cases t <;> first | exact absurd rfl h | simp [ofTree]

/-! ## Leaves -/

/-- The link of an object is that of its text. -/
theorem asLink_ofTree (cid : Cid) : asLink (ofTree (.link cid)) = .ok cid := by
  have hlink : linkOf cid.toText = .ok cid := by rw [linkOf, Cid.ofText_toText]
  exact hlink

theorem headerEntries_texts {texts : List (String × String)} (hs : Headers) :
    headerEntries hs (texts.map fun e => (e.1, .text e.2)) =
      .ok (texts.foldl (fun hs e => hs.insert e.1 e.2) hs) := by
  induction texts generalizing hs with
  | nil => rfl
  | cons e texts ih => exact ih _

theorem asHeaders_layout {hs : Headers} {t : Ipld} (h : Leaf.layout .headers hs = .ok t)
    (hun : t.canonical.unreserved = true) : asHeaders (ofTree t.canonical) = .ok hs := by
  obtain ⟨sorted, hsorted, htexts⟩ := layout_headers h
  obtain ⟨texts, hperm, rfl⟩ := htexts sorted (.refl _)
  rw [hsorted] at hun ⊢
  have hvalues : (texts.map fun e => (e.1, Ipld.text e.2)).map (fun e => (e.1, ofTree e.2)) =
      texts.map fun e => (e.1, Json.text e.2) := by
    rw [List.map_map]
    rfl
  have hreserved := reserved?_ofTree hun
  rw [hvalues] at hreserved
  rw [ofTree_map, hvalues]
  refine bind_eq_ok.mpr ⟨none, hreserved, bind_eq_ok.mpr ⟨_, headerEntries_texts .empty, ?_⟩⟩
  exact congrArg Except.ok (Headers.foldl_insert_perm hperm)

theorem asLeaf_optional {inner : Leaf} {value : Json} (h : value ≠ .null) :
    asLeaf (.optional inner) value = some <$> asLeaf inner value := by
  cases value <;> first | exact absurd rfl h | rfl

theorem leaf_layout {leaf : Leaf} {v : leaf.Value} {t : Ipld} (hleaf : leaf.Sound true = true)
    (h : leaf.layout v = .ok t) (hun : t.canonical.unreserved = true) :
    asLeaf leaf (ofTree t.canonical) = .ok (leaf.normal v) := by
  cases leaf with
  | text =>
    cases h
    rfl
  | decimal =>
    cases h
    exact readDecimal_canonicalText v
  | date =>
    cases h
    exact readDate_toText v
  | instant =>
    obtain ⟨s, hs, rfl⟩ := layout_instant h
    exact readInstant_canonical hs
  | link =>
    cases h
    exact asLink_ofTree v
  | count =>
    cases h
    exact readCount_val v
  | headers => exact asHeaders_layout h hun
  | choice names =>
    cases h
    exact choose_get (of_decide_eq_true hleaf) v
  | optional inner =>
    cases v with
    | none =>
      cases h
      rfl
    | some v =>
      -- the value is there, and is not written as null, which would be read as its absence
      obtain ⟨hinner, hnever⟩ := Leaf.sound_inner hleaf
      have hnull := mt Ipld.canonical_eq_null_iff.mp (Leaf.layout_ne_null hnever h)
      have hread : asLeaf inner (ofTree t.canonical) = _ := leaf_layout hinner h hun
      rw [asLeaf_optional (ofTree_ne_null hnull), hread]
      rfl

/-! ## Values of any shape -/

theorem bufferedItems_of_forall₂ {items : List Json} {values : List Buffered}
    (h : List.Forall₂ (fun item value => buffered item = .ok value) items values) :
    bufferedItems items = .ok values := by
  induction h with
  | nil => rfl
  | cons hvalue _ ih => exact bind_eq_ok.mpr ⟨_, hvalue, bind_eq_ok.mpr ⟨_, ih, rfl⟩⟩

theorem bufferedEntries_of_forall₂ {entries : List (String × Ipld)}
    {values : List (Buffered × Buffered)}
    (h : List.Forall₂ (fun e v => v.1 = .text e.1 ∧ buffered (ofTree e.2) = .ok v.2) entries
      values) : bufferedEntries (entries.map fun e => (e.1, ofTree e.2)) = .ok values := by
  induction h with
  | nil => rfl
  | @cons e v _ _ head _ ih =>
    obtain ⟨key, value⟩ := v
    obtain ⟨rfl, hvalue⟩ := head
    exact bind_eq_ok.mpr ⟨_, hvalue, bind_eq_ok.mpr ⟨_, ih, rfl⟩⟩

/-- What is buffered where a plain tree is written represents it. -/
theorem buffered_ofTree {h : Nat} {t : Ipld} (ht : t.PlainWithin h) (hun : t.unreserved = true) :
    ∃ value, Represents t value ∧ buffered (ofTree t) = .ok value := by
  cases t with
  | null => exact ⟨.null, .null, rfl⟩
  | integer n => exact ⟨.integer n, .integer n, rfl⟩
  | text s => exact ⟨.text s, .text s, rfl⟩
  | list items =>
    cases h with
    | zero => exact ht.elim
    | succ h =>
      have hitem : ∀ t ∈ items, ∃ value, Represents t value ∧ buffered (ofTree t) = .ok value :=
        fun t hmem => buffered_ofTree (ht t hmem) (Ipld.unreserved_list.mp hun t hmem)
      obtain ⟨values, hvalues⟩ := exists_forall₂ hitem
      have hread := bufferedItems_of_forall₂
        (List.forall₂_map_left_iff.mpr (hvalues.imp fun _ _ h => h.2))
      refine ⟨.list values, .list (hvalues.imp fun _ _ h => h.1), ?_⟩
      rw [ofTree_list]
      exact bind_eq_ok.mpr ⟨values, hread, rfl⟩
  | map entries =>
    cases h with
    | zero => exact ht.elim
    | succ h =>
      have hentry : ∀ e ∈ entries, ∃ v : Buffered × Buffered,
          (v.1 = .text e.1 ∧ Represents e.2 v.2) ∧
            v.1 = .text e.1 ∧ buffered (ofTree e.2) = .ok v.2 := by
        intro e hmem
        obtain ⟨value, hvalue, hread⟩ :=
          buffered_ofTree (ht e hmem) (Ipld.unreserved_map.mp hun e hmem).2
        exact ⟨(.text e.1, value), ⟨rfl, hvalue⟩, rfl, hread⟩
      obtain ⟨values, hvalues⟩ := exists_forall₂ hentry
      have hentries := representsEntries_of_forall₂ (hvalues.imp fun _ _ h => h.1)
      have hread := bufferedEntries_of_forall₂ (hvalues.imp fun _ _ h => h.2)
      refine ⟨.map values, .map (.refl _) hentries, ?_⟩
      rw [ofTree_map]
      -- without a reserved key the object is no link, and its entries are buffered as they stand
      refine bind_eq_ok.mpr ⟨none, reserved?_ofTree hun, ?_⟩
      exact bind_eq_ok.mpr ⟨values, hread, rfl⟩
  | _ => cases h <;> exact ht.elim

/-! ## The source -/

theorem run_optional {α : Type} {x : Read α} {value : Json} (h : value ≠ .null) :
    (source.optional x).run value = some <$> x.run value := by
  cases value <;> first | exact absurd rfl h | rfl

/-- Fields are read one after the other. -/
theorem namedFields_of_steps {σ : Type} {d : Nat} {step : String → σ → Read σ}
    {es : List (String × Ipld)} {start last : σ} (hsteps : Steps (Reads d) step es start last)
    (hun : ∀ e ∈ es, e.2.unreserved = true) :
    namedFields step true start (es.map fun e => (e.1, ofTree e.2)) = .ok last := by
  induction hsteps with
  | nil slots => rfl
  | cons head _ ih =>
    obtain ⟨ht, hun⟩ := List.forall_mem_cons.mp hun
    exact bind_eq_ok.mpr ⟨_, head ht, ih hun⟩

/-- Whatever is written is read back. -/
def faithful : Faithful source true where
  Reads := Reads
  bind {_ _ _ _ _ f _ _} hx hf hun := by
    refine bind_eq_ok.mpr ⟨_, hx hun, ?_⟩
    rw [hf]
    rfl
  leaf hleaf h _ hun := leaf_layout hleaf h hun
  list {_ d x ts as} hread hun := by
    have hitems := Ipld.unreserved_list.mp hun
    have hvalues := ((List.forall₂_and_left ts as).mpr ⟨hitems, hread⟩).imp fun _ _ h => h.2 h.1
    have hmapM := mapM_eq_ok_of_forall₂ (List.forall₂_map_left_iff.mpr hvalues)
    rw [ofTree_list]
    exact bind_eq_ok.mpr ⟨as, hmapM, rfl⟩
  optional_none _ := rfl
  optional_some {_ _ _ x _} ht hread hun := by
    rw [run_optional (ofTree_ne_null ht), hread hun]
    rfl
  record {_ _ d _ _ _ _ _ es _} hsteps hun := by
    -- a text has its entries in the order of the tree
    obtain ⟨last, hsteps, hfinish⟩ := hsteps es (.refl _)
    have hfields := namedFields_of_steps hsteps fun e he => (Ipld.unreserved_map.mp hun e he).2
    rw [ofTree_map]
    refine bind_eq_ok.mpr ⟨none, reserved?_ofTree hun, ?_⟩
    exact bind_eq_ok.mpr ⟨last, hfields, hfinish⟩
  buffered {_ _ d _ f _} hplain _ hf hun := by
    obtain ⟨value, hvalue, hread⟩ := buffered_ofTree hplain hun
    refine bind_eq_ok.mpr ⟨value, hread, ?_⟩
    dsimp only
    rw [hf value hvalue]
    rfl

/-- A value of a sound shape is read back from the text of every tree that stands for it, with its
decimals in canonical form. -/
theorem decode_of_writes {shape : Shape} {v : shape.Value} {t : Ipld}
    (hshape : shape.Sound true = true) (hdepth : shape.height < maxDepth) (h : shape.Writes v t)
    (hv : shape.Unreserved v) : decode shape (encoded (write t)) = .ok (shape.normal v) := by
  have hlinked := shape.hereditary_of_writes Ipld.hereditary_linkedWithin hshape h
  have hread := shape.reads_of_writes faithful hshape v t h shape.budget (Nat.le_refl _)
    (Shape.unreserved_of_writes hv h)
  rw [decode, readAll, parse_write hlinked hdepth]
  exact bind_eq_ok.mpr ⟨_, hread, rfl⟩

/-- A value of a sound shape is read back from the text of its canonical tree. -/
theorem decode_write {shape : Shape} {v : shape.Value} {t : Ipld} (hshape : shape.Sound true = true)
    (hdepth : shape.height < maxDepth) (h : shape.layout v = .ok t) (hv : shape.Unreserved v) :
    decode shape (encoded (write t.canonical)) = .ok (shape.normal v) :=
  decode_of_writes hshape hdepth (shape.writes_canonical hshape h) hv

end MarketDag.Json
