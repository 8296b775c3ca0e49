import MarketDag.Proofs.Cbor.Record
import MarketDag.Proofs.Cbor.Tree
import MarketDag.Proofs.Shape.Buffered
import MarketDag.Proofs.Shape.Origin

/-!
# Keeping step

A field is read in the form of its key, and a form may end at another byte than the tree that
stands there: a head without the bits that an expected type lacks passes for that type, so that a
whole number is taken for the length of a text.  While the fields keep step with the entries of a
map, each is read where its own value is written (`madeFrom_of_decode`).  Fields keep step with
the trees of their own values (`inStep_of_layout`), and a value of any shape keeps step with every
tree (`readBuffered_eq_ok`).
-/

namespace MarketDag.Cbor

/-- Does a reader that goes well where a tree is written leave what follows the tree? -/
def KeepsStep {α : Type} (read : Scan α) (t : Ipld) : Prop :=
  ∀ rest a s, read (write t ++ rest) = .ok (a, s) → s = rest

/-- Does the field of an entry's key, if there is one, keep step with the entry's value? -/
def InStep (depth : Nat) (fields : Fields) (e : String × Ipld) : Prop :=
  ∀ form, fields.form? e.1 = some form → KeepsStep ((form.read source).run depth) e.2

/-! ## Values of any shape -/

theorem read_map_eq_ok {α β : Type} {x : Scan α} {f : α → β} {s s' : List UInt8} {b : β} :
    (f <$> x) s = .ok (b, s') ↔ ∃ a, x s = .ok (a, s') ∧ f a = b := by
  rw [map_eq_pure_bind, read_bind_eq_ok]
  constructor
  · rintro ⟨a, t, hx, h⟩
    cases h
    exact ⟨a, hx, rfl⟩
  · rintro ⟨a, hx, rfl⟩
    exact ⟨a, s', hx, rfl⟩

/-- Readers that keep step one by one keep step together. -/
theorem readMany_eq_ok {α β : Type} {read : Scan β} {write : α → List UInt8} {P : α → β → Prop}
    {as : List α} {bs : List β} {rest s : List UInt8}
    (h : ∀ a ∈ as, ∀ rest b s, read (write a ++ rest) = .ok (b, s) → P a b ∧ s = rest)
    (hread : readMany read as.length (as.flatMap write ++ rest) = .ok (bs, s)) :
    List.Forall₂ P as bs ∧ s = rest := by
  induction as generalizing bs with
  | nil =>
    cases hread
    exact ⟨.nil, rfl⟩
  | cons a as ih =>
    rw [List.forall_mem_cons] at h
    rw [List.flatMap_cons, List.append_assoc] at hread
    obtain ⟨b, t, hhead, hread⟩ := read_bind_eq_ok.mp hread
    obtain ⟨hb, rfl⟩ := h.1 _ b t hhead
    obtain ⟨bs', t', htail, hread⟩ := read_bind_eq_ok.mp hread
    cases hread
    obtain ⟨hbs, hs⟩ := ih h.2 htail
    exact ⟨.cons hb hbs, hs⟩

section

variable {R : Ipld → Buffered → Prop} {depth : Nat} {es : List (String × Ipld)}
  {rest s : List UInt8}

/-- An entry of any shape is read with its key if its value keeps step. -/
theorem readEntry_eq_ok {e : String × Ipld} {v : Buffered × Buffered}
    (hsize : (writeEntry e).length < UInt64.size)
    (hvalue : ∀ rest value s, readBuffered depth (write e.2 ++ rest) = .ok (value, s) →
      R e.2 value ∧ s = rest)
    (h : readEntry depth (writeEntry e ++ rest) = .ok (v, s)) :
    (v.1 = .text e.1 ∧ R e.2 v.2) ∧ s = rest := by
  rw [writeEntry, List.length_append] at hsize
  rw [writeEntry, List.append_assoc] at h
  obtain ⟨key, t, hkey, h⟩ := read_bind_eq_ok.mp h
  obtain ⟨value, t', hread, h⟩ := read_bind_eq_ok.mp h
  cases h
  cases depth with
  | zero => cases hkey
  | succ k =>
    have hsmall : (writeText e.1).length < UInt64.size := by omega
    cases (readBuffered_text (Nat.le_add_left 1 k) hsmall _).symm.trans hkey
    obtain ⟨hshown, hs⟩ := hvalue rest value _ hread
    exact ⟨⟨rfl, hshown⟩, hs⟩

theorem length_write_lt {es : List (String × Ipld)} {e : String × Ipld} (he : e ∈ es)
    (hsize : (write (.map es)).length < UInt64.size) : (write e.2).length < UInt64.size := by
  obtain ⟨es', hperm, -, -, -, hsizes⟩ := sizes_of_write_map hsize
  exact length_write_lt_of_entry (hsizes e (hperm.mem_iff.mpr he))

/-- What is buffered where a map is written holds its entries and keeps step, if the values of the
entries do. -/
theorem readBuffered_map_eq_ok {value : Buffered} (hsize : (write (.map es)).length < UInt64.size)
    (hes : ∀ e ∈ es, ∀ depth rest value s,
      readBuffered depth (write e.2 ++ rest) = .ok (value, s) → R e.2 value ∧ s = rest)
    (h : readBuffered depth (write (.map es) ++ rest) = .ok (value, s)) :
    value.Holds R es ∧ s = rest := by
  obtain _ | d := depth
  · cases h
  obtain ⟨es', hperm, hwrite, hcount, -, hsizes⟩ := sizes_of_write_map hsize
  rw [readBuffered, hwrite, List.append_assoc, read_bind (readItem_map d hcount _)] at h
  obtain _ | d := d
  · cases h
  obtain ⟨values, hread, rfl⟩ := read_map_eq_ok.mp h
  -- the entries are written in another order, but each of them keeps step where it stands
  have hentry : ∀ e ∈ es', ∀ rest v s, readEntry d (writeEntry e ++ rest) = .ok (v, s) →
      (v.1 = .text e.1 ∧ R e.2 v.2) ∧ s = rest := fun e he rest v s =>
    readEntry_eq_ok (hsizes e he) (hes e (hperm.mem_iff.mp he) d)
  obtain ⟨hvalues, hs⟩ := readMany_eq_ok hentry hread
  exact ⟨⟨values, es', rfl, hperm, hvalues⟩, hs⟩

end

/-- What is buffered where a readable tree is written shows the tree and keeps step, whatever the
budget. -/
theorem readBuffered_eq_ok {budget depth : Nat} {t : Ipld} {value : Buffered}
    {rest s : List UInt8} (ht : Readable budget t) (hsize : (write t).length < UInt64.size)
    (h : readBuffered depth (write t ++ rest) = .ok (value, s)) : Shows t value ∧ s = rest := by
  induction budget using Nat.strongRecOn generalizing t depth value rest s with
  | ind budget ih =>
    obtain _ | k := budget
    · exact ht.elim
    obtain _ | d := depth
    · cases h
    -- the item that is read is the one that was written
    cases t with
    | null =>
      rw [readBuffered, write, List.singleton_append, read_bind (readItem_null d rest)] at h
      cases h
      exact ⟨.absent, rfl⟩
    | bool b =>
      rw [readBuffered, write, List.singleton_append, read_bind (readItem_bool b rest)] at h
      cases h
      exact ⟨.bool b, rfl⟩
    | integer n =>
      obtain ⟨hlow, hhigh⟩ := readable_integer.mp ht
      rw [readBuffered, write, read_bind (readItem_integer hlow hhigh rest)] at h
      change (if n < -0x8000000000000000 then (throw _ : Scan Buffered) else pure _) rest = _ at h
      split at h
      · cases h
      · cases h
        exact ⟨.integer n, rfl⟩
    | float x =>
      rw [readBuffered, write, List.cons_append, read_bind (readItem_float x rest)] at h
      cases h
      exact ⟨.float x, rfl⟩
    | text text =>
      rw [write] at hsize
      rw [readBuffered, write, read_bind (readItem_text d hsize rest)] at h
      cases h
      exact ⟨.text text, rfl⟩
    | bytes b =>
      rw [write] at hsize
      rw [readBuffered, write, read_bind (readItem_bytes hsize rest)] at h
      cases h
      exact ⟨.bytes b, rfl⟩
    | link cid =>
      rw [write] at hsize
      rw [readBuffered, write, read_bind (readItem_link hsize rest)] at h
      cases h
    | list items =>
      obtain _ | j := k
      · exact ht.elim
      obtain ⟨hcount, hsizes⟩ := sizes_of_write_list hsize
      rw [readBuffered, write_list, List.append_assoc, read_bind (readItem_list d hcount _)] at h
      obtain _ | d := d
      · cases h
      obtain ⟨values, hmany, rfl⟩ := read_map_eq_ok.mp h
      have hitem : ∀ t ∈ items, ∀ rest value s,
          readBuffered d (write t ++ rest) = .ok (value, s) → Shows t value ∧ s = rest :=
        fun t hmem rest value s hread => ih j (by omega) (ht t hmem) (hsizes t hmem) hread
      exact ⟨.list items values, (readMany_eq_ok hitem hmany).2⟩
    | map entries =>
      obtain _ | j := k
      · exact ht.elim
      obtain ⟨⟨values, _, rfl, -, -⟩, hs⟩ := readBuffered_map_eq_ok (R := Shows) hsize
        (fun e he depth rest value s hread =>
          ih j (by omega) (ht.2 e he) (length_write_lt he hsize) hread) h
      exact ⟨.map entries values, hs⟩

/-- What is buffered where a readable map is written holds the entries of the map. -/
theorem holds_of_readBuffered {budget depth : Nat} {es : List (String × Ipld)}
    {value : Buffered} {rest s : List UInt8} (hes : Readable budget (.map es))
    (hsize : (write (.map es)).length < UInt64.size)
    (h : readBuffered depth (write (.map es) ++ rest) = .ok (value, s)) :
    value.Holds Shows es := by
  obtain _ | _ | j := budget
  · exact hes.elim
  · exact hes.elim
  refine (readBuffered_map_eq_ok hsize (fun e he depth rest value s hread => ?_) h).1
  exact readBuffered_eq_ok (hes.2 e he) (length_write_lt he hsize) hread

/-! ## Fields -/

section

variable {fields : Fields} {known : List String} {depth : Nat}

/-- Fields keep step with the trees of their values. -/
theorem inStep_of_layout {v : fields.Value} {es : List (String × Ipld)} {e : String × Ipld}
    (hfields : fields.Sound true = true) (hnodup : fields.keys.Nodup)
    (hbudget : fields.budget ≤ depth) (h : fields.layout v = .ok es) (he : e ∈ es)
    (hsize : (write e.2.canonical).length < UInt64.size) :
    InStep depth fields (e.1, e.2.canonical) := by
  intro form hform rest _ s hs
  have hwrites := fields.writesAt_canonical hfields hnodup h e he
  have hread := fields.reads_of_writesAt faithful hfields hnodup v e.1 _ hwrites depth hbudget
    fields.keys [] List.not_mem_nil hsize rest
  obtain ⟨form', hform', hread⟩ := fields.form_of_readField (outcome depth) hread
  cases hform.symm.trans hform'
  cases hread.symm.trans hs
  rfl

/-- A field that was read stays through the entries that follow. -/
theorem readFrom_of_readFields {key : String} {R : {α : Type} → Read α → α → Prop} {n : Nat}
    {s s' : List UInt8} {start last : fields.Slots} (hstart : fields.ReadFrom source R key start)
    (h : readFields (fields.readField source known) depth n start s = .ok (last, s')) :
    fields.ReadFrom source R key last := by
  induction n generalizing s start with
  | zero =>
    cases h
    exact hstart
  | succ n ih =>
    obtain ⟨name, t, -, h⟩ := read_bind_eq_ok.mp h
    obtain ⟨slots, t', hfield, h⟩ := read_bind_eq_ok.mp h
    exact ih (hstart.of_readField (outcome depth) hfield) h

/-- While the fields keep step, the field of a key is read where the key's value is written. -/
theorem readFrom_of_inStep {before after : List (String × Ipld)} {key : String} {t : Ipld}
    {rest s : List UInt8} {start last : fields.Slots}
    (hstep : ∀ e ∈ before, InStep depth fields e)
    (hsize : ((before ++ (key, t) :: after).flatMap writeEntry).length < UInt64.size)
    (h : readFields (fields.readField source known) depth (before ++ (key, t) :: after).length
      start ((before ++ (key, t) :: after).flatMap writeEntry ++ rest) = .ok (last, s)) :
    ∃ u u', fields.ReadFrom source (fun x a => x.run depth (write t ++ u) = .ok (a, u')) key
      last := by
  induction before generalizing start with
  | nil =>
    simp only [List.nil_append, List.flatMap_cons, List.length_append, writeEntry] at hsize
    simp only [List.nil_append, List.flatMap_cons, List.length_cons, writeEntry,
      List.append_assoc] at h
    have hkey : (writeText key).length < UInt64.size := by omega
    -- the key is met here, and later fields do not change what was read for it
    rw [readFields, read_bind (readText_writeText depth hkey _)] at h
    obtain ⟨slots, u', hfield, h⟩ := read_bind_eq_ok.mp h
    exact ⟨_, u', readFrom_of_readFields
      (fields.readFrom_of_readField (outcome depth) hfield) h⟩
  | cons e before ih =>
    rw [List.forall_mem_cons] at hstep
    simp only [List.cons_append, List.flatMap_cons, List.length_append, writeEntry] at hsize
    simp only [List.cons_append, List.flatMap_cons, List.length_cons, writeEntry,
      List.append_assoc] at h
    have hkey : (writeText e.1).length < UInt64.size := by omega
    rw [readFields, read_bind (readText_writeText depth hkey _)] at h
    obtain ⟨slots, u, hfield, h⟩ := read_bind_eq_ok.mp h
    obtain ⟨form, hform, hread⟩ := fields.form_of_readField (outcome depth) hfield
    cases hstep.1 form hform _ () u hread
    exact ih hstep.2 (by omega) h

/-- A record that is read where a map is written, its fields in step with the entries before one of
them, is made of what was read where that entry's value is written. -/
theorem madeFrom_of_decode (fields : Fields) {name key : String} {t : Ipld}
    {es : List (String × Ipld)} {v : fields.Value} (hes : (es.map Prod.fst).Nodup)
    (hmem : (key, t) ∈ es) (hsize : (write (.map es)).length < UInt64.size)
    (hstep : ∀ e ∈ es, e.1 ≠ key → InStep (maxDepth - 1) fields e)
    (h : decode (.record name fields) (write (.map es)) = .ok v) :
    ∃ u u', fields.MadeFrom source (fun x a => x.run (maxDepth - 1) (write t ++ u) = .ok (a, u'))
      key v := by
  obtain ⟨es', hperm, hwrite, hcount, hsmall, -⟩ := sizes_of_write_map hsize
  have hkeys : (es'.map Prod.fst).Nodup := (hperm.map Prod.fst).nodup_iff.mpr hes
  obtain ⟨before, after, rfl⟩ := List.append_of_mem (hperm.mem_iff.mpr hmem)
  -- keys differ, so no entry before the one of the key has this key
  have hbefore : ∀ e ∈ before, InStep (maxDepth - 1) fields e := by
    intro e he
    refine hstep e (hperm.mem_iff.mp (List.mem_append_left _ he)) fun heq => ?_
    rw [List.map_append, List.map_cons, List.nodup_append] at hkeys
    exact hkeys.2.2 e.1 (List.mem_map_of_mem he) key List.mem_cons_self heq
  have hread := run_of_readAll h
  rw [Shape.read] at hread
  obtain ⟨n, s, last, hhead, hfields, hfinish⟩ := record_eq_ok.mp hread
  rw [hwrite, readHead_writeHead .map hcount] at hhead
  cases hhead
  rw [← List.append_nil ((before ++ (key, t) :: after).flatMap writeEntry)] at hfields
  obtain ⟨u, u', hlast⟩ := readFrom_of_inStep hbefore hsmall hfields
  exact ⟨u, u', hlast.madeFrom hfinish⟩

end

end MarketDag.Cbor
