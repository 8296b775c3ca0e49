import MarketDag.Proofs.Shape.Layout
import MarketDag.Proofs.Shape.Origin

/-!
# Buffered values are faithful

What a source buffers where a tree without links is written is read as the tree itself would be
(`Buffered.faithful`).  A buffered map that is read as a record has the keys of one
(`Buffered.fits_of_read`), and the field of a key is read from what is buffered under it
(`Buffered.madeFrom_of_holds`).
-/

namespace MarketDag

/-! ## Representations -/

theorem Represents.isNull_eq_false {t : Ipld} {value : Buffered} (h : Represents t value)
    (ht : t ≠ .null) : value.isNull = false := by
  cases h <;> first | rfl | exact absurd rfl ht

theorem Represents.eq_text {s : String} {value : Buffered} (h : Represents (.text s) value) :
    value = .text s := by
  cases h
  rfl

/-- What is buffered entry by entry represents the entries. -/
theorem representsEntries_of_forall₂ {entries : List (String × Ipld)}
    {values : List (Buffered × Buffered)}
    (h : List.Forall₂ (fun e v => v.1 = .text e.1 ∧ Represents e.2 v.2) entries values) :
    RepresentsEntries entries values := by
  induction h with
  | nil => exact .nil
  | cons head _ ih =>
    obtain ⟨hkey, hvalue⟩ := head
    rename_i e v _ _ _
    obtain ⟨key, t⟩ := e
    obtain ⟨key', value⟩ := v
    cases hkey
    exact .cons hvalue ih

namespace Buffered

/-- The reader gives `a` for all that may be buffered where the tree `t` is written. -/
def Reads {α : Type} (_ : Nat) (t : Ipld) (x : Read α) (a : α) : Prop :=
  ∀ value, Represents t value → x.run value = .ok a

/-! ## Leaves -/

theorem headers_of_represents {texts : List (String × String)}
    {values : List (Buffered × Buffered)} {hs : Headers}
    (h : RepresentsEntries (texts.map fun h => (h.1, .text h.2)) values) :
    values.foldlM (fun (hs : Headers) (e : Buffered × Buffered) =>
      match e.1.text?, e.2.text? with
      | some k, some v => Except.ok (hs.insert k v)
      | _, _ => mismatch) hs = .ok (texts.foldl (fun hs e => hs.insert e.1 e.2) hs) := by
  induction texts generalizing values hs with
  | nil =>
    cases h
    rfl
  | cons e texts ih =>
    cases h with
    | cons head tail =>
      cases head.eq_text
      exact ih tail

theorem leaf_layout {leaf : Leaf} {v : leaf.Value} {t : Ipld} {value : Buffered}
    (hleaf : leaf.Sound false = true) (h : leaf.layout v = .ok t)
    (hvalue : Represents t.canonical value) : Buffered.leaf leaf value = .ok (leaf.normal v) := by
  cases leaf with
  | text =>
    cases h
    cases hvalue.eq_text
    rfl
  | decimal =>
    cases h
    cases hvalue.eq_text
    exact readDecimal_canonicalText v
  | date =>
    cases h
    cases hvalue.eq_text
    exact readDate_toText v
  | instant =>
    obtain ⟨s, hs, rfl⟩ := layout_instant h
    cases hvalue.eq_text
    exact readInstant_canonical hs
  -- a buffered link is refused, which is why no description has one
  | link => cases hleaf
  | count =>
    cases h
    cases hvalue
    exact readCount_val v
  | headers =>
    obtain ⟨sorted, hsorted, htexts⟩ := layout_headers h
    rw [hsorted] at hvalue
    cases hvalue with
    | map hperm hentries =>
      -- headers come in any order and are put in their own
      obtain ⟨texts, htexts, rfl⟩ := htexts _ hperm
      exact (headers_of_represents hentries).trans
        (congrArg Except.ok (Headers.foldl_insert_perm htexts))
  | choice names =>
    cases h
    cases hvalue.eq_text
    exact choose_get (of_decide_eq_true hleaf) v
  | optional inner =>
    cases v with
    | none =>
      cases h
      cases hvalue <;> rfl
    | some v =>
      obtain ⟨hinner, hnever⟩ := Leaf.sound_inner hleaf
      have hnull := Leaf.layout_ne_null hnever h
      have hread := leaf_layout hinner h hvalue
      have hvalue := hvalue.isNull_eq_false (mt Ipld.canonical_eq_null_iff.mp hnull)
      rw [Buffered.leaf, hvalue, hread]
      rfl

/-! ## Lists and records -/

theorem mapM_of_represents {α : Type} {d : Nat} {x : Read α} {ts : List Ipld} {as : List α}
    {values : List Buffered} (hread : List.Forall₂ (fun t a => Reads d t x a) ts as)
    (hvalues : List.Forall₂ Represents ts values) : values.mapM x.run = .ok as := by
  apply mapM_eq_ok_of_forall₂
  induction hread generalizing values with
  | nil =>
    cases hvalues
    exact .nil
  | cons hta _ ih =>
    cases hvalues with
    | cons hvalue hvalues => exact .cons (hta _ hvalue) (ih hvalues)

/-- The steps through entries are those through what is buffered for them. -/
theorem namedFields_of_steps {σ : Type} {d : Nat} {keys : List String}
    {step : String → σ → Read σ} {es : List (String × Ipld)} {start last : σ}
    {values : List (Buffered × Buffered)} (hsteps : Steps (Reads d) step es start last)
    (hvalues : RepresentsEntries es values) : namedFields keys step start values = .ok last := by
  induction hsteps generalizing values with
  | nil slots =>
    cases hvalues
    rfl
  | cons head _ ih =>
    cases hvalues with
    | cons hvalue hvalues =>
      have htail := ih hvalues
      rw [namedFields, List.foldlM_cons]
      exact bind_eq_ok.mpr ⟨_, head _ hvalue, htail⟩

/-- What is buffered is read as the tree would be. -/
def faithful : Faithful source false where
  Reads := Reads
  bind {_ _ _ _ _ f _ _} hx hf value hvalue := by
    refine bind_eq_ok.mpr ⟨_, hx value hvalue, ?_⟩
    rw [hf]
    rfl
  leaf hleaf h _ value hvalue := leaf_layout hleaf h hvalue
  list hread value hvalue := by
    cases hvalue with
    | list hvalues => exact mapM_of_represents hread hvalues
  optional_none value hvalue := by cases hvalue <;> rfl
  optional_some {_ _ _ x a} ht hread value hvalue := by
    change (if value.isNull then _ else some <$> x.run value) = Except.ok (some a)
    rw [hvalue.isNull_eq_false ht, hread value hvalue]
    rfl
  record hsteps value hvalue := by
    cases hvalue with
    | map hperm hentries =>
      obtain ⟨last, hsteps, hfinish⟩ := hsteps _ hperm
      exact bind_eq_ok.mpr ⟨last, namedFields_of_steps hsteps hentries, hfinish⟩
  buffered _ _ hf value hvalue := by
    change (MonadExcept.ofExcept _ : Read _).run value = _
    rw [hf value hvalue]
    rfl

end Buffered

/-- Is a value what a source may buffer for a tree, whatever is nested in it? -/
inductive Shows : Ipld → Buffered → Prop where
  | null : Shows .null .null
  | absent : Shows .null .absent
  | bool (b : Bool) : Shows (.bool b) (.bool b)
  | integer (n : Int) : Shows (.integer n) (.integer n)
  | float (x : Binary64) : Shows (.float x) (.float x)
  | text (s : String) : Shows (.text s) (.text s)
  | bytes (b : List UInt8) : Shows (.bytes b) (.bytes b)
  | list (items : List Ipld) (values : List Buffered) : Shows (.list items) (.list values)
  | map (es : List (String × Ipld)) (values : List (Buffered × Buffered)) :
    Shows (.map es) (.map values)

/-! ## Keys of maps -/

namespace Buffered

/-- Is a value a map with these keys, in any order and all of them texts? -/
def HasKeys (value : Buffered) (keys : List String) : Prop :=
  ∃ values, value = .map values ∧ (values.map Prod.fst).Perm (keys.map .text)

theorem keys_of_represents {es : List (String × Ipld)} {values : List (Buffered × Buffered)}
    (h : RepresentsEntries es values) :
    values.map Prod.fst = (es.map Prod.fst).map .text := by
  induction es generalizing values with
  | nil =>
    cases h
    rfl
  | cons e es ih =>
    cases h with
    | cons _ htail => exact congrArg (Buffered.text _ :: ·) (ih htail)

/-- Is a value a map of what stands in a relation to the values of these entries, under their keys
and in any order? -/
def Holds (R : Ipld → Buffered → Prop) (value : Buffered) (es : List (String × Ipld)) : Prop :=
  ∃ values es', value = .map values ∧ es'.Perm es ∧
    List.Forall₂ (fun e v => v.1 = .text e.1 ∧ R e.2 v.2) es' values

theorem Holds.hasKeys {R : Ipld → Buffered → Prop} {value : Buffered}
    {es : List (String × Ipld)} (h : value.Holds R es) : value.HasKeys (es.map Prod.fst) := by
  obtain ⟨values, es', rfl, hperm, hvalues⟩ := h
  have hkeys : values.map Prod.fst = (es'.map Prod.fst).map .text := by
    rw [← List.forall₂_eq_eq_eq, List.map_map, List.forall₂_map_left_iff,
      List.forall₂_map_right_iff]
    exact (hvalues.imp fun _ _ h => h.1).flip
  exact ⟨values, rfl, hkeys ▸ (hperm.map Prod.fst).map Buffered.text⟩

/-- What is buffered for a map has the keys of the map. -/
theorem hasKeys_of_represents {es : List (String × Ipld)} {value : Buffered}
    (h : Represents (.map es) value) : value.HasKeys (es.map Prod.fst) := by
  cases h with
  | map hperm hentries =>
    refine ⟨_, rfl, ?_⟩
    rw [keys_of_represents hentries]
    exact (hperm.map Prod.fst).map Buffered.text

section

variable {fields : Fields} {known : List String} {start last : fields.Slots}
  {values : List (Buffered × Buffered)}

/-- A key that is read is that of a field. -/
theorem mem_keys_of_namedFields
    (h : namedFields known (fields.readField source known) start values = .ok last) :
    ∀ e ∈ values, ∃ key ∈ fields.keys, name? known e.1 = some key := by
  induction values generalizing start with
  | nil => simp
  | cons e values ih =>
    rw [namedFields, List.foldlM_cons] at h
    obtain ⟨slots, hhead, htail⟩ := bind_eq_ok.mp h
    refine List.forall_mem_cons.mpr ⟨?_, ih htail⟩
    cases hname : name? known e.1 with
    | none =>
      rw [hname] at hhead
      cases hhead
    | some key =>
      rw [hname] at hhead
      obtain ⟨form, hform, -⟩ := fields.form_of_readField (.looking Buffered) ⟨hhead, rfl⟩
      exact ⟨key, Fields.mem_keys_of_form hform, rfl⟩

/-- A field is missing as long as no entry has its key. -/
theorem lacks_of_namedFields {key : String} (hkey : ∀ e ∈ values, name? known e.1 ≠ some key)
    (hlacks : fields.Lacks .named key start)
    (h : namedFields known (fields.readField source known) start values = .ok last) :
    fields.Lacks .named key last := by
  induction values generalizing start with
  | nil =>
    cases h
    exact hlacks
  | cons e values ih =>
    rw [List.forall_mem_cons] at hkey
    rw [namedFields, List.foldlM_cons] at h
    obtain ⟨slots, hhead, htail⟩ := bind_eq_ok.mp h
    cases hname : name? known e.1 with
    | none =>
      rw [hname] at hhead
      cases hhead
    | some other =>
      rw [hname] at hhead
      have hne : other ≠ key := fun heq => hkey.1 (hname.trans (congrArg some heq))
      have hslots := fields.lacks_of_readField (.looking Buffered) hne hlacks ⟨hhead, rfl⟩
      exact ih hkey.2 hslots htail

/-- A field that was read stays through the entries that follow. -/
theorem readFrom_of_namedFields {key : String} {R : {α : Type} → Read α → α → Prop}
    (hstart : fields.ReadFrom source R key start)
    (h : namedFields known (fields.readField source known) start values = .ok last) :
    fields.ReadFrom source R key last := by
  induction values generalizing start with
  | nil =>
    cases h
    exact hstart
  | cons e values ih =>
    rw [namedFields, List.foldlM_cons] at h
    obtain ⟨slots, hhead, htail⟩ := bind_eq_ok.mp h
    cases hname : name? known e.1 with
    | none =>
      rw [hname] at hhead
      cases hhead
    | some name =>
      rw [hname] at hhead
      exact ih (hstart.of_readField (.looking Buffered) ⟨hhead, rfl⟩) htail

/-- The field of a key is read from the value under it. -/
theorem readFrom_of_mem {key : String} {e : Buffered × Buffered} (he : e ∈ values)
    (hkey : name? known e.1 = some key)
    (h : namedFields known (fields.readField source known) start values = .ok last) :
    fields.ReadFrom source (fun x a => (Outcome.looking Buffered).Gives e.2 x a e.2) key last := by
  induction values generalizing start with
  | nil => cases he
  | cons e' values ih =>
    rw [namedFields, List.foldlM_cons] at h
    obtain ⟨slots, hhead, htail⟩ := bind_eq_ok.mp h
    rcases List.mem_cons.mp he with rfl | he
    · rw [hkey] at hhead
      have hslots := fields.readFrom_of_readField (.looking Buffered) ⟨hhead, rfl⟩
      exact readFrom_of_namedFields hslots htail
    · exact ih he htail

end

/-- A record that is read where entries are held is made of what was read where their values are
held. -/
theorem madeFrom_of_holds (fields : Fields) {R : Ipld → Buffered → Prop} {name key : String}
    {t : Ipld} {es : List (String × Ipld)} {value : Buffered} {v : fields.Value}
    (hvalue : value.Holds R es) (hmem : (key, t) ∈ es)
    (h : ((Shape.record name fields).read source).run value = .ok v) :
    ∃ b, R t b ∧
      fields.MadeFrom source (fun x a => (Outcome.looking Buffered).Gives b x a b) key v := by
  obtain ⟨values, es', rfl, hperm, hvalues⟩ := hvalue
  obtain ⟨e, he, hkey, hR⟩ := exists_of_mem_forall₂ hvalues.flip (hperm.mem_iff.mpr hmem)
  have hname : name? fields.keys e.1 = some key := by
    rw [hkey]
    rfl
  obtain ⟨last, hlast, hfinish⟩ := bind_eq_ok.mp h
  exact ⟨e.2, hR, (readFrom_of_mem he hname hlast).madeFrom hfinish⟩

end Buffered

/-- Has a map of these keys only keys of the fields, and among them all that the record has to
have? -/
def Fields.Fits (fields : Fields) (keys : List String) : Prop :=
  (∀ key ∈ keys, key ∈ fields.keys) ∧ ∀ key ∈ fields.requiredKeys, key ∈ keys

/-- A map that is read as a record has the keys of one. -/
theorem Buffered.fits_of_read {name : String} {fields : Fields} {keys : List String}
    {value : Buffered} {v : fields.Value} (hkeys : value.HasKeys keys)
    (h : ((Shape.record name fields).read source).run value = .ok v) : fields.Fits keys := by
  obtain ⟨values, rfl, hperm⟩ := hkeys
  obtain ⟨last, hlast, hfinish⟩ := bind_eq_ok.mp h
  constructor
  · intro key hkey
    have hmem : Buffered.text key ∈ values.map Prod.fst :=
      hperm.mem_iff.mpr (List.mem_map_of_mem hkey)
    obtain ⟨e, he, hkeyed⟩ := List.mem_map.mp hmem
    obtain ⟨other, hother, hname⟩ := mem_keys_of_namedFields hlast e he
    rw [hkeyed] at hname
    cases hname
    exact hother
  · intro key hkey
    -- a needed key that no entry has leaves its slot empty, and then no record is made
    by_contra hmissing
    have hunnamed : ∀ e ∈ values, name? fields.keys e.1 ≠ some key := by
      intro e he hname
      obtain ⟨other, hother, hkeyed⟩ := List.mem_map.mp (hperm.mem_iff.mp (List.mem_map_of_mem he))
      rw [← hkeyed] at hname
      cases hname
      exact hmissing hother
    rw [← fields.neededKeys_named] at hkey
    have hlacks := lacks_of_namedFields hunnamed (fields.lacks_empty hkey) hlast
    exact fields.finish_of_lacks hlacks v hfinish

end MarketDag
