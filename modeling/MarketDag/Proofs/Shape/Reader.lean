import MarketDag.Proofs.Shape.Buffered
import MarketDag.Proofs.Shape.Written

/-!
# Reading what was written

A value of a sound shape is read back from every tree that stands for it, through every faithful
source and with its decimals in canonical form (`Shape.reads_of_writes`).
-/

namespace MarketDag

/-! ## Slots -/

namespace Fields

/-- The slots of a record of which the fields of some keys were read. -/
def fill (read : List String) : (fields : Fields) → fields.Value → fields.Slots
  | .nil, _ => ()
  | .required key _ rest, v => (if key ∈ read then some v.1 else none, rest.fill read v.2)
  | .optional key _ rest, v => (if key ∈ read then some v.1 else none, rest.fill read v.2)
  | .defaulted key _ _ rest, v => (if key ∈ read then some v.1 else none, rest.fill read v.2)

theorem fill_nil : (fields : Fields) → (v : fields.Value) → fields.fill [] v = fields.empty
  | .nil, _ => rfl
  | .required _ _ rest, v => congrArg (none, ·) (rest.fill_nil v.2)
  | .optional _ _ rest, v => congrArg (none, ·) (rest.fill_nil v.2)
  | .defaulted _ _ _ rest, v => congrArg (none, ·) (rest.fill_nil v.2)

theorem fill_cons_of_not_mem {key : String} {read : List String} : {fields : Fields} →
    key ∉ fields.keys → (v : fields.Value) → fields.fill (key :: read) v = fields.fill read v
  | .nil, _, _ => rfl
  | .required _ _ rest, h, v => by
    rw [keys, List.mem_cons, not_or] at h
    simp only [fill, List.mem_cons, Ne.symm h.1, false_or, fill_cons_of_not_mem h.2]
  | .optional _ _ rest, h, v => by
    rw [keys, List.mem_cons, not_or] at h
    simp only [fill, List.mem_cons, Ne.symm h.1, false_or, fill_cons_of_not_mem h.2]
  | .defaulted _ _ _ rest, h, v => by
    rw [keys, List.mem_cons, not_or] at h
    simp only [fill, List.mem_cons, Ne.symm h.1, false_or, fill_cons_of_not_mem h.2]

theorem mem_cons_iff_of_ne {key name : String} {read : List String} (h : key ≠ name) :
    name ∈ key :: read ↔ name ∈ read := by
  rw [List.mem_cons, or_iff_right (Ne.symm h)]

/-- The record is made of the fields that were read, if the others may be left out. -/
theorem finish_fill {name : String} {total : Nat} {read : List String} : {fields : Fields} →
    (index : Nat) → {v : fields.Value} → fields.Spares v read →
    fields.finish name total .named index (fields.fill read (fields.normal v)) =
      .ok (fields.normal v)
  | .nil, _, _, _ => rfl
  | .required _ _ rest, index, v, h => by
    simp only [fill, normal, if_pos h.1, finish, finish_fill (index + 1) h.2]
    rfl
  | .optional key _ rest, index, v, h => by
    by_cases hkey : key ∈ read
    · simp only [fill, normal, if_pos hkey, finish, finish_fill (index + 1) h.2]
      rfl
    · simp only [fill, normal, if_neg hkey, finish, finish_fill (index + 1) h.2, h.1 hkey]
      rfl
  | .defaulted key _ _ rest, index, v, h => by
    by_cases hkey : key ∈ read
    · simp only [fill, normal, if_pos hkey, finish, finish_fill (index + 1) h.2]
      rfl
    · simp only [fill, normal, if_neg hkey, finish, finish_fill (index + 1) h.2, h.1 hkey]
      rfl

end Fields

/-! ## Steps -/

section

variable {m : Type → Type} [Monad m] [MonadExceptOf DecodeFault m] {src : Source m}
  {links : Bool}

/-- Through entries of a record with keys of their own, the slots are filled one by one. -/
theorem Faithful.steps_fill (F : Faithful src links) {fields : Fields} {v : fields.Value} {d : Nat}
    {known : List String} {es : List (String × Ipld)} {read : List String}
    (hfield : ∀ key t read, (key, t) ∈ es → key ∉ read →
      F.Reads d t (fields.readField src known key (fields.fill read v))
        (fields.fill (key :: read) v))
    (hnodup : (es.map Prod.fst).Nodup) (hnew : ∀ key ∈ es.map Prod.fst, key ∉ read) :
    ∃ read', (∀ key ∈ es.map Prod.fst, key ∈ read') ∧ (∀ key ∈ read, key ∈ read') ∧
      Steps (F.Reads d) (fields.readField src known) es (fields.fill read v)
        (fields.fill read' v) := by
  induction es generalizing read with
  | nil => exact ⟨read, by simp, fun _ h => h, .nil _⟩
  | cons e es ih =>
    obtain ⟨key, t⟩ := e
    rw [List.map_cons, List.nodup_cons] at hnodup
    rw [List.map_cons, List.forall_mem_cons] at hnew
    -- the key that is read now does not come again
    have htail : ∀ k ∈ es.map Prod.fst, k ∉ key :: read := by
      intro k hk hmem
      rcases List.mem_cons.mp hmem with rfl | hmem
      · exact hnodup.1 hk
      · exact hnew.2 k hk hmem
    obtain ⟨read', hes, hread, hsteps⟩ :=
      ih (fun k t' r h => hfield k t' r (List.mem_cons_of_mem _ h)) hnodup.2 htail
    refine ⟨read', ?_, fun k hk => hread k (List.mem_cons_of_mem _ hk),
      .cons (hfield key t read List.mem_cons_self hnew.1) hsteps⟩
    rw [List.map_cons, List.forall_mem_cons]
    exact ⟨hread key List.mem_cons_self, hes⟩

end

/-! ## Shapes -/

/-- The second of two shapes is not taken for the first. -/
theorem firstOf_inr {name : String} {first second : Shape} {v : second.Value} {t : Ipld}
    {value : Buffered} {b : second.Value} (hapart : first.apart second = true)
    (h : second.Writes v t) (hvalue : Represents t value)
    (hread : (second.read Buffered.source).run value = .ok b) :
    firstOf name (first.read Buffered.source) (second.read Buffered.source) value =
      .ok (.inr b) := by
  -- only records are told apart, by a field that the first has to have and the second has not
  have hfail : ∀ a, (first.read Buffered.source).run value ≠ .ok a := by
    cases first with
    | record name fields =>
      cases second with
      | record name' others =>
        obtain ⟨key, hkey, hother⟩ := List.any_eq_true.mp hapart
        have hother : key ∉ others.keys := of_decide_eq_true hother
        obtain ⟨es, rfl, -, hes, -⟩ := h
        intro a ha
        have hkeys := Buffered.hasKeys_of_represents hvalue
        obtain ⟨e, he, heq⟩ := List.mem_map.mp ((Buffered.fits_of_read hkeys ha).2 key hkey)
        exact hother (heq ▸ (hes e he).mem_keys)
      | _ => cases hapart
    | _ => cases hapart
  rw [firstOf]
  cases hfirst : (first.read Buffered.source).run value with
  | error fault => rw [hread]
  | ok a => exact absurd hfirst (hfail a)

mutual

/-- A value of a sound shape is read back from every tree that stands for it through every faithful
source, with its decimals in canonical form. -/
theorem Shape.reads_of_writes {m : Type → Type} [Monad m] [MonadExceptOf DecodeFault m]
    {src : Source m} {links : Bool} (F : Faithful src links) : (shape : Shape) →
    shape.Sound links = true → (v : shape.Value) → (t : Ipld) → shape.Writes v t → (d : Nat) →
    shape.budget ≤ d → F.Reads d t (shape.read src) (shape.normal v)
  | .leaf _, hshape, _, _, ⟨_, h, ht⟩, _, hd => ht ▸ F.leaf hshape h hd
  | .list item, hshape, vs, _, ⟨ts, ht, hts⟩, d, hd => by
    subst ht
    obtain ⟨k, rfl⟩ : ∃ k, d = k + 1 := ⟨d - 1, by rw [Shape.budget] at hd; omega⟩
    refine F.list ?_
    change List.Forall₂ _ ts (vs.map item.normal)
    rw [List.forall₂_map_right_iff]
    exact hts.flip.imp fun t v hv =>
      item.reads_of_writes F hshape v t hv k (Nat.le_of_succ_le_succ hd)
  | .record name fields, hshape, v, _, ⟨es, ht, hascending, hes, hspares⟩, d, hd => by
    subst ht
    obtain ⟨k, rfl⟩ : ∃ k, d = k + 1 := ⟨d - 1, by rw [Shape.budget] at hd; omega⟩
    obtain ⟨hnodup, hfields⟩ := Bool.and_eq_true_iff.mp hshape
    have hnodup : fields.keys.Nodup := of_decide_eq_true hnodup
    refine F.record fun es' hperm => ?_
    -- the entries come in an order of the source's own, so the slots are tracked by their keys
    have hkeys := hperm.map Prod.fst
    have hfield : ∀ key t read, (key, t) ∈ es' → key ∉ read →
        F.Reads k t (fields.readField src fields.keys key (fields.fill read (fields.normal v)))
          (fields.fill (key :: read) (fields.normal v)) := by
      intro key t read hmem hkey
      exact fields.reads_of_writesAt F hfields hnodup v key t (hes _ (hperm.mem_iff.mp hmem)) k
        (Nat.le_of_succ_le_succ hd) fields.keys read hkey
    obtain ⟨read, hread, -, hsteps⟩ :=
      F.steps_fill hfield (hkeys.nodup_iff.mpr hascending.nodup) fun _ _ => List.not_mem_nil
    rw [Fields.fill_nil] at hsteps
    have hspares := hspares.mono fun key h => hread key (hkeys.mem_iff.mpr h)
    exact ⟨_, hsteps, Fields.finish_fill 0 hspares⟩
  | .either name first second, hshape, .inl v, t, h, d, hd => by
    obtain ⟨hshape, -⟩ := Bool.and_eq_true_iff.mp hshape
    obtain ⟨hfirst, -⟩ := Bool.and_eq_true_iff.mp hshape
    have hplain := (first.plain_of_writes hfirst h).mono (Nat.le_max_left _ second.height)
    -- both variants are tried on one buffered value; the first fits here
    refine F.buffered hplain hd fun value hvalue => ?_
    have hread :=
      first.reads_of_writes Buffered.faithful hfirst v t h _ (Nat.le_refl _) value hvalue
    rw [firstOf, hread]
    rfl
  | .either name first second, hshape, .inr v, t, h, d, hd => by
    obtain ⟨hshape, hapart⟩ := Bool.and_eq_true_iff.mp hshape
    obtain ⟨-, hsecond⟩ := Bool.and_eq_true_iff.mp hshape
    have hplain := (second.plain_of_writes hsecond h).mono (Nat.le_max_right first.height _)
    refine F.buffered hplain hd fun value hvalue => ?_
    have hread :=
      second.reads_of_writes Buffered.faithful hsecond v t h _ (Nat.le_refl _) value hvalue
    -- the first variant has to fail before the second is tried
    exact firstOf_inr hapart h hvalue hread

theorem Fields.reads_of_writesAt {m : Type → Type} [Monad m] [MonadExceptOf DecodeFault m]
    {src : Source m} {links : Bool} (F : Faithful src links) : (fields : Fields) →
    fields.Sound links = true → fields.keys.Nodup → (v : fields.Value) → (key : String) →
    (t : Ipld) → fields.WritesAt v key t → (d : Nat) → fields.budget ≤ d →
    (known : List String) → (read : List String) → key ∉ read →
    F.Reads d t (fields.readField src known key (fields.fill read (fields.normal v)))
      (fields.fill (key :: read) (fields.normal v))
  | .nil, _, _, _, _, _, h, _, _, _, _, _ => h.elim
  | .required name shape rest, hfields, hnodup, v, key, t, h, d, hd, known, read, hkey => by
    obtain ⟨hshape, hrest⟩ := Bool.and_eq_true_iff.mp hfields
    obtain ⟨hname, hnodup⟩ := List.nodup_cons.mp hnodup
    rw [Fields.budget, Nat.max_le] at hd
    -- a field is read once, into a slot that no field after it has
    by_cases hne : key = name
    · subst hne
      rw [Fields.WritesAt, if_pos rfl] at h
      simp only [Fields.fill, Fields.normal, if_neg hkey, if_pos List.mem_cons_self,
        Fields.fill_cons_of_not_mem hname]
      rw [Fields.readField, if_pos rfl, if_neg (by simp)]
      exact F.bind (shape.reads_of_writes F hshape v.1 t h d hd.1) rfl
    · rw [Fields.WritesAt, if_neg hne] at h
      simp only [Fields.fill, Fields.normal, Fields.mem_cons_iff_of_ne hne]
      rw [Fields.readField, if_neg hne]
      exact F.bind (rest.reads_of_writesAt F hrest hnodup v.2 key t h d hd.2 known read hkey) rfl
  | .optional name shape rest, hfields, hnodup, v, key, t, h, d, hd, known, read, hkey => by
    obtain ⟨hshape, hrest⟩ := Bool.and_eq_true_iff.mp hfields
    obtain ⟨hshape, hnever⟩ := Bool.and_eq_true_iff.mp hshape
    obtain ⟨hname, hnodup⟩ := List.nodup_cons.mp hnodup
    rw [Fields.budget, Nat.max_le] at hd
    by_cases hne : key = name
    · subst hne
      rw [Fields.WritesAt, if_pos rfl] at h
      simp only [Fields.fill, Fields.normal, if_neg hkey, if_pos List.mem_cons_self,
        Fields.fill_cons_of_not_mem hname]
      rw [Fields.readField, if_pos rfl, if_neg (by simp)]
      -- null stands for the missing value, so a value that is there must not be written as null
      rcases h with ⟨hnone, rfl⟩ | ⟨a, hsome, h⟩
      · rw [hnone]
        exact F.bind F.optional_none rfl
      · rw [hsome]
        obtain ⟨k, rfl⟩ : ∃ k, d = k + 1 := ⟨d - 1, by omega⟩
        have hread := shape.reads_of_writes F hshape a t h k (by omega)
        exact F.bind (F.optional_some (shape.ne_null_of_writes hnever h) hread) rfl
    · rw [Fields.WritesAt, if_neg hne] at h
      simp only [Fields.fill, Fields.normal, Fields.mem_cons_iff_of_ne hne]
      rw [Fields.readField, if_neg hne]
      exact F.bind (rest.reads_of_writesAt F hrest hnodup v.2 key t h d hd.2 known read hkey) rfl
  | .defaulted name leaf _ rest, hfields, hnodup, v, key, t, h, d, hd, known, read, hkey => by
    obtain ⟨hleaf, hrest⟩ := Bool.and_eq_true_iff.mp hfields
    obtain ⟨hname, hnodup⟩ := List.nodup_cons.mp hnodup
    rw [Fields.budget, Nat.max_le] at hd
    by_cases hne : key = name
    · subst hne
      rw [Fields.WritesAt, if_pos rfl] at h
      obtain ⟨tree, htree, rfl⟩ := h
      simp only [Fields.fill, Fields.normal, if_neg hkey, if_pos List.mem_cons_self,
        Fields.fill_cons_of_not_mem hname]
      rw [Fields.readField, if_pos rfl, if_neg (by simp)]
      exact F.bind (F.leaf hleaf htree hd.1) rfl
    · rw [Fields.WritesAt, if_neg hne] at h
      simp only [Fields.fill, Fields.normal, Fields.mem_cons_iff_of_ne hne]
      rw [Fields.readField, if_neg hne]
      exact F.bind (rest.reads_of_writesAt F hrest hnodup v.2 key t h d hd.2 known read hkey) rfl

end

end MarketDag
