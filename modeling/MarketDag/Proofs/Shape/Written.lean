import MarketDag.Proofs.Shape.Layout

/-!
# Ways to write a value

A value has its canonical tree, and others besides: a field that may be missing can be left out
where it is null or has its default.  `Shape.Writes` says which trees stand for a value.  The
canonical tree is one of them (`Shape.writes_canonical`), and what holds of leaves and is passed on
to lists and maps holds of them all (`Shape.hereditary_of_writes`).
-/

namespace MarketDag

/-! ## Trees of a value -/

/-- Is this the canonical tree of a value of a leaf? -/
def Leaf.Writes (leaf : Leaf) (v : leaf.Value) (t : Ipld) : Prop :=
  ∃ tree, leaf.layout v = .ok tree ∧ tree.canonical = t

/-- May the fields be left out whose keys are not among these? An optional field may if it is null,
and a field with a default if it has this as its canonical form. -/
def Fields.Spares : (fields : Fields) → fields.Value → List String → Prop
  | .nil, _, _ => True
  | .required key _ rest, v, keys => key ∈ keys ∧ rest.Spares v.2 keys
  | .optional key _ rest, v, keys => (key ∉ keys → v.1 = none) ∧ rest.Spares v.2 keys
  | .defaulted key leaf value rest, v, keys =>
    (key ∉ keys → leaf.normal v.1 = value) ∧ rest.Spares v.2 keys

mutual

/-- Does a canonical tree stand for a value? -/
def Shape.Writes : (shape : Shape) → shape.Value → Ipld → Prop
  | .leaf leaf, v, t => leaf.Writes v t
  | .list item, vs, t => ∃ ts, t = .list ts ∧ List.Forall₂ item.Writes vs ts
  | .record _ fields, v, t => ∃ es, t = .map es ∧ Ascending es ∧
    (∀ e ∈ es, fields.WritesAt v e.1 e.2) ∧ fields.Spares v (es.map Prod.fst)
  | .either _ first _, .inl v, t => first.Writes v t
  | .either _ _ second, .inr v, t => second.Writes v t

/-- Does a tree stand for the field of a key? -/
def Fields.WritesAt : (fields : Fields) → fields.Value → String → Ipld → Prop
  | .nil, _, _, _ => False
  | .required name shape rest, v, key, t =>
    if key = name then shape.Writes v.1 t else rest.WritesAt v.2 key t
  | .optional name shape rest, v, key, t =>
    if key = name then (v.1 = none ∧ t = .null) ∨ ∃ a, v.1 = some a ∧ shape.Writes a t
    else rest.WritesAt v.2 key t
  | .defaulted name leaf _ rest, v, key, t =>
    if key = name then leaf.Writes v.1 t else rest.WritesAt v.2 key t

end

/-! ## Fields -/

namespace Fields

theorem WritesAt.mem_keys : {fields : Fields} → {v : fields.Value} → {key : String} → {t : Ipld} →
    fields.WritesAt v key t → key ∈ fields.keys
  | .nil, _, _, _, h => h.elim
  | .required name _ rest, _, key, _, h => by
    by_cases hkey : key = name
    · exact hkey ▸ List.mem_cons_self
    · rw [WritesAt, if_neg hkey] at h
      exact List.mem_cons_of_mem _ h.mem_keys
  | .optional name _ rest, _, key, _, h => by
    by_cases hkey : key = name
    · exact hkey ▸ List.mem_cons_self
    · rw [WritesAt, if_neg hkey] at h
      exact List.mem_cons_of_mem _ h.mem_keys
  | .defaulted name _ _ rest, _, key, _, h => by
    by_cases hkey : key = name
    · exact hkey ▸ List.mem_cons_self
    · rw [WritesAt, if_neg hkey] at h
      exact List.mem_cons_of_mem _ h.mem_keys

/-- More keys may be left out of fewer. -/
theorem Spares.mono : {fields : Fields} → {v : fields.Value} → {keys keys' : List String} →
    fields.Spares v keys → (∀ key ∈ keys, key ∈ keys') → fields.Spares v keys'
  | .nil, _, _, _, _, _ => trivial
  | .required _ _ _, _, _, _, h, hkeys => ⟨hkeys _ h.1, h.2.mono hkeys⟩
  | .optional _ _ _, _, _, _, h, hkeys =>
    ⟨fun hkey => h.1 fun hmem => hkey (hkeys _ hmem), h.2.mono hkeys⟩
  | .defaulted _ _ _ _, _, _, _, h, hkeys =>
    ⟨fun hkey => h.1 fun hmem => hkey (hkeys _ hmem), h.2.mono hkeys⟩

theorem spares_of_keys : {fields : Fields} → (v : fields.Value) → {keys : List String} →
    (∀ key ∈ fields.keys, key ∈ keys) → fields.Spares v keys
  | .nil, _, _, _ => trivial
  | .required _ _ _, v, _, h =>
    ⟨(List.forall_mem_cons.mp h).1, spares_of_keys v.2 (List.forall_mem_cons.mp h).2⟩
  | .optional _ _ _, v, _, h =>
    ⟨(absurd (List.forall_mem_cons.mp h).1 ·), spares_of_keys v.2 (List.forall_mem_cons.mp h).2⟩
  | .defaulted _ _ _ _, v, _, h =>
    ⟨(absurd (List.forall_mem_cons.mp h).1 ·), spares_of_keys v.2 (List.forall_mem_cons.mp h).2⟩

end Fields

/-! ## Canonical trees -/

mutual

/-- The canonical tree of a value stands for it. -/
theorem Shape.writes_canonical : {links : Bool} → {shape : Shape} → {v : shape.Value} →
    {t : Ipld} → shape.Sound links = true → shape.layout v = .ok t → shape.Writes v t.canonical
  | _, .leaf _, _, _, _, h => ⟨_, h, rfl⟩
  | _, .list item, _, _, hshape, h => by
    obtain ⟨ts, hts, rfl⟩ := map_eq_ok.mp h
    refine ⟨ts.map Ipld.canonical, Ipld.canonical_list ts, ?_⟩
    rw [List.forall₂_map_right_iff]
    exact (forall₂_of_mapM_eq_ok hts).imp fun _ _ hv => item.writes_canonical hshape hv
  | _, .record _ fields, v, _, hshape, h => by
    obtain ⟨hkeys, hfields⟩ := Bool.and_eq_true_iff.mp hshape
    have hkeys : fields.keys.Nodup := of_decide_eq_true hkeys
    obtain ⟨es, hes, rfl⟩ := map_eq_ok.mp h
    have hnodup : (es.map Prod.fst).Nodup := Fields.layout_keys hes ▸ hkeys
    -- fields are laid out in the order of the source; the canonical map has the same entries sorted
    obtain ⟨sorted, hsorted, hascending, hperm⟩ := Ipld.canonical_map_of_nodup hnodup
    refine ⟨sorted, hsorted, hascending, fun e he => ?_, fields.spares_of_keys v ?_⟩
    · obtain ⟨e, he', rfl⟩ := List.mem_map.mp (hperm.mem_iff.mp he)
      exact fields.writesAt_canonical hfields hkeys hes e he'
    · intro key hkey
      rw [(hperm.map Prod.fst).mem_iff, List.map_map]
      exact (Fields.layout_keys hes).symm ▸ hkey
  | _, .either _ first _, .inl _, _, hshape, h =>
    first.writes_canonical (Bool.and_eq_true_iff.mp (Bool.and_eq_true_iff.mp hshape).1).1 h
  | _, .either _ _ second, .inr _, _, hshape, h =>
    second.writes_canonical (Bool.and_eq_true_iff.mp (Bool.and_eq_true_iff.mp hshape).1).2 h

theorem Fields.writesAt_canonical : {links : Bool} → {fields : Fields} → {v : fields.Value} →
    {es : List (String × Ipld)} → fields.Sound links = true → fields.keys.Nodup →
    fields.layout v = .ok es → ∀ e ∈ es, fields.WritesAt v e.1 e.2.canonical
  | _, .nil, _, _, _, _, h => by
    cases h
    simp
  | _, .required name shape rest, _, _, hfields, hnodup, h => by
    obtain ⟨hshape, hrest⟩ := Bool.and_eq_true_iff.mp hfields
    obtain ⟨hname, hnodup⟩ := List.nodup_cons.mp hnodup
    obtain ⟨t, es, rfl, ht, hes⟩ := Fields.layout_required h
    refine List.forall_mem_cons.mpr ⟨?_, fun e he => ?_⟩
    · rw [Fields.WritesAt, if_pos rfl]
      exact shape.writes_canonical hshape ht
    · -- names differ, so an entry behind belongs to one of the other fields
      rw [Fields.WritesAt, if_neg (Fields.ne_of_layout hname hes he)]
      exact rest.writesAt_canonical hrest hnodup hes e he
  | _, .optional name shape rest, _, _, hfields, hnodup, h => by
    obtain ⟨hshape, hrest⟩ := Bool.and_eq_true_iff.mp hfields
    obtain ⟨hname, hnodup⟩ := List.nodup_cons.mp hnodup
    obtain ⟨t, es, rfl, hes, hv⟩ := Fields.layout_optional h
    refine List.forall_mem_cons.mpr ⟨?_, fun e he => ?_⟩
    · rw [Fields.WritesAt, if_pos rfl]
      rcases hv with ⟨hnone, rfl⟩ | ⟨a, hsome, ht⟩
      · exact .inl ⟨hnone, rfl⟩
      · have hshape := (Bool.and_eq_true_iff.mp hshape).1
        exact .inr ⟨a, hsome, shape.writes_canonical hshape ht⟩
    · rw [Fields.WritesAt, if_neg (Fields.ne_of_layout hname hes he)]
      exact rest.writesAt_canonical hrest hnodup hes e he
  | _, .defaulted name leaf _ rest, _, _, hfields, hnodup, h => by
    obtain ⟨hleaf, hrest⟩ := Bool.and_eq_true_iff.mp hfields
    obtain ⟨hname, hnodup⟩ := List.nodup_cons.mp hnodup
    obtain ⟨t, es, rfl, ht, hes⟩ := Fields.layout_defaulted h
    refine List.forall_mem_cons.mpr ⟨?_, fun e he => ?_⟩
    · rw [Fields.WritesAt, if_pos rfl]
      exact ⟨t, ht, rfl⟩
    · rw [Fields.WritesAt, if_neg (Fields.ne_of_layout hname hes he)]
      exact rest.writesAt_canonical hrest hnodup hes e he

end

/-! ## Null -/

theorem Shape.ne_null_of_writes : {shape : Shape} → {v : shape.Value} → {t : Ipld} →
    shape.neverNull = true → shape.Writes v t → t ≠ .null
  | .leaf _, _, _, hshape, ⟨_, h, ht⟩ => by
    rw [← ht, Ne, Ipld.canonical_eq_null_iff]
    exact Leaf.layout_ne_null hshape h
  | .list _, _, _, _, ⟨_, ht, _⟩ => ht ▸ Ipld.noConfusion
  | .record _ _, _, _, _, ⟨_, ht, _⟩ => ht ▸ Ipld.noConfusion
  | .either _ first _, .inl _, _, hshape, h =>
    first.ne_null_of_writes (Bool.and_eq_true_iff.mp hshape).1 h
  | .either _ _ second, .inr _, _, hshape, h =>
    second.ne_null_of_writes (Bool.and_eq_true_iff.mp hshape).2 h

/-! ## Properties of all parts -/

mutual

/-- A tree that stands for a value has what its parts have, and is no deeper than the shape. -/
theorem Shape.hereditary_of_writes {P : Nat → Ipld → Prop} : {links : Bool} →
    Ipld.Hereditary links P → {shape : Shape} → {v : shape.Value} → {t : Ipld} →
    shape.Sound links = true → shape.Writes v t → P shape.height t
  | _, H, .leaf _, _, _, hshape, ⟨_, h, ht⟩ => ht ▸ Leaf.layout_hereditary H hshape h
  | _, H, .list item, vs, _, hshape, ⟨ts, ht, hts⟩ => by
    subst ht
    refine H.list fun t ht => ?_
    obtain ⟨v, -, hv⟩ := exists_of_mem_forall₂ hts ht
    exact item.hereditary_of_writes H hshape hv
  | _, H, .record _ fields, _, _, hshape, ⟨es, ht, hascending, hes, _⟩ => by
    subst ht
    obtain ⟨-, hfields⟩ := Bool.and_eq_true_iff.mp hshape
    exact H.map hascending fun e he => fields.hereditary_of_writesAt H hfields (hes e he)
  | _, H, .either _ first second, .inl v, _, hshape, h => by
    -- variants are buffered, and so hold no links
    have hfirst := (Bool.and_eq_true_iff.mp (Bool.and_eq_true_iff.mp hshape).1).1
    exact H.mono (first.hereditary_of_writes H.withoutLinks hfirst h) (Nat.le_max_left ..)
  | _, H, .either _ first second, .inr v, _, hshape, h => by
    have hsecond := (Bool.and_eq_true_iff.mp (Bool.and_eq_true_iff.mp hshape).1).2
    exact H.mono (second.hereditary_of_writes H.withoutLinks hsecond h) (Nat.le_max_right ..)

theorem Fields.hereditary_of_writesAt {P : Nat → Ipld → Prop} : {links : Bool} →
    Ipld.Hereditary links P → {fields : Fields} → {v : fields.Value} → {key : String} →
    {t : Ipld} → fields.Sound links = true → fields.WritesAt v key t → P fields.height t
  | _, _, .nil, _, _, _, _, h => h.elim
  | _, H, .required name shape rest, _, key, _, hfields, h => by
    obtain ⟨hshape, hrest⟩ := Bool.and_eq_true_iff.mp hfields
    rw [Fields.WritesAt] at h
    split at h
    · exact H.mono (shape.hereditary_of_writes H hshape h) (Nat.le_max_left ..)
    · exact H.mono (rest.hereditary_of_writesAt H hrest h) (Nat.le_max_right ..)
  | _, H, .optional name shape rest, _, key, _, hfields, h => by
    obtain ⟨hshape, hrest⟩ := Bool.and_eq_true_iff.mp hfields
    have hshape := (Bool.and_eq_true_iff.mp hshape).1
    rw [Fields.WritesAt] at h
    split at h
    · rcases h with ⟨-, rfl⟩ | ⟨a, -, h⟩
      · exact H.mono H.null (Nat.zero_le _)
      · exact H.mono (shape.hereditary_of_writes H hshape h) (Nat.le_max_left ..)
    · exact H.mono (rest.hereditary_of_writesAt H hrest h) (Nat.le_max_right ..)
  | _, H, .defaulted name leaf _ rest, _, key, _, hfields, h => by
    obtain ⟨hleaf, hrest⟩ := Bool.and_eq_true_iff.mp hfields
    rw [Fields.WritesAt] at h
    split at h
    · obtain ⟨tree, htree, rfl⟩ := h
      exact H.mono (leaf.layout_hereditary H hleaf htree) (Nat.le_max_left ..)
    · exact H.mono (rest.hereditary_of_writesAt H hrest h) (Nat.le_max_right ..)

end

/-- The canonical tree of a value has what its parts have, and is no deeper than the shape. -/
theorem Shape.layout_hereditary {P : Nat → Ipld → Prop} {links : Bool}
    (H : Ipld.Hereditary links P) {shape : Shape} {v : shape.Value} {t : Ipld}
    (hshape : shape.Sound links = true) (h : shape.layout v = .ok t) :
    P shape.height t.canonical :=
  shape.hereditary_of_writes H hshape (shape.writes_canonical hshape h)

/-- A tree that stands for a value without links is plain. -/
theorem Shape.plain_of_writes {shape : Shape} {v : shape.Value} {t : Ipld}
    (hshape : shape.Sound false = true) (h : shape.Writes v t) : t.PlainWithin shape.height :=
  shape.hereditary_of_writes Ipld.hereditary_plainWithin hshape h

/-- The canonical tree of a value is regular. -/
theorem Shape.layout_regular {shape : Shape} {v : shape.Value} {t : Ipld}
    (hshape : shape.Sound true = true) (h : shape.layout v = .ok t) :
    t.canonical.RegularWithin shape.height :=
  shape.layout_hereditary Ipld.hereditary_regularWithin hshape h

end MarketDag
