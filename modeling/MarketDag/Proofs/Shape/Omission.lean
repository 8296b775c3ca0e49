import MarketDag.Proofs.Shape.Written

/-!
# Leaving fields out

Where the entries of some fields are left out of a tree that stands for a record, what is left
stands for the record with these fields reset: to null, or to their defaults
(`Shape.writes_without`).  Where one entry is replaced by another tree, the result stands for a
record with another value in this field (`Shape.writes_changeAt`).
-/

namespace MarketDag

/-! ## Trees -/

namespace Ipld

/-- The tree without the entries of some keys. -/
def without (keys : List String) : Ipld → Ipld
  | .map es => .map (es.filter fun e => e.1 ∉ keys)
  | t => t

/-- The tree with the value of a key changed. -/
def changeAt (key : String) (f : Ipld → Ipld) : Ipld → Ipld
  | .map es => .map (es.map fun e => if e.1 = key then (e.1, f e.2) else e)
  | t => t

end Ipld

/-! ## Records that agree -/

namespace Fields

/-- Do two records agree in all fields but those of some keys? -/
def AgreeOff (off : List String) : (fields : Fields) → fields.Value → fields.Value → Prop
  | .nil, _, _ => True
  | .required key _ rest, v, w => (key ∉ off → v.1 = w.1) ∧ rest.AgreeOff off v.2 w.2
  | .optional key _ rest, v, w => (key ∉ off → v.1 = w.1) ∧ rest.AgreeOff off v.2 w.2
  | .defaulted key _ _ rest, v, w => (key ∉ off → v.1 = w.1) ∧ rest.AgreeOff off v.2 w.2

/-- A tree stands for the field of a key in both of two records that agree there. -/
theorem WritesAt.of_agreeOff {off : List String} : {fields : Fields} → {v w : fields.Value} →
    {key : String} → {t : Ipld} → fields.WritesAt v key t → fields.AgreeOff off v w →
    key ∉ off → fields.WritesAt w key t
  | .nil, _, _, _, _, h, _, _ => h.elim
  | .required name _ rest, _, _, key, _, h, hagree, hkey => by
    rw [WritesAt] at h ⊢
    split_ifs at h ⊢ with hname
    · rwa [← hagree.1 (hname ▸ hkey)]
    · exact h.of_agreeOff hagree.2 hkey
  | .optional name _ rest, _, _, key, _, h, hagree, hkey => by
    rw [WritesAt] at h ⊢
    split_ifs at h ⊢ with hname
    · rwa [← hagree.1 (hname ▸ hkey)]
    · exact h.of_agreeOff hagree.2 hkey
  | .defaulted name _ _ rest, _, _, key, _, h, hagree, hkey => by
    rw [WritesAt] at h ⊢
    split_ifs at h ⊢ with hname
    · rwa [← hagree.1 (hname ▸ hkey)]
    · exact h.of_agreeOff hagree.2 hkey

/-- What may be left out of a record may be left out of one that agrees with it but in fields that
are there. -/
theorem Spares.of_agreeOff {off keys : List String} (hoff : ∀ key ∈ off, key ∈ keys) :
    {fields : Fields} → {v w : fields.Value} → fields.Spares v keys →
    fields.AgreeOff off v w → fields.Spares w keys
  | .nil, _, _, _, _ => trivial
  | .required _ _ _, _, _, h, hagree => ⟨h.1, h.2.of_agreeOff hoff hagree.2⟩
  | .optional _ _ _, _, _, h, hagree =>
    ⟨fun hkey => hagree.1 (mt (hoff _) hkey) ▸ h.1 hkey, h.2.of_agreeOff hoff hagree.2⟩
  | .defaulted _ _ _ _, _, _, h, hagree =>
    ⟨fun hkey => hagree.1 (mt (hoff _) hkey) ▸ h.1 hkey, h.2.of_agreeOff hoff hagree.2⟩

/-! ## Fields that are reset -/

/-- The record with the fields of some keys null or at their defaults, if they can be. -/
def reset (removed : List String) : (fields : Fields) → fields.Value → fields.Value
  | .nil, v => v
  | .required _ _ rest, v => (v.1, rest.reset removed v.2)
  | .optional key _ rest, v => (if key ∈ removed then none else v.1, rest.reset removed v.2)
  | .defaulted key _ value rest, v =>
    (if key ∈ removed then value else v.1, rest.reset removed v.2)

/-- Are all defaults in canonical form? -/
def NormalDefaults : Fields → Prop
  | .nil => True
  | .required _ _ rest => rest.NormalDefaults
  | .optional _ _ rest => rest.NormalDefaults
  | .defaulted _ leaf value rest => leaf.normal value = value ∧ rest.NormalDefaults

theorem agreeOff_reset (removed : List String) : (fields : Fields) → (v : fields.Value) →
    fields.AgreeOff removed v (fields.reset removed v)
  | .nil, _ => trivial
  | .required _ _ rest, v => ⟨fun _ => rfl, rest.agreeOff_reset removed v.2⟩
  | .optional _ _ rest, v => ⟨fun h => (if_neg h).symm, rest.agreeOff_reset removed v.2⟩
  | .defaulted _ _ _ rest, v => ⟨fun h => (if_neg h).symm, rest.agreeOff_reset removed v.2⟩

theorem mem_filter_keys {key : String} {keys removed : List String} :
    key ∈ keys.filter (· ∉ removed) ↔ key ∈ keys ∧ key ∉ removed := by
  rw [List.mem_filter, decide_eq_true_iff]

/-- Fields that are reset may be left out. -/
theorem Spares.reset {keys removed : List String} : {fields : Fields} → {v : fields.Value} →
    fields.Spares v keys → fields.NormalDefaults → (∀ key ∈ fields.requiredKeys, key ∉ removed) →
    fields.Spares (fields.reset removed v) (keys.filter (· ∉ removed))
  | .nil, _, _, _, _ => trivial
  | .required _ _ rest, _, h, hdefaults, hrequired => by
    rw [requiredKeys, List.forall_mem_cons] at hrequired
    exact ⟨mem_filter_keys.mpr ⟨h.1, hrequired.1⟩, h.2.reset hdefaults hrequired.2⟩
  | .optional key _ rest, _, h, hdefaults, hrequired => by
    refine ⟨fun hkey => ?_, h.2.reset hdefaults hrequired⟩
    -- a key that is missing was taken out, and its field reset, or was missing before
    by_cases hremoved : key ∈ removed
    · exact if_pos hremoved
    · refine (if_neg hremoved).trans (h.1 fun hmem => ?_)
      exact hkey (mem_filter_keys.mpr ⟨hmem, hremoved⟩)
  | .defaulted key leaf value rest, _, h, hdefaults, hrequired => by
    refine ⟨fun hkey => ?_, h.2.reset hdefaults.2 hrequired⟩
    by_cases hremoved : key ∈ removed
    · exact (congrArg leaf.normal (if_pos hremoved)).trans hdefaults.1
    · refine (congrArg leaf.normal (if_neg hremoved)).trans (h.1 fun hmem => ?_)
      exact hkey (mem_filter_keys.mpr ⟨hmem, hremoved⟩)

end Fields

/-! ## Records -/

section

variable {name : String} {fields : Fields} {v : fields.Value} {t : Ipld}

/-- Without the entries of some fields, none of which the record has to have, a tree stands for the
record with these fields reset. -/
theorem Shape.writes_without {removed : List String}
    (h : (Shape.record name fields).Writes v t) (hdefaults : fields.NormalDefaults)
    (hrequired : ∀ key ∈ fields.requiredKeys, key ∉ removed) :
    (Shape.record name fields).Writes (fields.reset removed v) (t.without removed) := by
  obtain ⟨es, rfl, hascending, hes, hspares⟩ := h
  refine ⟨_, rfl, List.Pairwise.filter _ hascending, fun e he => ?_, ?_⟩
  · obtain ⟨he, hkey⟩ := List.mem_filter.mp he
    exact (hes e he).of_agreeOff (fields.agreeOff_reset removed v) (of_decide_eq_true hkey)
  · have hkeys : (es.filter fun e => e.1 ∉ removed).map Prod.fst =
        (es.map Prod.fst).filter (· ∉ removed) := by
      rw [List.filter_map]
      rfl
    rw [hkeys]
    exact hspares.reset hdefaults hrequired

theorem Ipld.keys_changeAt (key : String) (f : Ipld → Ipld) (es : List (String × Ipld)) :
    (es.map fun e => if e.1 = key then (e.1, f e.2) else e).map Prod.fst = es.map Prod.fst := by
  rw [List.map_map]
  refine List.map_congr_left fun e _ => ?_
  simp only [Function.comp]
  split <;> rfl

/-- With another tree under one key, which has to be there, a tree stands for a record with another
value in this field. -/
theorem Shape.writes_changeAt (fields : Fields) {v w : fields.Value} {key : String}
    {f : Ipld → Ipld} (h : (Shape.record name fields).Writes v t)
    (hagree : fields.AgreeOff [key] v w)
    (hkey : ∀ es, t = .map es → key ∈ es.map Prod.fst)
    (hfield : ∀ t, fields.WritesAt v key t → fields.WritesAt w key (f t)) :
    (Shape.record name fields).Writes w (t.changeAt key f) := by
  obtain ⟨es, rfl, hascending, hes, hspares⟩ := h
  have hkeys := Ipld.keys_changeAt key f es
  refine ⟨_, rfl, ?_, fun e he => ?_, ?_⟩
  · have hsorted : (es.map Prod.fst).Pairwise (· < ·) := List.pairwise_map.mpr hascending
    exact List.pairwise_map.mp (hkeys.symm ▸ hsorted)
  · obtain ⟨e, hmem, rfl⟩ := List.mem_map.mp he
    have hwrites := hes e hmem
    split
    · rename_i heq
      rw [heq] at hwrites ⊢
      exact hfield e.2 hwrites
    · rename_i hne
      exact hwrites.of_agreeOff hagree (by simpa using hne)
  · rw [hkeys]
    exact hspares.of_agreeOff (by simpa using hkey es rfl) hagree

end

end MarketDag
