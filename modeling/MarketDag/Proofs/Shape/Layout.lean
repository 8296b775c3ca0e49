import Mathlib.Data.List.Nodup
import MarketDag.Proofs.Except
import MarketDag.Proofs.Shape.Faithful
import MarketDag.Proofs.Time.Instant

/-!
# Trees of values

What the tree of a value of a shape looks like: when it is null, how deep it is nested, and that
the texts in it are read back as leaves.
-/

namespace MarketDag

/-! ## Leaves -/

theorem choose_get {names : List String} (h : names.Nodup) (i : Fin names.length) :
    choose names (names.get i) = .ok i := by
  have hfind : names.finIdxOf? (names.get i) = some i := by
    rw [List.finIdxOf?_eq_some_iff]
    refine ⟨rfl, fun j hj heq => ?_⟩
    have hji : j = i := List.nodup_iff_injective_get.mp h heq
    exact Nat.lt_irrefl _ (hji ▸ hj)
  rw [choose, hfind]

theorem readDecimal_canonicalText (d : Decimal) :
    readDecimal d.canonicalText = .ok d.normalize :=
  mapError_eq_ok.mpr (Decimal.ofText_toText Decimal.normalize_negative_of_zero)

theorem readDate_toText (d : Date) : readDate d.toText = .ok d :=
  mapError_eq_ok.mpr d.ofText_toText

theorem readInstant_canonical {t : Instant} {s : String} (h : t.canonical? = some s) :
    readInstant s = .ok t :=
  mapError_eq_ok.mpr (Instant.ofText_canonical h)

theorem readCount_val (n : Fin UInt32.size) : readCount n.val = .ok n :=
  dif_pos ⟨Int.natCast_nonneg _, n.isLt⟩

theorem layout_instant {t : Instant} {tree : Ipld} (h : Leaf.layout .instant t = .ok tree) :
    ∃ s, t.canonical? = some s ∧ tree = .text s := by
  unfold Leaf.layout at h
  split at h
  · rename_i s hs
    cases h
    exact ⟨s, hs, rfl⟩
  · cases h

/-! ## Headers -/

namespace Headers

theorem place_perm {entry : String × String} {es : List (String × String)}
    (h : ∀ e ∈ es, e.1 ≠ entry.1) : (place entry es).Perm (entry :: es) := by
  induction es with
  | nil => exact .refl _
  | cons e es ih =>
    rw [place]
    split
    · exact ((ih fun x hx => h x (List.mem_cons_of_mem _ hx)).cons e).trans (.swap entry e es)
    · rw [if_neg (h e List.mem_cons_self)]

theorem entries_foldl_insert {es : List (String × String)} {hs : Headers}
    (hnodup : (es.map Prod.fst).Nodup) (hnew : ∀ e ∈ es, ∀ x ∈ hs.entries, x.1 ≠ e.1) :
    (es.foldl (fun hs e => hs.insert e.1 e.2) hs).entries.Perm (es ++ hs.entries) := by
  induction es generalizing hs with
  | nil => exact .refl _
  | cons e es ih =>
    rw [List.map_cons, List.nodup_cons] at hnodup
    have hplace : (hs.insert e.1 e.2).entries.Perm (e :: hs.entries) :=
      place_perm (hnew e List.mem_cons_self)
    refine (ih hnodup.2 fun x hx y hy => ?_).trans ((hplace.append_left es).trans ?_)
    · rcases List.mem_cons.mp (hplace.mem_iff.mp hy) with rfl | hy
      · rintro heq
        exact hnodup.1 (heq ▸ List.mem_map_of_mem hx)
      · exact hnew x (List.mem_cons_of_mem _ hx) y hy
    · exact List.perm_middle

/-- Headers are put together again from their entries in any order. -/
theorem foldl_insert_perm {hs : Headers} {es : List (String × String)} (h : es.Perm hs.entries) :
    es.foldl (fun hs e => hs.insert e.1 e.2) empty = hs := by
  have hnodup : (es.map Prod.fst).Nodup :=
    (h.map Prod.fst).nodup_iff.mpr (Ascending.nodup hs.ascending)
  have hempty : ∀ e ∈ es, ∀ x ∈ empty.entries, x.1 ≠ e.1 := by simp [empty]
  have hperm := entries_foldl_insert hnodup hempty
  rw [empty, List.append_nil] at hperm
  have hentries := Ascending.eq_of_perm (Headers.ascending _) hs.ascending (hperm.trans h)
  cases hs
  exact Headers.mk.injEq .. ▸ hentries

end Headers

/-- The tree of headers in whatever order its entries come. -/
theorem layout_headers {hs : Headers} {t : Ipld} (h : Leaf.layout .headers hs = .ok t) :
    ∃ sorted, t.canonical = .map sorted ∧ ∀ es' : List (String × Ipld), es'.Perm sorted →
      ∃ texts : List (String × String), texts.Perm hs.entries ∧
        es' = texts.map fun e => (e.1, .text e.2) := by
  cases h
  obtain ⟨sorted, hsorted, hperm⟩ :=
    Ipld.canonical_map (hs.entries.map fun h => (h.1, Ipld.text h.2))
  refine ⟨sorted, hsorted, fun es' hes' => ?_⟩
  rw [List.map_map] at hperm
  exact exists_perm_of_perm_map (hes'.trans hperm)

/-! ## Null -/

theorem Leaf.layout_ne_null {leaf : Leaf} {v : leaf.Value} {t : Ipld}
    (hleaf : (Shape.leaf leaf).neverNull = true) (h : leaf.layout v = .ok t) : t ≠ .null := by
  cases leaf with
  | instant =>
    obtain ⟨s, -, rfl⟩ := layout_instant h
    simp
  | optional inner => cases hleaf
  | _ =>
    cases h
    simp

/-! ## Fields -/

namespace Fields

variable {key : String} {shape : Shape} {leaf : Leaf} {value : leaf.Value} {rest : Fields}
  {es : List (String × Ipld)}

theorem layout_required {v : (required key shape rest).Value}
    (h : (required key shape rest).layout v = .ok es) :
    ∃ t es', es = (key, t) :: es' ∧ shape.layout v.1 = .ok t ∧ rest.layout v.2 = .ok es' := by
  obtain ⟨t, ht, h⟩ := bind_eq_ok.mp h
  obtain ⟨es', hes, h⟩ := bind_eq_ok.mp h
  cases h
  exact ⟨t, es', rfl, ht, hes⟩

theorem layout_optional {v : (optional key shape rest).Value}
    (h : (optional key shape rest).layout v = .ok es) :
    ∃ t es', es = (key, t) :: es' ∧ rest.layout v.2 = .ok es' ∧
      ((v.1 = none ∧ t = .null) ∨ ∃ a, v.1 = some a ∧ shape.layout a = .ok t) := by
  obtain ⟨v, vs⟩ := v
  cases v with
  | none =>
    obtain ⟨t, ht, h⟩ := bind_eq_ok.mp h
    obtain ⟨es', hes, h⟩ := bind_eq_ok.mp h
    cases ht
    cases h
    exact ⟨.null, es', rfl, hes, .inl ⟨rfl, rfl⟩⟩
  | some a =>
    obtain ⟨t, ht, h⟩ := bind_eq_ok.mp h
    obtain ⟨es', hes, h⟩ := bind_eq_ok.mp h
    cases h
    exact ⟨t, es', rfl, hes, .inr ⟨a, rfl, ht⟩⟩

theorem layout_defaulted {v : (defaulted key leaf value rest).Value}
    (h : (defaulted key leaf value rest).layout v = .ok es) :
    ∃ t es', es = (key, t) :: es' ∧ leaf.layout v.1 = .ok t ∧ rest.layout v.2 = .ok es' := by
  obtain ⟨t, ht, h⟩ := bind_eq_ok.mp h
  obtain ⟨es', hes, h⟩ := bind_eq_ok.mp h
  cases h
  exact ⟨t, es', rfl, ht, hes⟩

/-- The entries of a record have the keys of its fields in their order. -/
theorem layout_keys : {fields : Fields} → {v : fields.Value} → {es : List (String × Ipld)} →
    fields.layout v = .ok es → es.map Prod.fst = fields.keys
  | .nil, _, _, h => by
    cases h
    rfl
  | .required _ _ _, _, _, h => by
    obtain ⟨t, es, rfl, -, hes⟩ := layout_required h
    exact congrArg (_ :: ·) (layout_keys hes)
  | .optional _ _ _, _, _, h => by
    obtain ⟨t, es, rfl, hes, -⟩ := layout_optional h
    exact congrArg (_ :: ·) (layout_keys hes)
  | .defaulted _ _ _ _, _, _, h => by
    obtain ⟨t, es, rfl, -, hes⟩ := layout_defaulted h
    exact congrArg (_ :: ·) (layout_keys hes)

/-- The key of another entry is not that of the field before them. -/
theorem ne_of_layout {name : String} {fields : Fields} {v : fields.Value}
    {es : List (String × Ipld)} {e : String × Ipld} (hname : name ∉ fields.keys)
    (h : fields.layout v = .ok es) (he : e ∈ es) : e.1 ≠ name := by
  rintro rfl
  rw [← layout_keys h] at hname
  exact hname (List.mem_map_of_mem he)

end Fields

/-! ## Properties of leaves -/

theorem Leaf.layout_hereditary {links : Bool} {P : Nat → Ipld → Prop}
    (H : Ipld.Hereditary links P) {leaf : Leaf} {v : leaf.Value} {t : Ipld}
    (hleaf : leaf.Sound links = true) (h : leaf.layout v = .ok t) : P leaf.height t.canonical := by
  cases leaf with
  | instant =>
    obtain ⟨s, -, rfl⟩ := layout_instant h
    exact H.text s
  | link =>
    cases h
    exact H.link hleaf v
  | headers =>
    cases h
    -- only headers are a tree of their own, a map of texts
    have hnodup : ((v.entries.map fun h => (h.1, Ipld.text h.2)).map Prod.fst).Nodup := by
      rw [List.map_map]
      exact Ascending.nodup v.ascending
    obtain ⟨sorted, hsorted, hascending, hperm⟩ := Ipld.canonical_map_of_nodup hnodup
    rw [hsorted]
    refine H.map hascending fun e he => ?_
    obtain ⟨x, hx, rfl⟩ := List.mem_map.mp (hperm.mem_iff.mp he)
    obtain ⟨y, -, rfl⟩ := List.mem_map.mp hx
    exact H.text y.2
  | count =>
    cases h
    have hlt := v.isLt
    simp only [UInt32.size] at hlt
    exact H.integer (Int.natCast_nonneg _) (by omega)
  | optional inner =>
    cases v with
    | none =>
      cases h
      exact H.mono H.null (Nat.zero_le _)
    | some v =>
      have hinner : P inner.height t.canonical := layout_hereditary H (sound_inner hleaf).1 h
      exact hinner
  | _ =>
    cases h
    exact H.text _

end MarketDag
