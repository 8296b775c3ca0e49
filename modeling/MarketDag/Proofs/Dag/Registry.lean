import MarketDag.Dag.Registry
import MarketDag.Proofs.Document.Schema

/-!
# Registries: the two tables

One more kind goes into both tables if it is not there, else its schema is taken
(`SchemaTables.register_of_new`, `SchemaTables.register_of_mem`).  So tables hold some kinds, each
once and under its own schema (`SchemaTables.Holds`), after every step of a registration, which
stops at the first kind that comes again (`SchemaTables.foldlM_register_eq_error`).  A registry is
a list of kinds without repetition seen from both sides: it finds exactly its kinds by their
schemas (`Registry.resolve_eq_ok`), and exactly their schemas by its kinds
(`Registry.schema?_eq_some`).
-/

namespace MarketDag

/-! ## What tables hold -/

/-- Tables with some kinds, each once and under its own schema. -/
structure SchemaTables.Holds (t : SchemaTables) (ks : List Kind) : Prop where
  nodup : ks.Nodup
  keys : t.schemas.keys = ks
  size : t.kinds.size = ks.length
  kind_iff : ∀ c k, t.kinds.get? c = some k ↔ k ∈ ks ∧ k.schema = c
  schema_iff : ∀ k c, t.schemas.get? k = some c ↔ k ∈ ks ∧ k.schema = c

namespace SchemaTables

theorem holds_nil : Holds {} [] where
  nodup := List.nodup_nil
  keys := rfl
  size := rfl
  kind_iff := by simp [Table.get?]
  schema_iff := by simp [Table.get?]

variable {t t' : SchemaTables} {ks : List Kind} {k : Kind}

/-- The two tables are inverse to each other. -/
theorem Holds.inverse (h : t.Holds ks) (k : Kind) (c : Cid) :
    t.schemas.get? k = some c ↔ t.kinds.get? c = some k :=
  (h.schema_iff k c).trans (h.kind_iff c k).symm

theorem Holds.kinds_get?_schema (h : t.Holds ks) (k : Kind) :
    t.kinds.get? k.schema = if k ∈ ks then some k else none := by
  split
  · rename_i hmem
    exact (h.kind_iff k.schema k).mpr ⟨hmem, rfl⟩
  · rename_i hnew
    refine Option.eq_none_iff_forall_ne_some.mpr fun l hl => ?_
    obtain ⟨hmem, hschema⟩ := (h.kind_iff k.schema l).mp hl
    exact hnew (Kind.schema_injective hschema ▸ hmem)

theorem Holds.schemas_get?_of_new (h : t.Holds ks) (hnew : k ∉ ks) : t.schemas.get? k = none :=
  Option.eq_none_iff_forall_ne_some.mpr fun c hc => hnew ((h.schema_iff k c).mp hc).1

/-! ## One step -/

/-- A step does not depend on the text but on the schema that it names. -/
theorem register_eq (t : SchemaTables) (k : Kind) :
    t.register k = match t.kinds.insert k.schema k with
      | (some existing, _) => .error (.misconfigured (.registeredTwice k.schema existing k))
      | (none, kinds) => .ok ⟨kinds, (t.schemas.insert k k.schema).2⟩ := by
  rw [register, k.ofSchemaText_schemaText]
  rfl

/-- The schema of a kind that is there already is registered for the same kind. -/
theorem register_of_mem (h : t.Holds ks) (hmem : k ∈ ks) :
    t.register k = .error (.misconfigured (.registeredTwice k.schema k k)) := by
  have hget : t.kinds.get? k.schema = some k := by rw [h.kinds_get?_schema, if_pos hmem]
  rw [register_eq, Table.insert, hget]

/-- A new kind goes into both tables. -/
theorem register_of_new (h : t.Holds ks) (hnew : k ∉ ks) :
    ∃ t', t.register k = .ok t' ∧ t'.Holds (ks ++ [k]) := by
  have hkinds : t.kinds.get? k.schema = none := by rw [h.kinds_get?_schema, if_neg hnew]
  have hschemas := h.schemas_get?_of_new hnew
  refine ⟨⟨(t.kinds.insert k.schema k).2, (t.schemas.insert k k.schema).2⟩, ?_, ?_⟩
  · rw [register_eq, Table.insert, hkinds]
  · constructor
    · exact List.nodup_append_comm.mpr (List.nodup_cons.mpr ⟨hnew, h.nodup⟩)
    · rw [Table.keys_insert_of_new hschemas, h.keys]
    · rw [Table.size_insert_of_new hkinds, h.size, List.length_append, List.length_singleton]
    · intro c l
      rw [Table.get?_insert, List.mem_append, List.mem_singleton]
      split
      -- Only here it matters that no two kinds have the same schema: `l` has the one of `k`.
      · rename_i hc
        subst hc
        have hl : l.schema = k.schema → l = k := Kind.schema_injective
        grind
      · rw [h.kind_iff]
        grind
    · intro l c
      rw [Table.get?_insert, List.mem_append, List.mem_singleton]
      split
      · rename_i hl
        subst hl
        simp
      · rename_i hl
        simp [h.schema_iff, hl]

/-! ## All steps -/

/-- Kinds are registered one after the other when none of them comes again. -/
theorem foldlM_register_of_nodup (h : t.Holds ks) {more : List Kind} (hnodup : (ks ++ more).Nodup) :
    ∃ t', more.foldlM register t = .ok t' ∧ t'.Holds (ks ++ more) := by
  induction more generalizing t ks with
  | nil => exact ⟨t, rfl, by rwa [List.append_nil]⟩
  | cons k more ih =>
    have hnew : k ∉ ks := fun hmem =>
      (List.nodup_append.mp hnodup).2.2 k hmem k List.mem_cons_self rfl
    obtain ⟨t₁, hregister, h₁⟩ := register_of_new h hnew
    rw [List.append_cons] at hnodup ⊢
    obtain ⟨t', hfold, h'⟩ := ih h₁ hnodup
    refine ⟨t', ?_, h'⟩
    rw [List.foldlM_cons, bind_of_ok hregister, hfold]

/-- Registration stops at the first kind that is in the tables or among the kinds before it. -/
theorem foldlM_register_of_repeated (h : t.Holds ks) {before after : List Kind}
    (hnodup : (ks ++ before).Nodup) (hmem : k ∈ ks ++ before) :
    (before ++ k :: after).foldlM register t =
      .error (.misconfigured (.registeredTwice k.schema k k)) := by
  obtain ⟨t', hfold, h'⟩ := foldlM_register_of_nodup h hnodup
  rw [List.foldlM_append, bind_of_ok hfold, List.foldlM_cons]
  exact bind_of_error (register_of_mem h' hmem)

end SchemaTables

/-! ## Repeated kinds -/

/-- The first kind of a list that stands in it a second time. -/
def FirstRepeated (ks : List Kind) (k : Kind) : Prop :=
  ∃ before after, ks = before ++ k :: after ∧ before.Nodup ∧ k ∈ before

theorem exists_firstRepeated {ks : List Kind} (h : ¬ ks.Nodup) : ∃ k, FirstRepeated ks k := by
  induction ks using List.reverseRecOn with
  | nil => exact absurd List.nodup_nil h
  | append_singleton ks k ih =>
    by_cases hks : ks.Nodup
    · refine ⟨k, ks, [], rfl, hks, ?_⟩
      by_contra hnew
      exact h (List.nodup_append_comm.mpr (List.nodup_cons.mpr ⟨hnew, hks⟩))
    · obtain ⟨l, before, after, rfl, hnodup, hl⟩ := ih hks
      exact ⟨l, before, after ++ [k], by simp, hnodup, hl⟩

namespace SchemaTables

/-- Tables of kinds that are not repeated hold these kinds. -/
theorem exists_ofKinds {ks : List Kind} (h : ks.Nodup) : ∃ t, ofKinds ks = .ok t ∧ t.Holds ks :=
  foldlM_register_of_nodup holds_nil h

theorem ofKinds_of_firstRepeated {ks : List Kind} {k : Kind} (h : FirstRepeated ks k) :
    ofKinds ks = .error (.misconfigured (.registeredTwice k.schema k k)) := by
  obtain ⟨before, after, rfl, hnodup, hk⟩ := h
  exact foldlM_register_of_repeated holds_nil hnodup hk

theorem holds_of_ofKinds {ks : List Kind} {t : SchemaTables} (h : ofKinds ks = .ok t) :
    t.Holds ks := by
  by_cases hnodup : ks.Nodup
  · obtain ⟨t', ht', hholds⟩ := exists_ofKinds hnodup
    rw [h] at ht'
    cases ht'
    exact hholds
  · obtain ⟨k, hk⟩ := exists_firstRepeated hnodup
    rw [ofKinds_of_firstRepeated hk] at h
    cases h

end SchemaTables

/-! ## Registries -/

namespace Registry

/-- The kinds of a registry in the order of their registration. -/
def kinds (r : Registry) : List Kind := r.tables.schemas.keys

/-- The tables of a registry hold its kinds. -/
theorem holds (r : Registry) : r.tables.Holds r.kinds := by
  obtain ⟨ks, h⟩ := r.registered
  have hholds := SchemaTables.holds_of_ofKinds h
  rw [kinds, hholds.keys]
  exact hholds

theorem map_tables_ofKinds (ks : List Kind) :
    Registry.tables <$> ofKinds ks = SchemaTables.ofKinds ks := by
  unfold ofKinds
  split
  · rename_i t h
    exact h.symm
  · rename_i e h
    exact h.symm

/-- A registry of some kinds has these kinds in their order. -/
theorem kinds_ofKinds {r : Registry} {ks : List Kind} (h : ofKinds ks = .ok r) : r.kinds = ks := by
  have htables := map_tables_ofKinds ks
  rw [h] at htables
  exact (SchemaTables.holds_of_ofKinds htables.symm).keys

/-- Kinds can be registered when none of them is repeated. -/
theorem exists_ofKinds_iff {ks : List Kind} : (∃ r, ofKinds ks = .ok r) ↔ ks.Nodup := by
  constructor
  · rintro ⟨r, h⟩
    exact kinds_ofKinds h ▸ r.holds.nodup
  · intro h
    obtain ⟨t, ht, -⟩ := SchemaTables.exists_ofKinds h
    rw [← map_tables_ofKinds, map_eq_ok] at ht
    exact ht.imp fun r hr => hr.1

/-- Registration fails at the first repeated kind. -/
theorem ofKinds_eq_error {ks : List Kind} {e : Error} :
    ofKinds ks = .error e ↔
      ∃ k, FirstRepeated ks k ∧ e = .misconfigured (.registeredTwice k.schema k k) := by
  rw [← map_eq_error, map_tables_ofKinds]
  constructor
  · intro h
    by_cases hnodup : ks.Nodup
    · obtain ⟨t, ht, -⟩ := SchemaTables.exists_ofKinds hnodup
      rw [h] at ht
      cases ht
    · obtain ⟨k, hk⟩ := exists_firstRepeated hnodup
      rw [SchemaTables.ofKinds_of_firstRepeated hk] at h
      exact ⟨k, hk, (Except.error.inj h).symm⟩
  · rintro ⟨k, hk, rfl⟩
    exact SchemaTables.ofKinds_of_firstRepeated hk

/-- All kinds can be registered. -/
theorem ofKinds_all : ofKinds Kind.all = .ok full := by
  obtain ⟨r, h⟩ := exists_ofKinds_iff.mpr (by decide : Kind.all.Nodup)
  rw [full, h]
  rfl

theorem kinds_full : full.kinds = Kind.all := kinds_ofKinds ofKinds_all

/-- A registry finds exactly its kinds, each by its schema. -/
theorem resolve_eq_ok {r : Registry} {schema : Cid} {k : Kind} :
    r.resolve schema = .ok k ↔ k ∈ r.kinds ∧ k.schema = schema := by
  rw [← r.holds.kind_iff]
  unfold resolve
  cases r.tables.kinds.get? schema <;> simp

/-- A registry fails for a schema that none of its kinds has. -/
theorem resolve_eq_error {r : Registry} {schema : Cid} {e : Error} :
    r.resolve schema = .error e ↔
      (∀ k ∈ r.kinds, k.schema ≠ schema) ∧ e = .unknownSchema schema := by
  have hnone : r.tables.kinds.get? schema = none ↔ ∀ k ∈ r.kinds, k.schema ≠ schema := by
    simp [Option.eq_none_iff_forall_ne_some, r.holds.kind_iff]
  rw [← hnone]
  unfold resolve
  cases r.tables.kinds.get? schema <;> simp [eq_comm]

/-- A registry gives the schemas of exactly its kinds. -/
theorem schema?_eq_some {r : Registry} {k : Kind} {schema : Cid} :
    r.schema? k = some schema ↔ k ∈ r.kinds ∧ k.schema = schema :=
  r.holds.schema_iff k schema

theorem schema?_eq_none {r : Registry} {k : Kind} : r.schema? k = none ↔ k ∉ r.kinds := by
  simp [Option.eq_none_iff_forall_ne_some, schema?_eq_some]

/-- The schema of a kind and the kind of a schema are each other's inverse. -/
theorem schema?_eq_some_iff_resolve {r : Registry} {k : Kind} {c : Cid} :
    r.schema? k = some c ↔ r.resolve c = .ok k :=
  schema?_eq_some.trans resolve_eq_ok.symm

theorem size_eq (r : Registry) : r.size = r.kinds.length := r.holds.size

end Registry

end MarketDag
