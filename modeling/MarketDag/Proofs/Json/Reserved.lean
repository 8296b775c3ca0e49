import MarketDag.Dag.Root
import MarketDag.Document.Basic
import MarketDag.Proofs.Shape.Written

/-!
# The reserved key

In JSON the key `/` is reserved for links and bytes.  No field has this key, so that only headers
can: the trees of a value are without it when its headers are (`Shape.unreserved_of_writes`), and
only a description by paths has headers (`Document.Unreserved`).
-/

namespace MarketDag

/-! ## Trees -/

namespace Ipld

mutual

/-- Has no map in a tree the key `/`? -/
def unreserved : Ipld → Bool
  | .list items => unreservedItems items
  | .map entries => unreservedEntries entries
  | _ => true

/-- Has no map in a list the key `/`? -/
def unreservedItems : List Ipld → Bool
  | [] => true
  | item :: items => item.unreserved && unreservedItems items

/-- Is no key of some entries `/`, and has no map in their values this key? -/
def unreservedEntries : List (String × Ipld) → Bool
  | [] => true
  | (key, value) :: entries => key ≠ "/" && value.unreserved && unreservedEntries entries

end

theorem unreserved_list {items : List Ipld} :
    unreserved (.list items) = true ↔ ∀ t ∈ items, t.unreserved = true := by
  rw [unreserved]
  induction items with
  | nil => simp [unreservedItems]
  | cons t items ih => rw [unreservedItems, Bool.and_eq_true, ih, List.forall_mem_cons]

theorem unreserved_map {entries : List (String × Ipld)} :
    unreserved (.map entries) = true ↔ ∀ e ∈ entries, e.1 ≠ "/" ∧ e.2.unreserved = true := by
  rw [unreserved]
  induction entries with
  | nil => simp [unreservedEntries]
  | cons e entries ih =>
    rw [unreservedEntries, Bool.and_eq_true, Bool.and_eq_true, ih, List.forall_mem_cons,
      decide_eq_true_iff]

end Ipld

/-! ## Values -/

/-- Has no header the name `/`? -/
def Headers.Unreserved (hs : Headers) : Prop := ∀ e ∈ hs.entries, e.1 ≠ "/"

/-- Are headers, if a leaf is such, without the name `/`? -/
def Leaf.Unreserved : (leaf : Leaf) → leaf.Value → Prop
  | .headers, hs => hs.Unreserved
  | .optional inner, some v => inner.Unreserved v
  | _, _ => True

mutual

/-- Has neither a record nor headers in a value the key `/`? -/
def Shape.Unreserved : (shape : Shape) → shape.Value → Prop
  | .leaf leaf, v => leaf.Unreserved v
  | .list item, vs => ∀ v ∈ vs, item.Unreserved v
  | .record _ fields, v => fields.Unreserved v
  | .either _ first _, .inl v => first.Unreserved v
  | .either _ _ second, .inr v => second.Unreserved v

/-- Has no field the key `/`, and nothing in the values of the fields? -/
def Fields.Unreserved : (fields : Fields) → fields.Value → Prop
  | .nil, _ => True
  | .required key shape rest, (v, vs) => key ≠ "/" ∧ shape.Unreserved v ∧ rest.Unreserved vs
  | .optional key shape rest, (v, vs) =>
    key ≠ "/" ∧ (∀ a, v = some a → shape.Unreserved a) ∧ rest.Unreserved vs
  | .defaulted key leaf _ rest, (v, vs) => key ≠ "/" ∧ leaf.Unreserved v ∧ rest.Unreserved vs

end

theorem Leaf.unreserved_layout : {leaf : Leaf} → {v : leaf.Value} → {t : Ipld} →
    leaf.Unreserved v → leaf.layout v = .ok t → t.canonical.unreserved = true
  | .headers, hs, _, hv, h => by
    cases h
    -- the names of headers are the only keys that a document can choose
    obtain ⟨sorted, hsorted, hperm⟩ := Ipld.canonical_map (hs.entries.map fun h => (h.1, .text h.2))
    rw [hsorted, Ipld.unreserved_map]
    intro e he
    obtain ⟨x, hx, rfl⟩ := List.mem_map.mp (hperm.mem_iff.mp he)
    obtain ⟨y, hy, rfl⟩ := List.mem_map.mp hx
    exact ⟨hv y hy, rfl⟩
  | .instant, _, _, _, h => by
    obtain ⟨s, -, rfl⟩ := layout_instant h
    rfl
  | .optional _, none, _, _, h => by
    cases h
    rfl
  | .optional inner, some _, _, hv, h => @unreserved_layout inner _ _ hv h
  | .text, _, _, _, h | .decimal, _, _, _, h | .date, _, _, _, h | .link, _, _, _, h
  | .count, _, _, _, h | .choice _, _, _, _, h => by
    cases h
    rfl

mutual

/-- A tree that stands for a value without the key `/` is without it. -/
theorem Shape.unreserved_of_writes : {shape : Shape} → {v : shape.Value} → {t : Ipld} →
    shape.Unreserved v → shape.Writes v t → t.unreserved = true
  | .leaf _, _, _, hv, ⟨_, h, ht⟩ => ht ▸ Leaf.unreserved_layout hv h
  | .list item, vs, _, hv, ⟨ts, ht, hts⟩ => by
    subst ht
    rw [Ipld.unreserved_list]
    intro t ht
    obtain ⟨v, hmem, hwrites⟩ := exists_of_mem_forall₂ hts ht
    exact item.unreserved_of_writes (hv v hmem) hwrites
  | .record _ fields, _, _, hv, ⟨es, ht, _, hes, _⟩ => by
    subst ht
    rw [Ipld.unreserved_map]
    intro e he
    exact fields.unreserved_of_writesAt hv (hes e he)
  | .either _ first _, .inl _, _, hv, h => first.unreserved_of_writes hv h
  | .either _ _ second, .inr _, _, hv, h => second.unreserved_of_writes hv h

theorem Fields.unreserved_of_writesAt : {fields : Fields} → {v : fields.Value} →
    {key : String} → {t : Ipld} → fields.Unreserved v → fields.WritesAt v key t →
    key ≠ "/" ∧ t.unreserved = true
  | .nil, _, _, _, _, h => h.elim
  | .required name shape rest, _, key, _, hv, h => by
    rw [Fields.WritesAt] at h
    split at h
    · rename_i hkey
      exact ⟨hkey ▸ hv.1, shape.unreserved_of_writes hv.2.1 h⟩
    · exact rest.unreserved_of_writesAt hv.2.2 h
  | .optional name shape rest, _, key, _, hv, h => by
    rw [Fields.WritesAt] at h
    split at h
    · rename_i hkey
      refine ⟨hkey ▸ hv.1, ?_⟩
      rcases h with ⟨-, rfl⟩ | ⟨a, ha, h⟩
      · rfl
      · exact shape.unreserved_of_writes (hv.2.1 a ha) h
    · exact rest.unreserved_of_writesAt hv.2.2 h
  | .defaulted name leaf _ rest, _, key, _, hv, h => by
    rw [Fields.WritesAt] at h
    split at h
    · rename_i hkey
      obtain ⟨tree, htree, rfl⟩ := h
      exact ⟨hkey ▸ hv.1, Leaf.unreserved_layout hv.2.1 htree⟩
    · exact rest.unreserved_of_writesAt hv.2.2 h

end

/-! ## Documents -/

/-- The headers of a described interface. -/
def ApiSpec.headers? : ApiSpec → Option Headers
  | .jsonPath spec => spec.headers
  | .generic _ => none

/-- The key under which the documents of a kind hold a description of an interface. -/
def Kind.specKey? : Kind → Option String
  | .outcomeSpaceTimeSeries => some "history_api_spec"
  | .oracleConfigPrototype1 => some "evaluation_api_spec"
  | _ => none

/-- The description of an interface that a document holds. -/
def Document.spec? : Document → Option ApiSpec
  | ⟨.outcomeSpaceTimeSeries, s⟩ => s.historySpec
  | ⟨.oracleConfigPrototype1, o⟩ => some o.evaluationSpec
  | _ => none

/-- Is the name `/` not among the headers of a document's description of an interface? -/
def Document.Unreserved (d : Document) : Prop :=
  ∀ spec hs, d.spec? = some spec → spec.headers? = some hs → hs.Unreserved

theorem ApiSpec.unreserved {spec : ApiSpec} (h : ∀ hs, spec.headers? = some hs → hs.Unreserved) :
    (Shaped.shape ApiSpec).Unreserved (Shaped.toValue spec) := by
  have htext (v : Option String) : (Leaf.optional .text).Unreserved v := by
    cases v <;> trivial
  have hcount (v : PageLimit) : (Leaf.optional .count).Unreserved v := by
    cases v <;> trivial
  cases spec with
  | generic spec =>
    simp [Shaped.shape, Shaped.toValue, Shape.Unreserved, Fields.Unreserved, Leaf.Unreserved]
  | jsonPath spec =>
    have hheaders : (Leaf.optional .headers).Unreserved spec.headers := by
      cases hform : spec.headers with
      | none => trivial
      | some hs => exact h hs hform
    simp only [Shaped.shape, Shaped.toValue, Shape.Unreserved, Fields.Unreserved, htext, hcount,
      hheaders]
    simp [Leaf.Unreserved]

/-- Only headers can have the reserved name. -/
theorem Document.Unreserved.shape {d : Document} (h : d.Unreserved) :
    (Shaped.shape d.kind.Body).Unreserved (Shaped.toValue d.body) := by
  obtain ⟨k, body⟩ := d
  cases k with
  | outcomeSpaceTimeSeries =>
    have hspec (v : (Shaped.shape ApiSpec).Value)
        (hv : body.historySpec.map Shaped.toValue = some v) :
        (Shaped.shape ApiSpec).Unreserved v := by
      obtain ⟨spec, hspec, rfl⟩ := Option.map_eq_some_iff.mp hv
      exact ApiSpec.unreserved fun hs hhs => h spec hs hspec hhs
    have hcase (name : String) (c : (Case.shape name).Value) : (Case.shape name).Unreserved c :=
      ⟨by decide, trivial, by decide, trivial, trivial⟩
    exact ⟨by decide, trivial, by decide, trivial, by decide, hcase _ _, by decide,
      fun c _ => hcase _ c, by decide, trivial, by decide, trivial, by decide, trivial, by decide,
      trivial, by decide, hspec, trivial⟩
  | oracleConfigPrototype1 =>
    have hspec := ApiSpec.unreserved fun hs => h body.evaluationSpec hs rfl
    exact ⟨by decide, trivial, by decide, fun _ _ => trivial, by decide, hspec, trivial⟩
  | _ =>
    simp [Shaped.shape, Shaped.toValue, Shape.Unreserved, Fields.Unreserved, Leaf.Unreserved]

theorem Root.unreserved (r : Root) : (Shaped.shape Root).Unreserved (Shaped.toValue r) := by
  simp [Shaped.shape, Shaped.toValue, Shape.Unreserved, Fields.Unreserved, Leaf.Unreserved,
    Family.name]

end MarketDag
