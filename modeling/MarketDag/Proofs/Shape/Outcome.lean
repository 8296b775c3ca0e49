import MarketDag.Proofs.Except
import MarketDag.Proofs.Shape.Faithful

/-!
# What the reading of a record tells

A reader that goes well goes well in each of its steps (`Outcome`).  So every field of a record is
read in the form that its key has (`Fields.form_of_readField`), and a key that the record has to
have was read if the record is made (`Fields.finish_of_lacks`).
-/

namespace MarketDag

/-! ## Outcomes -/

/-- What it is for a reader to go well: `Gives s x a s'` says that from the state `s` the reader `x`
gives `a` and leaves the state `s'`. -/
structure Outcome (m : Type → Type) [Monad m] [MonadExceptOf DecodeFault m] (σ : Type) where
  Gives : {α : Type} → σ → m α → α → σ → Prop
  bind_iff : ∀ {α β : Type} {s s' : σ} {x : m α} {f : α → m β} {b : β},
    Gives s (x >>= f) b s' ↔ ∃ a t, Gives s x a t ∧ Gives t (f a) b s'
  pure_iff : ∀ {α : Type} {s s' : σ} {a b : α}, Gives s (pure a) b s' ↔ a = b ∧ s = s'
  not_throw : ∀ {α : Type} {s s' : σ} {fault : DecodeFault} {a : α},
    ¬ Gives s (throw fault) a s'

/-- A reader that looks at a value goes well when it gives a result for it. -/
def Outcome.looking (ρ : Type) : Outcome (ReaderT ρ (Except DecodeFault)) ρ where
  Gives value x a value' := x.run value = .ok a ∧ value = value'
  bind_iff {_ _ value _ x f b} := by
    constructor
    · rintro ⟨h, rfl⟩
      obtain ⟨a, ha, hb⟩ := bind_eq_ok.mp h
      exact ⟨a, value, ⟨ha, rfl⟩, hb, rfl⟩
    · rintro ⟨a, _, ⟨ha, rfl⟩, hb, rfl⟩
      exact ⟨bind_eq_ok.mpr ⟨a, ha, hb⟩, rfl⟩
  pure_iff := and_congr_left' pure_eq_ok
  not_throw h := nomatch h.1

theorem Outcome.gives_ofExcept {m : Type → Type} [Monad m] [MonadExceptOf DecodeFault m]
    {σ α : Type} (O : Outcome m σ) {s s' : σ} {x : Except DecodeFault α} {a : α} :
    O.Gives s (MonadExcept.ofExcept x) a s' ↔ x = .ok a ∧ s = s' := by
  cases x with
  | error fault => exact ⟨fun h => absurd h O.not_throw, fun h => nomatch h.1⟩
  | ok b =>
    rw [Except.ok.injEq]
    exact O.pure_iff

/-! ## Forms of fields -/

/-- The form in which the field of a key is read. -/
inductive Form where
  | required (shape : Shape)
  | optional (shape : Shape)
  | defaulted (leaf : Leaf)

namespace Form

variable {m : Type → Type} [Monad m] [MonadExceptOf DecodeFault m]

/-- Reads a field of a form, and keeps nothing of it. -/
def read (src : Source m) : Form → m Unit
  | .required shape => shape.read src >>= fun _ => pure ()
  | .optional shape => src.optional (shape.read src) >>= fun _ => pure ()
  | .defaulted leaf => src.leaf leaf >>= fun _ => pure ()

end Form

namespace Fields

/-- The form of the field of a key. -/
def form? : Fields → String → Option Form
  | .nil, _ => none
  | .required key shape rest, name => if name = key then some (.required shape) else rest.form? name
  | .optional key shape rest, name => if name = key then some (.optional shape) else rest.form? name
  | .defaulted key leaf _ rest, name =>
    if name = key then some (.defaulted leaf) else rest.form? name

theorem mem_keys_of_form {name : String} {form : Form} : {fields : Fields} →
    fields.form? name = some form → name ∈ fields.keys
  | .required key _ rest, h => by
    by_cases hname : name = key
    · exact hname ▸ List.mem_cons_self
    · rw [form?, if_neg hname] at h
      exact List.mem_cons_of_mem _ (mem_keys_of_form h)
  | .optional key _ rest, h => by
    by_cases hname : name = key
    · exact hname ▸ List.mem_cons_self
    · rw [form?, if_neg hname] at h
      exact List.mem_cons_of_mem _ (mem_keys_of_form h)
  | .defaulted key _ _ rest, h => by
    by_cases hname : name = key
    · exact hname ▸ List.mem_cons_self
    · rw [form?, if_neg hname] at h
      exact List.mem_cons_of_mem _ (mem_keys_of_form h)

/-! ## Missing fields -/

/-- The keys that a record has to have in an arrangement. -/
def neededKeys (arrangement : Arrangement) : Fields → List String
  | .nil => []
  | .required key _ rest => key :: rest.neededKeys arrangement
  | .optional key _ rest =>
    if arrangement = .positional then key :: rest.neededKeys arrangement
    else rest.neededKeys arrangement
  | .defaulted _ _ _ rest => rest.neededKeys arrangement

theorem neededKeys_named : (fields : Fields) → fields.neededKeys .named = fields.requiredKeys
  | .nil => rfl
  | .required key _ rest => congrArg (key :: ·) rest.neededKeys_named
  | .optional _ _ rest => rest.neededKeys_named
  | .defaulted _ _ _ rest => rest.neededKeys_named

/-- Was a field not read so far that a record has to have in an arrangement? -/
def Lacks (arrangement : Arrangement) (key : String) : (fields : Fields) → fields.Slots → Prop
  | .nil, _ => False
  | .required name _ rest, slots =>
    (name = key ∧ slots.1 = none) ∨ rest.Lacks arrangement key slots.2
  | .optional name _ rest, slots =>
    (arrangement = .positional ∧ name = key ∧ slots.1 = none) ∨ rest.Lacks arrangement key slots.2
  | .defaulted _ _ _ rest, slots => rest.Lacks arrangement key slots.2

theorem lacks_empty {key : String} : {arrangement : Arrangement} → (fields : Fields) →
    key ∈ fields.neededKeys arrangement → fields.Lacks arrangement key fields.empty
  | _, .required _ _ rest, h => by
    rcases List.mem_cons.mp h with rfl | h
    · exact .inl ⟨rfl, rfl⟩
    · exact .inr (rest.lacks_empty h)
  | .named, .optional _ _ rest, h => .inr (rest.lacks_empty h)
  | .positional, .optional _ _ rest, h => by
    rcases List.mem_cons.mp h with rfl | h
    · exact .inl ⟨rfl, rfl, rfl⟩
    · exact .inr (rest.lacks_empty h)
  | _, .defaulted _ _ _ rest, h => rest.lacks_empty h

/-- No record is made without a field that it has to have. -/
theorem finish_of_lacks {key name : String} {total : Nat} : {arrangement : Arrangement} →
    {index : Nat} → (fields : Fields) → {slots : fields.Slots} →
    fields.Lacks arrangement key slots →
    ∀ v, fields.finish name total arrangement index slots ≠ .ok v
  | _, _, .required _ _ _, (none, _), _, _, hv => nomatch hv
  | _, _, .required _ _ rest, (some _, _), h, v, hv => by
    obtain ⟨_, hrest, -⟩ := bind_eq_ok.mp hv
    exact rest.finish_of_lacks (h.resolve_left fun h => nomatch h.2) _ hrest
  | .positional, _, .optional _ _ _, (none, _), _, _, hv => nomatch hv
  | .named, _, .optional _ _ rest, (none, _), h, v, hv => by
    obtain ⟨_, hrest, -⟩ := bind_eq_ok.mp hv
    exact rest.finish_of_lacks (h.resolve_left fun h => nomatch h.1) _ hrest
  | _, _, .optional _ _ rest, (some _, _), h, v, hv => by
    obtain ⟨_, hrest, -⟩ := bind_eq_ok.mp hv
    exact rest.finish_of_lacks (h.resolve_left fun h => nomatch h.2.2) _ hrest
  | _, _, .defaulted _ _ _ rest, _, h, v, hv => by
    obtain ⟨_, hrest, -⟩ := bind_eq_ok.mp hv
    exact rest.finish_of_lacks h _ hrest

/-! ## Reading a field -/

section

variable {m : Type → Type} [Monad m] [MonadExceptOf DecodeFault m] {src : Source m} {σ : Type}

theorem gives_forgotten {α : Type} (O : Outcome m σ) {s s' : σ} {x : m α} {a : α}
    (h : O.Gives s x a s') : O.Gives s (x >>= fun _ => pure ()) () s' :=
  O.bind_iff.mpr ⟨a, s', h, O.pure_iff.mpr ⟨rfl, rfl⟩⟩

/-- A step reads the first field, if it was not read before, or one of the other fields and leaves
the first as it is. -/
theorem gives_step_iff {α β : Type} (O : Outcome m σ) {name key : String} {s s' : σ}
    {slot : Option α} {slots : β} {fault : DecodeFault} {x : m α} {y : m β} {last : Option α × β} :
    O.Gives s
      (if name = key then
        if slot.isSome then throw fault else x >>= fun a => pure (some a, slots)
      else y >>= fun slots' => pure (slot, slots')) last s' ↔
    (name = key ∧ slot = none ∧ ∃ a, O.Gives s x a s' ∧ last = (some a, slots)) ∨
      (name ≠ key ∧ ∃ slots', O.Gives s y slots' s' ∧ last = (slot, slots')) := by
  by_cases hname : name = key
  · rw [if_pos hname]
    cases slot with
    | some a => simp [hname, O.not_throw]
    | none =>
      rw [Option.isSome_none, if_neg Bool.false_ne_true, O.bind_iff]
      simp only [O.pure_iff, hname, true_and, ne_eq, not_true_eq_false, false_and, or_false]
      constructor
      · rintro ⟨a, t, hx, rfl, rfl⟩
        exact ⟨a, hx, rfl⟩
      · rintro ⟨a, hx, rfl⟩
        exact ⟨a, s', hx, rfl, rfl⟩
  · rw [if_neg hname, O.bind_iff]
    simp only [O.pure_iff, hname, false_and, false_or, ne_eq, not_false_eq_true, true_and]
    constructor
    · rintro ⟨slots', t, hy, rfl, rfl⟩
      exact ⟨slots', hy, rfl⟩
    · rintro ⟨slots', hy, rfl⟩
      exact ⟨slots', s', hy, rfl, rfl⟩

theorem gives_step {α β : Type} (O : Outcome m σ) {name key : String} {s s' : σ}
    {slot : Option α} {slots : β} {fault : DecodeFault} {x : m α} {y : m β} {last : Option α × β}
    (h : O.Gives s
      (if name = key then
        if slot.isSome then throw fault else x >>= fun a => pure (some a, slots)
      else y >>= fun slots' => pure (slot, slots')) last s') :
    (name = key ∧ ∃ a, O.Gives s x a s' ∧ last = (some a, slots)) ∨
      (name ≠ key ∧ ∃ slots', O.Gives s y slots' s' ∧ last = (slot, slots')) :=
  ((gives_step_iff O).mp h).imp_left fun h => ⟨h.1, h.2.2⟩

variable {known : List String} {name : String} {s s' : σ}

/-- A field that was read has a form, and was read in it. -/
theorem form_of_readField (O : Outcome m σ) : (fields : Fields) → {slots slots' : fields.Slots} →
    O.Gives s (fields.readField src known name slots) slots' s' →
    ∃ form, fields.form? name = some form ∧ O.Gives s (form.read src) () s'
  | .nil, _, _, h => absurd h O.not_throw
  | .required _ _ rest, _, _, h => by
    rw [readField] at h
    rcases gives_step O h with ⟨hname, a, hread, -⟩ | ⟨hname, slots', hread, -⟩
    · exact ⟨_, if_pos hname, gives_forgotten O hread⟩
    · rw [form?, if_neg hname]
      exact rest.form_of_readField O hread
  | .optional _ _ rest, _, _, h => by
    rw [readField] at h
    rcases gives_step O h with ⟨hname, a, hread, -⟩ | ⟨hname, slots', hread, -⟩
    · exact ⟨_, if_pos hname, gives_forgotten O hread⟩
    · rw [form?, if_neg hname]
      exact rest.form_of_readField O hread
  | .defaulted _ _ _ rest, _, _, h => by
    rw [readField] at h
    rcases gives_step O h with ⟨hname, a, hread, -⟩ | ⟨hname, slots', hread, -⟩
    · exact ⟨_, if_pos hname, gives_forgotten O hread⟩
    · rw [form?, if_neg hname]
      exact rest.form_of_readField O hread

/-- Reading another field does not bring a missing one. -/
theorem lacks_of_readField (O : Outcome m σ) {arrangement : Arrangement} {key : String}
    (hne : name ≠ key) : (fields : Fields) → {slots slots' : fields.Slots} →
    fields.Lacks arrangement key slots →
    O.Gives s (fields.readField src known name slots) slots' s' →
    fields.Lacks arrangement key slots'
  | .required _ _ rest, _, _, hlacks, h => by
    rw [readField] at h
    rcases gives_step O h with ⟨hname, a, -, rfl⟩ | ⟨-, slots', hread, rfl⟩
    · exact .inr (hlacks.resolve_left fun hlacks => hne (hname.trans hlacks.1))
    · exact hlacks.imp_right fun hlacks => rest.lacks_of_readField O hne hlacks hread
  | .optional _ _ rest, _, _, hlacks, h => by
    rw [readField] at h
    rcases gives_step O h with ⟨hname, a, -, rfl⟩ | ⟨-, slots', hread, rfl⟩
    · exact .inr (hlacks.resolve_left fun hlacks => hne (hname.trans hlacks.2.1))
    · exact hlacks.imp_right fun hlacks => rest.lacks_of_readField O hne hlacks hread
  | .defaulted _ _ _ rest, _, _, hlacks, h => by
    rw [readField] at h
    rcases gives_step O h with ⟨-, a, -, rfl⟩ | ⟨-, slots', hread, rfl⟩
    · exact hlacks
    · exact rest.lacks_of_readField O hne hlacks hread

end

end Fields

end MarketDag
