import MarketDag.Proofs.Shape.Outcome

/-!
# Where the fields of a record come from

A field of a record was read where its key stood.  Reading the key fills the field
(`Fields.readFrom_of_readField`), reading other keys leaves it (`Fields.ReadFrom.of_readField`),
and the record is made of what was read (`Fields.ReadFrom.madeFrom`).
-/

namespace MarketDag

/-! ## One field and the others -/

/-- Is the field of a key read: the first one, with a property, or else one of the others? -/
def HeldFirst {α β : Type} (name key : String) (P : α → Prop) (Q : β → Prop)
    (slots : Option α × β) : Prop :=
  if name = key then ∃ a, slots.1 = some a ∧ P a else Q slots.2

section

variable {m : Type → Type} [Monad m] [MonadExceptOf DecodeFault m] {σ : Type} {s s' : σ}
  {α β : Type} {name key other : String} {P : α → Prop} {Q : β → Prop} {slot : Option α}
  {slots : β} {fault : DecodeFault} {x : m α} {y : m β} {last : Option α × β}

/-- A step that reads the key fills its field. -/
theorem heldFirst_of_gives (O : Outcome m σ)
    (h : O.Gives s
      (if key = name then
        if slot.isSome then throw fault else x >>= fun a => pure (some a, slots)
      else y >>= fun slots' => pure (slot, slots')) last s')
    (hread : ∀ a, O.Gives s x a s' → P a) (hrest : ∀ slots', O.Gives s y slots' s' → Q slots') :
    HeldFirst name key P Q last := by
  rcases Fields.gives_step O h with ⟨hname, a, hx, rfl⟩ | ⟨hname, slots', hy, rfl⟩
  · rw [HeldFirst, if_pos hname.symm]
    exact ⟨a, rfl, hread a hx⟩
  · rw [HeldFirst, if_neg (Ne.symm hname)]
    exact hrest slots' hy

/-- A step leaves a field that was read before, since no field is read twice. -/
theorem HeldFirst.of_gives (O : Outcome m σ) (hslots : HeldFirst name key P Q (slot, slots))
    (h : O.Gives s
      (if other = name then
        if slot.isSome then throw fault else x >>= fun a => pure (some a, slots)
      else y >>= fun slots' => pure (slot, slots')) last s')
    (hrest : ∀ slots', Q slots → O.Gives s y slots' s' → Q slots') :
    HeldFirst name key P Q last := by
  have hstep := Fields.gives_step O h
  by_cases hname : name = key
  · rw [HeldFirst, if_pos hname] at hslots ⊢
    obtain ⟨a, ha, hP⟩ := hslots
    have hslot : slot = some a := ha
    rcases hstep with ⟨hother, -⟩ | ⟨-, slots', -, rfl⟩
    · -- the field was read already: the second time is refused
      rw [hslot, if_pos hother, if_pos Option.isSome_some] at h
      exact absurd h O.not_throw
    · exact ⟨a, hslot, hP⟩
  · rw [HeldFirst, if_neg hname] at hslots ⊢
    rcases hstep with ⟨-, a, -, rfl⟩ | ⟨-, slots', hy, rfl⟩
    · exact hslots
    · exact hrest slots' hslots hy

end

namespace Fields

variable {m : Type → Type} [Monad m] [MonadExceptOf DecodeFault m]

/-! ## The field of a key -/

section

variable (src : Source m) (R : {α : Type} → m α → α → Prop) (key : String)

/-- Was the field of a key read so far, and is what was read in a relation to its reader? -/
def ReadFrom : (fields : Fields) → fields.Slots → Prop
  | .nil, _ => False
  | .required name shape rest, slots =>
    HeldFirst name key (R (shape.read src)) rest.ReadFrom slots
  | .optional name shape rest, slots =>
    HeldFirst name key (R (src.optional (shape.read src))) rest.ReadFrom slots
  | .defaulted name leaf _ rest, slots => HeldFirst name key (R (src.leaf leaf)) rest.ReadFrom slots

/-- Is the field of a key in a relation to its reader? -/
def MadeFrom : (fields : Fields) → fields.Value → Prop
  | .nil, _ => False
  | .required name shape rest, v => if name = key then R (shape.read src) v.1 else rest.MadeFrom v.2
  | .optional name shape rest, v =>
    if name = key then R (src.optional (shape.read src)) v.1 else rest.MadeFrom v.2
  | .defaulted name leaf _ rest, v =>
    if name = key then R (src.leaf leaf) v.1 else rest.MadeFrom v.2

end

variable {src : Source m} {R : {α : Type} → m α → α → Prop} {key name : String} {σ : Type}
  {s s' : σ} {known : List String}

/-- The field of a key is what was read where its value stood. -/
theorem readFrom_of_readField (O : Outcome m σ) : (fields : Fields) →
    {slots slots' : fields.Slots} →
    O.Gives s (fields.readField src known key slots) slots' s' →
    fields.ReadFrom src (fun x a => O.Gives s x a s') key slots'
  | .nil, _, _, h => absurd h O.not_throw
  | .required _ _ rest, _, _, h => by
    rw [readField] at h
    exact heldFirst_of_gives O h (fun _ hx => hx) fun _ hy => rest.readFrom_of_readField O hy
  | .optional _ _ rest, _, _, h => by
    rw [readField] at h
    exact heldFirst_of_gives O h (fun _ hx => hx) fun _ hy => rest.readFrom_of_readField O hy
  | .defaulted _ _ _ rest, _, _, h => by
    rw [readField] at h
    exact heldFirst_of_gives O h (fun _ hx => hx) fun _ hy => rest.readFrom_of_readField O hy

/-- Reading on leaves a field that was read as it is. -/
theorem ReadFrom.of_readField (O : Outcome m σ) : {fields : Fields} →
    {slots slots' : fields.Slots} → fields.ReadFrom src R key slots →
    O.Gives s (fields.readField src known name slots) slots' s' →
    fields.ReadFrom src R key slots'
  | .nil, _, _, hslots, _ => hslots.elim
  | .required _ _ _, (_, _), _, hslots, h => by
    rw [readField] at h
    exact HeldFirst.of_gives O hslots h fun _ hrest hy => ReadFrom.of_readField O hrest hy
  | .optional _ _ _, (_, _), _, hslots, h => by
    rw [readField] at h
    exact HeldFirst.of_gives O hslots h fun _ hrest hy => ReadFrom.of_readField O hrest hy
  | .defaulted _ _ _ _, (_, _), _, hslots, h => by
    rw [readField] at h
    exact HeldFirst.of_gives O hslots h fun _ hrest hy => ReadFrom.of_readField O hrest hy

theorem MadeFrom.of_required {shape : Shape} {rest : Fields}
    {v : (Fields.required name shape rest).Value}
    (h : (Fields.required name shape rest).MadeFrom src R key v) (hne : name ≠ key) :
    rest.MadeFrom src R key v.2 := by
  rwa [MadeFrom, if_neg hne] at h

theorem MadeFrom.of_optional {shape : Shape} {rest : Fields}
    {v : (Fields.optional name shape rest).Value}
    (h : (Fields.optional name shape rest).MadeFrom src R key v) (hne : name ≠ key) :
    rest.MadeFrom src R key v.2 := by
  rwa [MadeFrom, if_neg hne] at h

/-! ## The record -/

theorem heldFirst_some {α β : Type} {P : α → Prop} {Q : β → Prop} {a : α} {slots : β} {made : Prop}
    (h : HeldFirst name key P Q (some a, slots)) (hrest : Q slots → made) :
    if name = key then P a else made := by
  by_cases hname : name = key
  · rw [HeldFirst, if_pos hname] at h
    obtain ⟨_, ⟨⟩, ha⟩ := h
    rwa [if_pos hname]
  · rw [HeldFirst, if_neg hname] at h
    rw [if_neg hname]
    exact hrest h

theorem heldFirst_none {α β : Type} {P : α → Prop} {Q : β → Prop} {slots : β} {held made : Prop}
    (h : HeldFirst name key P Q (none, slots)) (hrest : Q slots → made) :
    if name = key then held else made := by
  by_cases hname : name = key
  · rw [HeldFirst, if_pos hname] at h
    obtain ⟨_, ⟨⟩, -⟩ := h
  · rw [HeldFirst, if_neg hname] at h
    rw [if_neg hname]
    exact hrest h

/-- A record is made of the fields that were read. -/
theorem ReadFrom.madeFrom {record : String} {total : Nat} : {arrangement : Arrangement} →
    {index : Nat} → {fields : Fields} → {slots : fields.Slots} → {v : fields.Value} →
    fields.ReadFrom src R key slots →
    fields.finish record total arrangement index slots = .ok v → fields.MadeFrom src R key v
  | _, _, .nil, _, _, hslots, _ => hslots.elim
  | _, _, .required _ _ _, (none, _), _, _, h => nomatch h
  | _, _, .required _ _ _, (some _, _), _, hslots, h => by
    obtain ⟨vs, hrest, hv⟩ := bind_eq_ok.mp h
    cases hv
    exact heldFirst_some hslots fun hslots => hslots.madeFrom hrest
  | _, _, .optional _ _ _, (some _, _), _, hslots, h => by
    obtain ⟨vs, hrest, hv⟩ := bind_eq_ok.mp h
    cases hv
    exact heldFirst_some hslots fun hslots => hslots.madeFrom hrest
  -- a list has to have even its optional fields, a map does not
  | .positional, _, .optional _ _ _, (none, _), _, _, h => nomatch h
  | .named, _, .optional _ _ _, (none, _), _, hslots, h => by
    obtain ⟨vs, hrest, hv⟩ := bind_eq_ok.mp h
    cases hv
    exact heldFirst_none hslots fun hslots => hslots.madeFrom hrest
  | _, _, .defaulted _ _ _ _, (some _, _), _, hslots, h => by
    obtain ⟨vs, hrest, hv⟩ := bind_eq_ok.mp h
    cases hv
    exact heldFirst_some hslots fun hslots => hslots.madeFrom hrest
  | _, _, .defaulted _ _ _ _, (none, _), _, hslots, h => by
    obtain ⟨vs, hrest, hv⟩ := bind_eq_ok.mp h
    cases hv
    exact heldFirst_none hslots fun hslots => hslots.madeFrom hrest

end Fields

end MarketDag
