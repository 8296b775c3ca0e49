import MarketDag.Archive.Basic
import MarketDag.Proofs.Except

/-!
# Runs of programs over a store

A program over a store is run from a state of the store.  It goes well when its parts do, one
after the other (`perform_bind_eq_ok`).  It keeps what its parts keep, whether or not it goes well,
and fails only as they do (`Meets.bind`).  The blocks that a store gives in a run are listed in
order (`BlockStore.Gives`).
-/

namespace MarketDag

variable {ε σ α β : Type}

/-! ## Results -/

/-- The result of a program that is run from a state, and the state after it. -/
def perform (x : ExceptT ε (StateM σ) α) (s : σ) : Except ε α × σ := x.run.run s

theorem perform_bind (x : ExceptT ε (StateM σ) α) (f : α → ExceptT ε (StateM σ) β) (s : σ) :
    perform (x >>= f) s =
      match perform x s with
      | (.ok a, s') => perform (f a) s'
      | (.error e, s') => (.error e, s') := by
  change (match perform x s with | (r, s') => perform (ExceptT.mk (ExceptT.bindCont f r)) s') = _
  rcases perform x s with ⟨_ | a, s'⟩ <;> rfl

/-- A program goes on with the result of a part that went well. -/
theorem perform_bind_of_ok {x : ExceptT ε (StateM σ) α} {f : α → ExceptT ε (StateM σ) β}
    {s s' : σ} {a : α} (h : perform x s = (.ok a, s')) :
    perform (x >>= f) s = perform (f a) s' := by
  rw [perform_bind, h]

/-- A program stops at the first error. -/
theorem perform_bind_of_error {x : ExceptT ε (StateM σ) α} {f : α → ExceptT ε (StateM σ) β}
    {s s' : σ} {e : ε} (h : perform x s = (.error e, s')) :
    perform (x >>= f) s = (.error e, s') := by
  rw [perform_bind, h]

/-- A program goes well when its first part does, and the rest after it. -/
theorem perform_bind_eq_ok {x : ExceptT ε (StateM σ) α} {f : α → ExceptT ε (StateM σ) β}
    {s s' : σ} {b : β} :
    perform (x >>= f) s = (.ok b, s') ↔
      ∃ a s₁, perform x s = (.ok a, s₁) ∧ perform (f a) s₁ = (.ok b, s') := by
  rw [perform_bind]
  rcases perform x s with ⟨e | a, s₁⟩ <;> simp

theorem perform_pure_eq_ok {s s' : σ} {a b : α} :
    perform (pure a : ExceptT ε (StateM σ) α) s = (.ok b, s') ↔ a = b ∧ s = s' := by
  change ((.ok a, s) : Except ε α × σ) = (.ok b, s') ↔ _
  simp

theorem perform_lift (e : Except ε α) (s : σ) :
    perform (liftM e : ExceptT ε (StateM σ) α) s = (e, s) := rfl

theorem perform_lift_eq_ok {e : Except ε α} {s s' : σ} {a : α} :
    perform (liftM e : ExceptT ε (StateM σ) α) s = (.ok a, s') ↔ e = .ok a ∧ s = s' := by
  rw [perform_lift, Prod.mk.injEq]

/-- A step that does not look at the state leaves it alone. -/
theorem perform_lift_bind_eq_ok {e : Except ε α} {f : α → ExceptT ε (StateM σ) β} {s s' : σ}
    {b : β} :
    perform (liftM e >>= f) s = (.ok b, s') ↔
      ∃ a, e = .ok a ∧ perform (f a) s = (.ok b, s') := by
  rw [perform_bind, perform_lift]
  cases e <;> simp

theorem perform_lift_bind_of_ok {x : Except ε α} {f : α → ExceptT ε (StateM σ) β} {a : α}
    (h : x = .ok a) (s : σ) : perform (liftM x >>= f) s = perform (f a) s :=
  perform_bind_of_ok (by rw [perform_lift, h])

theorem perform_lift_bind_of_error {x : Except ε α} {f : α → ExceptT ε (StateM σ) β} {e : ε}
    (h : x = .error e) (s : σ) : perform (liftM x >>= f) s = (.error e, s) :=
  perform_bind_of_error (by rw [perform_lift, h])

theorem perform_tryCatch (x : ExceptT ε (StateM σ) α) (handle : ε → ExceptT ε (StateM σ) α)
    (s : σ) : perform (tryCatch x handle) s =
      match perform x s with
      | (.ok a, s') => (.ok a, s')
      | (.error e, s') => perform (handle e) s' := by
  change (match perform x s with
    | (r, s') => perform (ExceptT.mk (match r with
      | .ok a => pure (.ok a)
      | .error e => handle e)) s') = _
  rcases perform x s with ⟨_ | a, s'⟩ <;> rfl

/-- A program that is observed goes well, and gives the result that it has. -/
theorem perform_observing (x : ExceptT ε (StateM σ) α) (s : σ) :
    perform (observing x) s = (.ok (perform x s).1, (perform x s).2) := by
  rw [observing, perform_tryCatch, perform_bind]
  rcases perform x s with ⟨_ | a, s'⟩ <;> rfl

/-! ## What runs keep -/

/-- Does a program keep a property of the state, whether or not it goes well? -/
def Preserves (p : σ → Prop) (x : ExceptT ε (StateM σ) α) : Prop :=
  ∀ s, p s → p (perform x s).2

/-- Does a program keep a property of the state, and has it, when it is run from a state with this
property, only such results and such errors? -/
structure Meets (p : σ → Prop) (good : α → Prop) (fair : ε → Prop)
    (x : ExceptT ε (StateM σ) α) : Prop where
  preserves : Preserves p x
  good_of_ok : ∀ {s a}, p s → (perform x s).1 = .ok a → good a
  fails : ∀ {s}, p s → Fails fair (perform x s).1

namespace Meets

variable {p : σ → Prop} {good : α → Prop} {good' : β → Prop} {fair : ε → Prop}

/-- The second part of a program is run only after a good result of the first. -/
theorem bind {x : ExceptT ε (StateM σ) α} {f : α → ExceptT ε (StateM σ) β}
    (hx : Meets p good fair x) (hf : ∀ a, good a → Meets p good' fair (f a)) :
    Meets p good' fair (x >>= f) := by
  -- a run ends with an error of the first part, or is a run of the second after a good result
  have hcases : ∀ s, p s →
      (∃ e, fair e ∧ perform (x >>= f) s = (.error e, (perform x s).2)) ∨
        ∃ a, good a ∧ perform (x >>= f) s = perform (f a) (perform x s).2 := by
    intro s hs
    rw [perform_bind]
    rcases h : perform x s with ⟨e | a, s'⟩
    · exact .inl ⟨e, hx.fails hs e (by rw [h]), rfl⟩
    · exact .inr ⟨a, hx.good_of_ok hs (by rw [h]), rfl⟩
  refine ⟨fun s hs => ?_, fun {s b} hs hb => ?_, fun {s} hs e he => ?_⟩
  · rcases hcases s hs with ⟨e, -, h⟩ | ⟨a, ha, h⟩ <;> rw [h]
    · exact hx.preserves s hs
    · exact (hf a ha).preserves _ (hx.preserves s hs)
  · rcases hcases s hs with ⟨e, -, h⟩ | ⟨a, ha, h⟩ <;> rw [h] at hb
    · cases hb
    · exact (hf a ha).good_of_ok (hx.preserves s hs) hb
  · rcases hcases s hs with ⟨e', hfair, h⟩ | ⟨a, ha, h⟩ <;> rw [h] at he
    · cases he
      exact hfair
    · exact (hf a ha).fails (hx.preserves s hs) e he

theorem pure {a : α} (h : good a) : Meets p good fair (pure a : ExceptT ε (StateM σ) α) := by
  refine ⟨fun _ hs => hs, fun _ ha => ?_, fun _ e he => ?_⟩
  · cases ha
    exact h
  · cases he

theorem lift {x : Except ε α} (hx : Fails fair x) (hgood : ∀ a, x = .ok a → good a) :
    Meets p good fair (liftM x : ExceptT ε (StateM σ) α) :=
  ⟨fun _ hs => hs, fun _ ha => hgood _ ha, fun _ e he => hx e he⟩

/-- A step that does not look at the state only has to fail as it may. -/
theorem lift_bind {x : Except ε α} {f : α → ExceptT ε (StateM σ) β} (hx : Fails fair x)
    (hf : ∀ a, Meets p good' fair (f a)) : Meets p good' fair (liftM x >>= f) := by
  have hlift : Meets p (fun _ => True) fair (liftM x : ExceptT ε (StateM σ) α) :=
    lift hx fun _ _ => trivial
  exact hlift.bind fun a _ => hf a

end Meets

/-! ## What a store gives -/

/-- Do the blocks of a store, asked for one after the other, have these bytes? -/
inductive BlockStore.Gives (store : BlockStore (StateM σ)) : σ → List (Cid × List UInt8) → σ → Prop
  | nil (s : σ) : Gives store s [] s
  | cons {s s₁ s' : σ} {cid : Cid} {data : List UInt8} {calls : List (Cid × List UInt8)}
      (head : perform (store.getBlock cid) s = (.ok data, s₁)) (tail : Gives store s₁ calls s') :
      Gives store s ((cid, data) :: calls) s'

/-- The bytes that a store gives when it is asked for blocks one after the other, up to the first
that it does not give. -/
def BlockStore.answers (store : BlockStore (StateM σ)) : σ → List Cid → List (List UInt8)
  | _, [] => []
  | s, cid :: cids =>
    match perform (store.getBlock cid) s with
    | (.ok data, s') => data :: store.answers s' cids
    | (.error _, _) => []

theorem BlockStore.answers_of_gives {store : BlockStore (StateM σ)} {s s' : σ}
    {calls : List (Cid × List UInt8)} (h : store.Gives s calls s') :
    store.answers s (calls.map Prod.fst) = calls.map Prod.snd := by
  induction h with
  | nil s => rfl
  | cons head _ ih =>
    rw [List.map_cons, List.map_cons, answers, head, ← ih]

theorem BlockStore.gives_cons {store : BlockStore (StateM σ)} {s s' : σ} {cid : Cid}
    {data : List UInt8} {calls : List (Cid × List UInt8)} :
    store.Gives s ((cid, data) :: calls) s' ↔
      ∃ s₁, perform (store.getBlock cid) s = (.ok data, s₁) ∧ store.Gives s₁ calls s' := by
  constructor
  · intro h
    cases h with
    | cons head tail => exact ⟨_, head, tail⟩
  · rintro ⟨s₁, head, tail⟩
    exact .cons head tail

end MarketDag
