import Mathlib.Data.List.Forall2

/-!
# Computations that may fail

What is known about a computation that went well, and about the errors of one that did not
(`Fails`).
-/

namespace MarketDag

variable {ε ε' α β : Type}

theorem bind_eq_ok {x : Except ε α} {f : α → Except ε β} {b : β} :
    (x >>= f) = .ok b ↔ ∃ a, x = .ok a ∧ f a = .ok b := by
  cases x <;> simp [bind, Except.bind]

/-- A computation goes on with the result of one that went well. -/
theorem bind_of_ok {x : Except ε α} {f : α → Except ε β} {a : α} (h : x = .ok a) :
    (x >>= f) = f a := by
  rw [h]
  rfl

/-- A computation stops at the first error. -/
theorem bind_of_error {x : Except ε α} {f : α → Except ε β} {e : ε} (h : x = .error e) :
    (x >>= f) = .error e := by
  rw [h]
  rfl

/-- What ends in an error does not go well. -/
theorem bind_throw_ne_ok {x : Except ε α} {e : ε} {b : β} :
    (x >>= fun _ => throw e) ≠ Except.ok b := by
  cases x <;> exact nofun

/-- No result comes out of an error. -/
theorem not_exists_error_eq_ok {e : ε} : ¬ ∃ a : α, Except.error e = .ok a := by
  rintro ⟨a, h⟩
  cases h

theorem map_eq_ok {x : Except ε α} {f : α → β} {b : β} :
    (f <$> x) = .ok b ↔ ∃ a, x = .ok a ∧ f a = b := by
  cases x <;> simp [Functor.map, Except.map]

theorem pure_eq_ok {a b : α} : (pure a : Except ε α) = .ok b ↔ a = b := by
  simp [pure, Except.pure]

theorem mapError_eq_ok {x : Except ε α} {f : ε → ε'} {a : α} :
    x.mapError f = .ok a ↔ x = .ok a := by
  cases x <;> simp [Except.mapError]

theorem forM_eq_ok {f : α → Except ε PUnit} {as : List α} :
    as.forM f = .ok () ↔ ∀ a ∈ as, f a = .ok () := by
  induction as with
  | nil => simp [pure, Except.pure]
  | cons a as ih =>
    change (f a >>= fun _ => as.forM f) = .ok () ↔ _
    rw [bind_eq_ok, List.forall_mem_cons, ← ih]
    exact ⟨fun ⟨_, ha, has⟩ => ⟨ha, has⟩, fun ⟨ha, has⟩ => ⟨(), ha, has⟩⟩

/-- A reader goes on where the one before it stopped. -/
theorem read_bind {σ : Type} {x : StateT σ (Except ε) α} {f : α → StateT σ (Except ε) β}
    {s s' : σ} {a : α} (h : x s = .ok (a, s')) : (x >>= f) s = f a s' := by
  change (x s >>= fun r => f r.1 r.2) = _
  rw [h]
  rfl

theorem read_map {σ : Type} {x : StateT σ (Except ε) α} {f : α → β} {s s' : σ} {a : α}
    (h : x s = .ok (a, s')) : (f <$> x) s = .ok (f a, s') := by
  change (x s >>= fun r => pure (f r.1, r.2)) = _
  rw [h]
  rfl

/-! ## Errors -/

theorem bind_eq_error {x : Except ε α} {f : α → Except ε β} {e : ε} :
    (x >>= f) = .error e ↔ x = .error e ∨ ∃ a, x = .ok a ∧ f a = .error e := by
  cases x <;> simp [bind, Except.bind]

theorem map_eq_error {x : Except ε α} {f : α → β} {e : ε} :
    (f <$> x) = .error e ↔ x = .error e := by
  cases x <;> simp [Functor.map, Except.map]

/-- Are all errors of a computation such ones? -/
def Fails (fair : ε → Prop) (x : Except ε α) : Prop := ∀ e, x = .error e → fair e

namespace Fails

variable {fair fair' : ε → Prop}

theorem mono {x : Except ε α} (h : Fails fair x) (himp : ∀ e, fair e → fair' e) :
    Fails fair' x := fun e he => himp e (h e he)

theorem ok (a : α) : Fails fair (.ok a : Except ε α) := by
  intro e he
  cases he

theorem error {e : ε} (h : fair e) : Fails fair (.error e : Except ε α) := by
  intro e' he
  cases he
  exact h

theorem bind {x : Except ε α} {f : α → Except ε β} (hx : Fails fair x)
    (hf : ∀ a, x = .ok a → Fails fair (f a)) : Fails fair (x >>= f) := by
  intro e he
  cases x with
  | ok a => exact hf a rfl e he
  | error _ =>
    cases he
    exact hx _ rfl

theorem map {x : Except ε α} (hx : Fails fair x) (f : α → β) : Fails fair (f <$> x) := by
  intro e he
  cases x with
  | ok _ => cases he
  | error _ =>
    cases he
    exact hx _ rfl

theorem mapError {x : Except ε' α} {f : ε' → ε} (hf : ∀ e, fair (f e)) :
    Fails fair (x.mapError f) := by
  intro e he
  cases x with
  | ok _ => cases he
  | error _ =>
    cases he
    exact hf _

end Fails

/-- Steps over a list fail with the error of the first item whose step fails. -/
theorem forM_eq_error {f : α → Except ε PUnit} {as : List α} {e : ε} :
    as.forM f = .error e ↔ ∃ before a after, as = before ++ a :: after ∧
      (∀ x ∈ before, f x = .ok ()) ∧ f a = .error e := by
  constructor
  · intro h
    induction as with
    | nil => cases h
    | cons a as ih =>
      change (f a >>= fun _ => as.forM f) = .error e at h
      cases ha : f a with
      | error e' =>
        rw [bind_of_error ha] at h
        cases h
        exact ⟨[], a, as, rfl, List.forall_mem_nil _, ha⟩
      | ok _ =>
        rw [bind_of_ok ha] at h
        obtain ⟨before, b, after, rfl, hbefore, hb⟩ := ih h
        exact ⟨a :: before, b, after, rfl, List.forall_mem_cons.mpr ⟨ha, hbefore⟩, hb⟩
  · rintro ⟨before, a, after, rfl, hbefore, ha⟩
    induction before with
    | nil => exact bind_of_error ha
    | cons b before ih =>
      obtain ⟨hb, hbefore⟩ := List.forall_mem_cons.mp hbefore
      exact (bind_of_ok hb).trans (ih hbefore)

/-! ## Lists -/

/-- A list is changed item by item, and each of them goes well. -/
theorem forall₂_of_mapM_eq_ok {f : α → Except ε β} {as : List α} {bs : List β}
    (h : as.mapM f = .ok bs) : List.Forall₂ (fun a b => f a = .ok b) as bs := by
  induction as generalizing bs with
  | nil =>
    cases h
    exact .nil
  | cons a as ih =>
    rw [List.mapM_cons] at h
    obtain ⟨b, hb, h⟩ := bind_eq_ok.mp h
    obtain ⟨bs, hbs, h⟩ := bind_eq_ok.mp h
    cases h
    exact .cons hb (ih hbs)

theorem exists_of_mem_forall₂ {r : α → β → Prop} {as : List α} {bs : List β} {b : β}
    (h : List.Forall₂ r as bs) (hb : b ∈ bs) : ∃ a ∈ as, r a b := by
  induction h with
  | nil => cases hb
  | cons hab _ ih =>
    rcases List.mem_cons.mp hb with rfl | hb
    · exact ⟨_, List.mem_cons_self, hab⟩
    · obtain ⟨a, ha, hab⟩ := ih hb
      exact ⟨a, List.mem_cons_of_mem _ ha, hab⟩

theorem exists_forall₂ {r : α → β → Prop} {as : List α} (h : ∀ a ∈ as, ∃ b, r a b) :
    ∃ bs, List.Forall₂ r as bs := by
  induction as with
  | nil => exact ⟨[], .nil⟩
  | cons a as ih =>
    obtain ⟨b, hb⟩ := h a List.mem_cons_self
    obtain ⟨bs, hbs⟩ := ih fun a ha => h a (List.mem_cons_of_mem _ ha)
    exact ⟨b :: bs, .cons hb hbs⟩

theorem mapM_eq_ok_of_forall₂ {f : α → Except ε β} {as : List α} {bs : List β}
    (h : List.Forall₂ (fun a b => f a = .ok b) as bs) : as.mapM f = .ok bs := by
  induction h with
  | nil => rfl
  | cons hb _ ih =>
    rw [List.mapM_cons, hb, ih]
    rfl

end MarketDag
