import MarketDag.Cbor.Reader
import MarketDag.Proofs.Shape.Outcome

/-!
# Records in binary trees

Two records whose common keys have the same forms read the same bytes in step, so that bytes are not
read as both of them if one has to have a key that the other does not know (`not_both_of_required`).
-/

namespace MarketDag.Cbor

/-! ## Going well -/

theorem read_bind_eq_ok {α β : Type} {x : Scan α} {f : α → Scan β} {s s' : List UInt8} {b : β} :
    (x >>= f) s = .ok (b, s') ↔ ∃ a t, x s = .ok (a, t) ∧ f a t = .ok (b, s') := by
  change (x s >>= fun r => f r.1 r.2) = _ ↔ _
  rw [bind_eq_ok, Prod.exists]

theorem ofExcept_eq_ok {α : Type} {x : Except DecodeFault α} {s s' : List UInt8} {a : α} :
    (MonadExcept.ofExcept x : Scan α) s = .ok (a, s') ↔ x = .ok a ∧ s = s' := by
  cases x with
  | error fault => exact ⟨(nomatch ·), fun h => nomatch h.1⟩
  | ok b =>
    change Except.ok (b, s) = Except.ok (a, s') ↔ _
    rw [Except.ok.injEq, Except.ok.injEq, Prod.mk.injEq]

/-- What is read from a whole byte string is read up to its end. -/
theorem readAll_eq_ok_iff {α : Type} {read : Scan α} {bytes : List UInt8} {a : α} :
    readAll read bytes = .ok a ↔ read bytes = .ok (a, []) := by
  constructor
  · intro h
    obtain ⟨⟨b, rest⟩, hread, hend⟩ := bind_eq_ok.mp h
    cases rest with
    | nil =>
      cases hend
      exact hread
    | cons => cases hend
  · intro h
    exact bind_eq_ok.mpr ⟨(a, []), h, rfl⟩

theorem run_of_readAll {α : Type} {read : Scan α} {bytes : List UInt8} {a : α}
    (h : readAll read bytes = .ok a) : read bytes = .ok (a, []) :=
  readAll_eq_ok_iff.mp h

/-- With a budget, a reader goes well when it gives a value and the bytes that follow. -/
def outcome (depth : Nat) : Outcome Read (List UInt8) where
  Gives s x a s' := x.run depth s = .ok (a, s')
  bind_iff {_ _ _ _ x f _} := read_bind_eq_ok (x := x.run depth) (f := fun a => (f a).run depth)
  pure_iff := by
    intro α s s' a b
    change Except.ok (a, s) = Except.ok (b, s') ↔ _
    rw [Except.ok.injEq, Prod.mk.injEq]
  not_throw h := nomatch h

/-! ## One record -/

/-- A record is made of the fields that are read behind the head of a map, with one less in the
budget for them. -/
theorem record_eq_ok {σ α : Type} {name : String} {keys : List String} {start : σ}
    {step : String → σ → Read σ} {finish : Arrangement → σ → Except DecodeFault α} {depth : Nat}
    {s s' : List UInt8} {v : α} :
    (source.record name keys start step finish).run (depth + 1) s = .ok (v, s') ↔
      ∃ n t last, readHead .map s = .ok (n, t) ∧
        readFields step depth n start t = .ok (last, s') ∧ finish .named last = .ok v := by
  change (readHead .map >>= fun n => readFields step depth n start >>= fun slots =>
    MonadExcept.ofExcept (finish .named slots)) s = _ ↔ _
  constructor
  · intro h
    obtain ⟨n, t, hhead, h⟩ := read_bind_eq_ok.mp h
    obtain ⟨last, u, hfields, h⟩ := read_bind_eq_ok.mp h
    obtain ⟨hfinish, rfl⟩ := ofExcept_eq_ok.mp h
    exact ⟨n, t, last, hhead, hfields, hfinish⟩
  · rintro ⟨n, t, last, hhead, hfields, hfinish⟩
    exact read_bind_eq_ok.mpr ⟨n, t, hhead, read_bind_eq_ok.mpr
      ⟨last, s', hfields, ofExcept_eq_ok.mpr ⟨hfinish, rfl⟩⟩⟩

/-! ## Two records -/

section

variable {fields others : Fields} {known known' : List String}

/-- Two records read their entries in step, so that neither reads a key that the other does not
know. -/
theorem lacks_of_readFields
    (hforms : ∀ key f g, fields.form? key = some f → others.form? key = some g → f = g)
    {key : String} (hkey : key ∉ others.keys) {depth n : Nat} {s t t' : List UInt8}
    {start last : fields.Slots} {start' last' : others.Slots}
    (hlacks : fields.Lacks .named key start)
    (h : readFields (fields.readField source known) depth n start s = .ok (last, t))
    (h' : readFields (others.readField source known') depth n start' s = .ok (last', t')) :
    fields.Lacks .named key last := by
  induction n generalizing s start start' with
  | zero =>
    cases h
    exact hlacks
  | succ n ih =>
    obtain ⟨name, u, hname, h⟩ := read_bind_eq_ok.mp h
    obtain ⟨name', u', hname', h'⟩ := read_bind_eq_ok.mp h'
    cases hname.symm.trans hname'
    obtain ⟨slots, v, hfield, h⟩ := read_bind_eq_ok.mp h
    obtain ⟨slots', v', hfield', h'⟩ := read_bind_eq_ok.mp h'
    obtain ⟨f, hf, hread⟩ := fields.form_of_readField (outcome depth) hfield
    obtain ⟨g, hg, hread'⟩ := others.form_of_readField (outcome depth) hfield'
    -- the value is read in one form, so both stand at the same place after it
    cases hforms name f g hf hg
    cases hread.symm.trans hread'
    have hne : name ≠ key := fun heq => hkey (heq ▸ Fields.mem_keys_of_form hg)
    exact ih (fields.lacks_of_readField (outcome depth) hne hlacks hfield) h h'

/-- No bytes are read as two records of which one has to have a key that the other does not know. -/
theorem not_both_of_required {name name' key : String}
    (hforms : ∀ key f g, fields.form? key = some f → others.form? key = some g → f = g)
    (hkey : key ∈ fields.requiredKeys) (hother : key ∉ others.keys) {bytes : List UInt8}
    {v : fields.Value} {w : others.Value} (h : decode (.record name fields) bytes = .ok v)
    (h' : decode (.record name' others) bytes = .ok w) : False := by
  have hread := run_of_readAll h
  have hread' := run_of_readAll h'
  rw [Shape.read] at hread hread'
  obtain ⟨n, t, last, hhead, hfields, hfinish⟩ := record_eq_ok.mp hread
  obtain ⟨n', t', last', hhead', hfields', -⟩ := record_eq_ok.mp hread'
  cases hhead.symm.trans hhead'
  rw [← fields.neededKeys_named] at hkey
  have hlacks := lacks_of_readFields hforms hother (fields.lacks_empty hkey) hfields hfields'
  exact fields.finish_of_lacks hlacks _ hfinish

end

end MarketDag.Cbor
