import MarketDag.Proofs.Cbor.Length
import MarketDag.Proofs.Cbor.Tree

/-!
# Whatever is read is readable

Bytes that are no written form may be read as a tree as well.  The tree is one that can be written
and read again all the same (`yields_readTree`): a head holds no more than 64 bits, entries are put
into their places one by one, and whatever is nested was read within the budget.
-/

namespace MarketDag.Cbor

variable {α β : Type} {P : α → Prop} {Q : β → Prop}

/-! ## Results -/

/-- Has whatever a reader gives a property? -/
def Yields (P : α → Prop) (read : Scan α) : Prop :=
  ∀ bytes a rest, read bytes = .ok (a, rest) → P a

theorem yields_pure {a : α} (h : P a) : Yields P (pure a) := by
  intro bytes _ _ heq
  cases heq
  exact h

theorem yields_malformed : Yields P malformed := fun _ _ _ h => nomatch h

theorem yields_throw (fault : DecodeFault) : Yields P (throw fault : Scan α) :=
  fun _ _ _ h => nomatch h

theorem yields_any (read : Scan α) : Yields (fun _ => True) read := fun _ _ _ _ => trivial

theorem Yields.bind {x : Scan α} {f : α → Scan β} (hx : Yields P x)
    (hf : ∀ a, P a → Yields Q (f a)) : Yields Q (x >>= f) := by
  intro bytes b rest h
  obtain ⟨a, mid, hfirst, hsecond⟩ := read_bind_eq_ok.mp h
  exact hf a (hx bytes a mid hfirst) mid b rest hsecond

theorem Yields.map {x : Scan α} {f : α → β} (hx : Yields P x) (hf : ∀ a, P a → Q (f a)) :
    Yields Q (f <$> x) := by
  rw [map_eq_pure_bind]
  exact hx.bind fun a ha => yields_pure (hf a ha)

/-! ## Items -/

theorem followers?_le {low count : Nat} (h : followers? low = some count) : count ≤ 8 := by
  unfold followers? at h
  split_ifs at h <;> cases h <;> decide

theorem lt_of_followers? {low : Nat} (h : followers? low = some 0) : low < 24 := by
  unfold followers? at h
  split_ifs at h with hlow <;> first | exact hlow | cases h

theorem yields_argument (low : Nat) : Yields (· < UInt64.size) (argument low) := by
  unfold argument
  split
  · exact yields_malformed
  · rename_i hlow
    exact yields_pure (Nat.lt_trans (lt_of_followers? hlow) (by decide))
  · rename_i count hcount hlow
    have htake : Yields (fun front => front.length = count) (take count) :=
      fun _ _ _ h => (take_eq_ok h).1
    refine htake.map fun front hfront => Nat.lt_of_lt_of_le (BigEndian.decode_lt front) ?_
    rw [hfront]
    exact Nat.pow_le_pow_right (by decide) (followers?_le hlow)

theorem yields_readHead (major : Major) : Yields (· < UInt64.size) (readHead major) := by
  refine (yields_any next).bind fun b _ => ?_
  split
  · exact yields_argument _
  · exact yields_malformed

/-- An item with an integer of no more than 65 bits, if it is one. -/
def Item.Bounded : Item → Prop
  | .integer n => -0x10000000000000000 ≤ n ∧ n < 0x10000000000000000
  | _ => True

theorem yields_readSimple : Yields Item.Bounded readSimple := by
  refine (yields_any next).bind fun b _ => ?_
  split_ifs
  · exact yields_pure trivial
  · exact yields_pure trivial
  · exact yields_pure trivial
  · exact (yields_any _).map fun _ _ => trivial
  · exact (yields_any _).map fun _ _ => trivial
  · exact yields_malformed

theorem yields_readItem (depth : Nat) : Yields Item.Bounded (readItem depth) := by
  refine (yields_any peek).bind fun b _ => ?_
  split
  · exact yields_malformed
  split
  · -- only numbers have bounds to keep: those of the heads they are read from
    refine ((yields_readHead .unsigned).bind fun n hn => yields_pure ?_).map fun _ h => h
    rw [UInt64.size] at hn
    constructor <;> omega
  · refine ((yields_readHead .negative).bind fun n hn => yields_pure ?_).map fun _ h => h
    rw [UInt64.size] at hn
    constructor <;> omega
  · exact (yields_any _).bind fun _ _ => (yields_any _).bind fun _ _ => yields_pure trivial
  · exact (yields_any _).bind fun _ _ => (yields_any _).bind fun _ _ =>
      (yields_any _).bind fun _ _ => yields_pure trivial
  · exact (yields_any _).map fun _ _ => trivial
  · exact (yields_any _).map fun _ _ => trivial
  · exact (yields_any _).map fun _ _ => trivial
  · exact yields_readSimple

/-! ## Lists and maps -/

theorem yields_readMany {item : Scan α} (hitem : Yields P item) (n : Nat) :
    Yields (fun as => ∀ a ∈ as, P a) (readMany item n) := by
  induction n with
  | zero => exact yields_pure (List.forall_mem_nil _)
  | succ n ih =>
    exact hitem.bind fun a ha => ih.bind fun as has =>
      yields_pure (List.forall_mem_cons.mpr ⟨ha, has⟩)

/-- Entries that are read one by one stay in ascending order. -/
theorem yields_readEntries {depth : Nat} {value : Scan Ipld} {P : Ipld → Prop}
    (hvalue : Yields P value) (n : Nat) {entries : List (String × Ipld)}
    (hascending : Ascending entries) (hentries : ∀ e ∈ entries, P e.2) :
    Yields (fun es => Ascending es ∧ ∀ e ∈ es, P e.2) (readEntries depth value n entries) := by
  induction n generalizing entries with
  | zero => exact yields_pure ⟨hascending, hentries⟩
  | succ n ih =>
    refine (yields_any (readText depth)).bind fun key _ => hvalue.bind fun t ht => ?_
    split
    · exact yields_throw _
    · rename_i hnew
      have hkey := not_mem_keys (Bool.eq_false_iff.mpr hnew)
      exact ih (ascending_insertEntry hascending hkey)
        (forall_mem_insertEntry textBefore ht hentries)

/-! ## Trees -/

/-- A tree that is read within a budget is readable with it. -/
theorem yields_readTree (budget : Nat) : Yields (Readable budget) (readTree budget) := by
  -- lists and maps take two of the budget
  induction budget using Nat.strongRecOn with
  | ind budget ih =>
    rcases budget with _ | k
    · exact yields_malformed
    rw [readTree]
    refine (yields_readItem k).bind fun item hitem => ?_
    cases item with
    | integer n => exact yields_pure (readable_integer.mpr hitem)
    | list size =>
      cases k with
      | zero => exact yields_malformed
      | succ j => exact (yields_readMany (ih j (by omega)) size).map fun _ h => h
    | map size =>
      cases k with
      | zero => exact yields_malformed
      | succ j =>
        exact (yields_readEntries (ih j (by omega)) size .nil (List.forall_mem_nil _)).map
          fun _ h => h
    | _ => cases k <;> exact yields_pure trivial

/-- A tree that is read from bytes can be written and read again. -/
theorem readable_of_decodeTree {bytes : List UInt8} {t : Ipld} (h : decodeTree bytes = .ok t) :
    Readable maxDepth t :=
  yields_readTree maxDepth bytes t [] (run_of_readAll h)

end MarketDag.Cbor
