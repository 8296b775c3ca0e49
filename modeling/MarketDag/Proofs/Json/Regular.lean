import MarketDag.Json.Reader
import MarketDag.Proofs.Except
import MarketDag.Proofs.Ipld.Canonical

/-!
# What is read from JSON is regular

Whatever the bytes of a text are, the tree that is read from them has its keys in ascending order,
integers of no more than 64 bits, and lists and maps nested no deeper than they may be in a text
(`regularWithin_of_decodeTree`).
-/

namespace MarketDag.Json

variable {depth : Nat}

/-- Is the tree of a value, if it has one, regular within a depth? -/
def Regular (depth : Nat) (value : Json) : Prop :=
  ∀ t, value.tree = .ok t → t.RegularWithin depth

/-! ## Scalars -/

theorem Regular.mono {depth' : Nat} {value : Json} (h : Regular depth value)
    (hle : depth ≤ depth') : Regular depth' value := fun t ht => (h t ht).mono hle

theorem regular_broken : Regular depth .broken := fun _ ht => nomatch ht

theorem regular_float (x : Binary64) : Regular 0 (.float x) := by
  intro t ht
  cases ht
  exact trivial

theorem regular_integer {n : Int} (hlow : -0x10000000000000000 ≤ n)
    (hhigh : n < 0x10000000000000000) : Regular 0 (.integer n) := by
  intro t ht
  cases ht
  exact ⟨hlow, hhigh⟩

theorem regular_floatOf? {negative : Bool} {digits : Nat} {exponent : Int} {value : Json}
    (h : floatOf? negative digits exponent = some value) : Regular 0 value := by
  simp only [floatOf?] at h
  split at h
  · cases h
    exact regular_float _
  · cases h

theorem regular_number? {negative : Bool} {bytes rest : List UInt8} {value : Json}
    (h : number? negative bytes = some (value, rest)) : Regular 0 value := by
  unfold number? at h
  simp only [Option.bind_eq_bind, Option.bind_eq_some_iff] at h
  obtain ⟨⟨whole, rest₁⟩, -, ⟨places, rest₂⟩, -, ⟨exponent, rest₃⟩, -, h⟩ := h
  split_ifs at h <;> obtain ⟨value', hvalue, h⟩ := Option.bind_eq_some_iff.mp h <;> cases h
  · exact regular_floatOf? hvalue
  · rename_i hsmall
    cases hvalue
    exact regular_integer (by omega) (by omega)
  · rename_i hsmall
    cases hvalue
    rw [UInt64.size] at hsmall
    exact regular_integer (by omega) (by omega)
  · exact regular_floatOf? hvalue
  · exact regular_floatOf? hvalue

theorem regular_orBroken {α : Type} {value : α → Json} {r : Option (α × List UInt8)}
    (h : ∀ a rest, r = some (a, rest) → Regular depth (value a)) :
    Regular depth (orBroken value r).1 := by
  cases r with
  | none => exact regular_broken
  | some r => exact h r.1 r.2 rfl

theorem regular_parseScalar (bytes : List UInt8) : Regular 0 (parseScalar bytes).1 := by
  -- strings, words and the missing value; of numbers only the integers have a bound to keep
  have hplain : ∀ (value : Json) (t : Ipld), value.tree = .ok t → t.RegularWithin 0 →
      Regular 0 value := by
    intro value t ht hregular t' ht'
    cases ht.symm.trans ht'
    exact hregular
  cases bytes with
  | nil => exact regular_broken
  | cons b rest =>
    rw [parseScalar]
    split_ifs
    · exact regular_orBroken fun s _ _ => hplain _ (.text s) rfl trivial
    · exact regular_orBroken fun _ _ h => regular_number? h
    · exact regular_orBroken fun _ _ h => regular_number? h
    · exact regular_orBroken fun _ _ _ => hplain _ .null rfl trivial
    · exact regular_orBroken fun _ _ _ => hplain _ (.bool true) rfl trivial
    · exact regular_orBroken fun _ _ _ => hplain _ (.bool false) rfl trivial

/-! ## Lists and objects -/

theorem regularWithin_of_treeItems {items : List Json} {ts : List Ipld}
    (hitems : ∀ value ∈ items, Regular depth value) (h : treeItems items = .ok ts) :
    ∀ t ∈ ts, t.RegularWithin depth := by
  induction items generalizing ts with
  | nil =>
    cases h
    exact List.forall_mem_nil _
  | cons value items ih =>
    obtain ⟨hvalue, hitems⟩ := List.forall_mem_cons.mp hitems
    obtain ⟨t, ht, h⟩ := bind_eq_ok.mp h
    obtain ⟨ts, hts, h⟩ := bind_eq_ok.mp h
    cases h
    exact List.forall_mem_cons.mpr ⟨hvalue t ht, ih hitems hts⟩

/-- Entries that are read one by one stay in ascending order. -/
theorem regularWithin_of_treeEntries {before es : List (String × Ipld)}
    {entries : List (String × Json)} (hascending : Ascending before)
    (hbefore : ∀ e ∈ before, e.2.RegularWithin depth)
    (hentries : ∀ e ∈ entries, Regular depth e.2) (h : treeEntries before entries = .ok es) :
    Ascending es ∧ ∀ e ∈ es, e.2.RegularWithin depth := by
  induction entries generalizing before with
  | nil =>
    cases h
    exact ⟨hascending, hbefore⟩
  | cons e entries ih =>
    obtain ⟨hvalue, hentries⟩ := List.forall_mem_cons.mp hentries
    obtain ⟨t, ht, h⟩ := bind_eq_ok.mp h
    split at h
    · cases h
    · -- a repeated key is refused, so the key is new and goes into its place
      rename_i hnew
      have hkey := not_mem_keys (Bool.eq_false_iff.mpr hnew)
      exact ih (ascending_insertEntry hascending hkey)
        (forall_mem_insertEntry textBefore (hvalue t ht) hbefore) hentries h

theorem regular_list {items : List Json} {closed : Bool}
    (h : ∀ value ∈ items, Regular depth value) : Regular (depth + 1) (.list items closed) := by
  intro t ht
  obtain ⟨ts, hts, ht⟩ := bind_eq_ok.mp ht
  split at ht
  · cases ht
    exact regularWithin_of_treeItems h hts
  · cases ht

theorem regular_object {entries : List (String × Json)} {closed : Bool}
    (h : ∀ e ∈ entries, Regular depth e.2) : Regular (depth + 1) (.object entries closed) := by
  intro t ht
  obtain ⟨r, -, ht⟩ := bind_eq_ok.mp ht
  match r with
  | some (.link cid) =>
    obtain ⟨-, -, ht⟩ := bind_eq_ok.mp ht
    cases ht
    exact trivial
  | some (.bytes b) =>
    obtain ⟨-, -, ht⟩ := bind_eq_ok.mp ht
    cases ht
    exact trivial
  | none =>
    obtain ⟨es, hes, ht⟩ := bind_eq_ok.mp ht
    split at ht
    · cases ht
      exact regularWithin_of_treeEntries .nil (List.forall_mem_nil _) h hes
    · cases ht

/-! ## Values of a text -/

section

variable {item : Parse} (hitem : ∀ bytes, Regular depth (item bytes).1)

include hitem

theorem regular_of_mem_parseItems (fuel : Nat) (bytes : List UInt8) :
    ∀ value ∈ (parseItems item fuel bytes).1, Regular depth value := by
  induction fuel generalizing bytes with
  | zero => exact List.forall_mem_nil _
  | succ fuel ih =>
    have hvalue := hitem bytes
    rw [parseItems]
    rcases hform : item bytes with ⟨value, rest?⟩
    rw [hform] at hvalue
    cases rest? with
    | none => exact List.forall_mem_singleton.mpr hvalue
    | some rest =>
      dsimp only
      split
      · exact List.forall_mem_cons.mpr ⟨hvalue, ih _⟩
      · exact List.forall_mem_singleton.mpr hvalue
      · exact List.forall_mem_singleton.mpr hvalue

theorem regular_parseEntryValue (bytes : List UInt8) :
    Regular depth (parseEntryValue item bytes).1 := by
  unfold parseEntryValue
  split
  · exact hitem _
  · exact regular_broken

theorem regular_of_mem_parseEntries (fuel : Nat) (bytes : List UInt8) :
    ∀ e ∈ (parseEntries item fuel bytes).1, Regular depth e.2 := by
  induction fuel generalizing bytes with
  | zero => exact List.forall_mem_nil _
  | succ fuel ih =>
    rw [parseEntries]
    split
    · split
      · exact List.forall_mem_nil _
      · rename_i key rest hkey
        have hvalue := regular_parseEntryValue hitem rest
        rcases hform : parseEntryValue item rest with ⟨value, rest?⟩
        rw [hform] at hvalue
        cases rest? with
        | none => exact List.forall_mem_singleton.mpr hvalue
        | some rest =>
          dsimp only
          split
          · exact List.forall_mem_cons.mpr ⟨hvalue, ih _⟩
          · exact List.forall_mem_singleton.mpr hvalue
          · exact List.forall_mem_singleton.mpr hvalue
    · exact List.forall_mem_nil _

theorem regular_parseList (bytes : List UInt8) : Regular (depth + 1) (parseList item bytes).1 := by
  unfold parseList
  split
  · exact regular_list (List.forall_mem_nil _)
  · exact regular_list (regular_of_mem_parseItems hitem _ _)

theorem regular_parseObject (bytes : List UInt8) :
    Regular (depth + 1) (parseObject item bytes).1 := by
  unfold parseObject
  split
  · exact regular_object (List.forall_mem_nil _)
  · exact regular_object (regular_of_mem_parseEntries hitem _ _)

end

theorem regular_parseValue (depth : Nat) (bytes : List UInt8) :
    Regular depth (parseValue depth bytes).1 := by
  induction depth generalizing bytes with
  | zero =>
    rw [parseValue]
    split
    · exact fun _ ht => nomatch ht
    · exact fun _ ht => nomatch ht
    · exact regular_parseScalar _
  | succ depth ih =>
    rw [parseValue]
    split
    · exact regular_parseList ih _
    · exact regular_parseObject ih _
    · exact (regular_parseScalar _).mono (Nat.zero_le _)

/-- The tree of a text is regular. -/
theorem regularWithin_of_decodeTree {bytes : List UInt8} {t : Ipld}
    (h : decodeTree bytes = .ok t) : t.RegularWithin maxDepth := by
  obtain ⟨a, ht, h⟩ := bind_eq_ok.mp h
  have hregular := regular_parseValue maxDepth bytes a ht
  split at h
  · cases h
  · split at h
    · cases h
      exact hregular
    · cases h

end MarketDag.Json
