import MarketDag.Json.Reader
import MarketDag.Proofs.Shape.Outcome

/-!
# Records in JSON

A record is read from an object, whose keys are those of fields and among them all that the record
has to have (`read_object`), or from a list, whose items are fields in their order (`read_list`).
-/

namespace MarketDag.Json

variable {fields : Fields} {known : List String}

/-! ## Objects -/

/-- Of an object that is not reserved a record is made of what is read under its keys. -/
theorem record_object_eq_ok {σ α : Type} {name : String} {keys : List String} {start : σ}
    {step : String → σ → Read σ} {finish : Arrangement → σ → Except DecodeFault α}
    {entries : List (String × Json)} {closed : Bool} {v : α} :
    (source.record name keys start step finish).run (.object entries closed) = .ok v ↔
      reserved? entries = .ok none ∧
        ∃ last, namedFields step closed start entries = .ok last ∧ finish .named last = .ok v := by
  constructor
  · intro h
    obtain ⟨r, hreserved, h⟩ := bind_eq_ok.mp h
    cases r with
    | some r => cases h
    | none => exact ⟨hreserved, bind_eq_ok.mp h⟩
  · rintro ⟨hreserved, h⟩
    exact bind_eq_ok.mpr ⟨none, hreserved, bind_eq_ok.mpr h⟩

theorem mem_keys_of_namedFields {closed : Bool} {start last : fields.Slots}
    {entries : List (String × Json)}
    (h : namedFields (fields.readField source known) closed start entries = .ok last) :
    ∀ e ∈ entries, e.1 ∈ fields.keys := by
  induction entries generalizing start with
  | nil => simp
  | cons e entries ih =>
    obtain ⟨slots, hfield, h⟩ := bind_eq_ok.mp h
    obtain ⟨form, hform, -⟩ := fields.form_of_readField (.looking Json) ⟨hfield, rfl⟩
    exact List.forall_mem_cons.mpr ⟨Fields.mem_keys_of_form hform, ih h⟩

theorem lacks_of_namedFields {key : String} {closed : Bool} {start last : fields.Slots}
    {entries : List (String × Json)} (hkey : key ∉ entries.map Prod.fst)
    (hlacks : fields.Lacks .named key start)
    (h : namedFields (fields.readField source known) closed start entries = .ok last) :
    fields.Lacks .named key last := by
  induction entries generalizing start with
  | nil =>
    rw [namedFields] at h
    split at h
    · cases h
      exact hlacks
    · cases h
  | cons e entries ih =>
    -- an entry with another name leaves the field of the key as it was
    rw [List.map_cons, List.mem_cons, not_or] at hkey
    obtain ⟨slots, hfield, h⟩ := bind_eq_ok.mp h
    have hslots := fields.lacks_of_readField (.looking Json) (Ne.symm hkey.1) hlacks ⟨hfield, rfl⟩
    exact ih hkey.2 hslots h

/-- An object that is read as a record has only keys of fields, and all that the record has to
have. -/
theorem read_object {name : String} {entries : List (String × Json)} {closed : Bool}
    {v : fields.Value}
    (h : ((Shape.record name fields).read source).run (.object entries closed) = .ok v) :
    (∀ e ∈ entries, e.1 ∈ fields.keys) ∧
      ∀ key ∈ fields.requiredKeys, key ∈ entries.map Prod.fst := by
  rw [Shape.read] at h
  obtain ⟨-, last, hlast, hfinish⟩ := record_object_eq_ok.mp h
  refine ⟨mem_keys_of_namedFields hlast, fun key hkey => by_contra fun hmissing => ?_⟩
  rw [← fields.neededKeys_named] at hkey
  have hlacks := lacks_of_namedFields hmissing (fields.lacks_empty hkey) hlast
  exact fields.finish_of_lacks hlacks v hfinish

/-! ## Lists -/

/-- Of a list that is complete a record is made of its items, none of which is left over. -/
theorem record_list_eq_ok {σ α : Type} {name : String} {keys : List String} {start : σ}
    {step : String → σ → Read σ} {finish : Arrangement → σ → Except DecodeFault α}
    {items : List Json} {closed : Bool} {v : α} :
    (source.record name keys start step finish).run (.list items closed) = .ok v ↔
      closed = true ∧ ∃ last left, positionalFields step keys start items = .ok (last, left, []) ∧
        finish .positional last = .ok v := by
  constructor
  · intro h
    obtain ⟨⟨last, left, rest⟩, hfields, h⟩ := bind_eq_ok.mp h
    dsimp only at h
    split at h
    · cases h
    · obtain ⟨record, hfinish, h⟩ := bind_eq_ok.mp h
      split at h
      · rename_i hend
        cases h
        cases List.isEmpty_iff.mp hend.1
        exact ⟨hend.2, last, left, hfields, hfinish⟩
      · cases h
  · rintro ⟨rfl, last, left, hfields, hfinish⟩
    refine bind_eq_ok.mpr ⟨_, hfields, ?_⟩
    exact (if_neg fun h => h.2 rfl).trans (bind_eq_ok.mpr ⟨v, hfinish, if_pos ⟨rfl, rfl⟩⟩)

/-- Is an item a field of a key, in the form that this field has? -/
def IsField (fields : Fields) (key : String) (item : Json) : Prop :=
  ∃ form, fields.form? key = some form ∧ ((form.read source).run item = .ok ())

/-- Items are read as fields in their order, as far as there are both. -/
theorem positionalFields_eq_ok {keys left : List String} {start last : fields.Slots}
    {items rest : List Json} (hkeys : keys.Nodup)
    (h : positionalFields (fields.readField source known) keys start items =
      .ok (last, left, rest)) :
    ∃ read front, keys = read ++ left ∧ items = front ++ rest ∧
      List.Forall₂ (IsField fields) read front ∧
      ∀ arrangement key, key ∉ read → fields.Lacks arrangement key start →
        fields.Lacks arrangement key last := by
  induction keys generalizing items start with
  | nil =>
    cases h
    exact ⟨[], [], rfl, rfl, .nil, fun _ _ _ h => h⟩
  | cons key keys ih =>
    cases items with
    | nil =>
      cases h
      exact ⟨[], [], rfl, rfl, .nil, fun _ _ _ h => h⟩
    | cons item items =>
      obtain ⟨slots, hfield, h⟩ := bind_eq_ok.mp h
      obtain ⟨read, front, rfl, rfl, hread, hlacks⟩ := ih (List.nodup_cons.mp hkeys).2 h
      obtain ⟨form, hform, hitem⟩ := fields.form_of_readField (.looking Json) ⟨hfield, rfl⟩
      -- keys differ, so reading this item fills the field of its own key only
      refine ⟨key :: read, item :: front, rfl, rfl, .cons ⟨form, hform, hitem.1⟩ hread, ?_⟩
      intro arrangement other hother hstart
      rw [List.mem_cons, not_or] at hother
      exact hlacks arrangement other hother.2
        (fields.lacks_of_readField (.looking Json) (Ne.symm hother.1) hstart ⟨hfield, rfl⟩)

/-- The items of a list that is read as a record are its first fields in their order, and it has to
have none of the others. -/
theorem read_list {name : String} {items : List Json} {closed : Bool} {v : fields.Value}
    (hkeys : fields.keys.Nodup)
    (h : ((Shape.record name fields).read source).run (.list items closed) = .ok v) :
    closed = true ∧ ∃ read left, fields.keys = read ++ left ∧
      List.Forall₂ (IsField fields) read items ∧
      ∀ key ∈ left, key ∉ fields.neededKeys .positional := by
  rw [Shape.read] at h
  obtain ⟨hclosed, last, left, hpositional, hfinish⟩ := record_list_eq_ok.mp h
  obtain ⟨read, front, hread, rfl, hitems, hlacks⟩ := positionalFields_eq_ok hkeys hpositional
  rw [List.append_nil]
  refine ⟨hclosed, read, left, hread, hitems, fun key hkey hneeded => ?_⟩
  -- a field behind the last item was never filled, so it must be one that may be missing
  have hnew : key ∉ read := by
    rw [hread] at hkeys
    exact fun hmem => (List.nodup_append.mp hkeys).2.2 key hmem key hkey rfl
  exact fields.finish_of_lacks (hlacks .positional key hnew (fields.lacks_empty hneeded)) v hfinish

theorem IsField.read {key : String} {item : Json} {shape : Shape} (h : IsField fields key item)
    (hform : fields.form? key = some (.required shape)) :
    ∃ v, (shape.read source).run item = .ok v := by
  obtain ⟨form, hform', hread⟩ := h
  cases hform.symm.trans hform'
  obtain ⟨v, hv, -⟩ := bind_eq_ok.mp hread
  exact ⟨v, hv⟩

theorem IsField.null_or_read {key : String} {item : Json} {shape : Shape}
    (h : IsField fields key item) (hform : fields.form? key = some (.optional shape)) :
    item = .null ∨ ∃ v, (shape.read source).run item = .ok v := by
  obtain ⟨form, hform', hread⟩ := h
  cases hform.symm.trans hform'
  obtain ⟨a, ha, -⟩ := bind_eq_ok.mp hread
  cases item with
  | null => exact .inl rfl
  | _ =>
    obtain ⟨v, hv, -⟩ := map_eq_ok.mp ha
    exact .inr ⟨v, hv⟩

theorem eq_text_of_read {item : Json} (h : ∃ v, ((Shape.leaf .text).read source).run item = .ok v) :
    ∃ s, item = .text s := by
  obtain ⟨v, hv⟩ := h
  cases item with
  | text s => exact ⟨s, rfl⟩
  | _ => cases hv

theorem not_decimal_of_object {entries : List (String × Json)} {closed : Bool} {d : Decimal} :
    asDecimal (.object entries closed) ≠ .ok d := by
  intro h
  cases entries with
  | nil => cases closed <;> cases h
  | cons e entries =>
    obtain ⟨r, -, h⟩ := bind_eq_ok.mp h
    cases r <;> cases h

/-- A record is read from an object or a list. -/
theorem object_or_list_of_read {name : String} {value : Json} {v : fields.Value}
    (h : ((Shape.record name fields).read source).run value = .ok v) :
    (∃ entries closed, value = .object entries closed) ∨
      ∃ items closed, value = .list items closed := by
  cases value with
  | object entries closed => exact .inl ⟨entries, closed, rfl⟩
  | list items closed => exact .inr ⟨items, closed, rfl⟩
  | _ => cases h

/-! ## Texts -/

/-- What is read from a whole text is read from the value that it parses to. -/
theorem readAll_eq_ok_iff {α : Type} {read : Json → Except DecodeFault α} {bytes : List UInt8}
    {a : α} :
    readAll read bytes = .ok a ↔ ∃ value rest, parse bytes = (value, some rest) ∧
      (skip rest).isEmpty = true ∧ read value = .ok a := by
  rcases hparse : parse bytes with ⟨value, rest?⟩
  rw [readAll, hparse]
  constructor
  · intro h
    obtain ⟨b, hb, h⟩ := bind_eq_ok.mp h
    cases rest? with
    | none => cases h
    | some rest =>
      dsimp only at h
      split at h
      · rename_i hend
        cases h
        exact ⟨value, rest, rfl, hend, hb⟩
      · cases h
  · rintro ⟨_, rest, h, hend, hread⟩
    cases h
    exact bind_eq_ok.mpr ⟨a, hread, if_pos hend⟩

theorem read_of_readAll {α : Type} {read : Json → Except DecodeFault α} {bytes : List UInt8} {a : α}
    (h : readAll read bytes = .ok a) :
    ∃ value rest, parse bytes = (value, some rest) ∧ read value = .ok a := by
  obtain ⟨value, rest, hparse, -, hread⟩ := readAll_eq_ok_iff.mp h
  exact ⟨value, rest, hparse, hread⟩

/-- A value is read off the front of a text that goes on well. -/
theorem read_of_decode {shape : Shape} {bytes : List UInt8} {v : shape.Value}
    (h : decode shape bytes = .ok v) :
    ∃ value rest, parse bytes = (value, some rest) ∧ (shape.read source).run value = .ok v :=
  read_of_readAll h

end MarketDag.Json
