import MarketDag.Proofs.Ipld.Canonical
import MarketDag.Proofs.Json.Scalar

/-!
# Trees in JSON: the round trip

The text of a tree is parsed as the JSON value of the tree (`parse_write`), whichever keys the maps
of the tree have: only a reader of this value takes an object with the key `/` for a link.
-/

namespace MarketDag

/-! ## Trees with links -/

namespace Ipld

/-- A tree of nulls, numbers below 2 ^ 64, texts, links, lists and maps, nested no deeper than
so. -/
def LinkedWithin : Nat → Ipld → Prop
  | _, .null => True
  | _, .integer n => 0 ≤ n ∧ n < 0x10000000000000000
  | _, .text _ => True
  | _, .link _ => True
  | depth + 1, .list items => ∀ t ∈ items, LinkedWithin depth t
  | depth + 1, .map entries => ∀ e ∈ entries, LinkedWithin depth e.2
  | _, _ => False

theorem linkedWithin_integer {depth : Nat} {n : Int} :
    LinkedWithin depth (.integer n) ↔ 0 ≤ n ∧ n < 0x10000000000000000 := by
  cases depth <;> exact Iff.rfl

theorem LinkedWithin.mono {depth depth' : Nat} {t : Ipld} (h : LinkedWithin depth t)
    (hle : depth ≤ depth') : LinkedWithin depth' t := by
  induction depth generalizing depth' t with
  | zero => cases t <;> cases depth' <;> simp_all [LinkedWithin]
  | succ depth ih =>
    obtain ⟨k, rfl⟩ : ∃ k, depth' = k + 1 := ⟨depth' - 1, by omega⟩
    cases t with
    | list items =>
      rw [LinkedWithin] at h ⊢
      exact fun t ht => ih (h t ht) (by omega)
    | map entries =>
      rw [LinkedWithin] at h ⊢
      exact fun e he => ih (h e he) (by omega)
    | _ => simp_all [LinkedWithin]

theorem hereditary_linkedWithin : Hereditary true LinkedWithin where
  mono := LinkedWithin.mono
  null := trivial
  integer hlow hhigh := ⟨hlow, hhigh⟩
  text _ := trivial
  link _ _ := trivial
  list h := h
  map _ h := h

end Ipld

namespace Json

/-! ## Values of trees -/

mutual

/-- The JSON value that a tree is written as. -/
def ofTree : Ipld → Json
  | .null => .null
  | .bool b => .bool b
  | .integer n => .integer n
  | .float x => .float x
  | .text s => .text s
  | .bytes b =>
    let text := String.ofList (Multibase.base64Plain.encodeGroups 6 b)
    .object [("/", .object [("bytes", .text text)] true)] true
  | .list items => .list (ofItems items) true
  | .map entries => .object (ofEntries entries) true
  | .link cid => .object [("/", .text cid.toText)] true

/-- The values of the items of a list. -/
def ofItems : List Ipld → List Json
  | [] => []
  | item :: items => ofTree item :: ofItems items

/-- The values of the entries of a map. -/
def ofEntries : List (String × Ipld) → List (String × Json)
  | [] => []
  | (key, value) :: entries => (key, ofTree value) :: ofEntries entries

end

theorem ofItems_eq (items : List Ipld) : ofItems items = items.map ofTree := by
  induction items with
  | nil => rfl
  | cons item items ih => rw [ofItems, ih, List.map_cons]

theorem ofEntries_eq (entries : List (String × Ipld)) :
    ofEntries entries = entries.map fun e => (e.1, ofTree e.2) := by
  induction entries with
  | nil => rfl
  | cons e entries ih => rw [ofEntries, ih, List.map_cons]

/-! ## The first byte -/

/-- A byte that begins a value, and so ends no list. -/
def Begins (b : UInt8) : Prop := isSpace b = false ∧ b ≠ 0x5D

theorem begins_of_isDigit {b : UInt8} (h : isDigit b = true) : Begins b := by
  refine ⟨Bool.eq_false_iff.mpr fun hspace => ?_, ?_⟩
  · have hblank : b = 0x20 ∨ b = 0x09 ∨ b = 0x0A ∨ b = 0x0D := of_decide_eq_true hspace
    rcases hblank with rfl | rfl | rfl | rfl <;> cases h
  · rintro rfl
    cases h

theorem skip_cons {b : UInt8} (h : isSpace b = false) (bytes : List UInt8) :
    skip (b :: bytes) = b :: bytes := by
  rw [skip, List.dropWhile_cons_of_neg (by simp [h])]

theorem encoded_append (cs ds : List Char) : encoded (cs ++ ds) = encoded cs ++ encoded ds :=
  List.flatMap_append

theorem encoded_cons (c : Char) (cs : List Char) :
    encoded (c :: cs) = Utf8.encodeChar c ++ encoded cs := List.flatMap_cons

theorem encoded_toDigits (n : Nat) :
    ∃ b bytes, encoded (Nat.toDigits 10 n) = b :: bytes ∧ isDigit b = true := by
  cases hform : Nat.toDigits 10 n with
  | nil => exact absurd hform Nat.toDigits_ne_nil
  | cons c cs =>
    have hdigit := Decimal.isDigit_of_mem_toDigits c (hform ▸ List.mem_cons_self)
    obtain ⟨hbyte, hb, -⟩ := encodeChar_of_isDigit hdigit
    exact ⟨_, encoded cs, by rw [encoded_cons, hbyte]; rfl, hb⟩

theorem writeInteger_of_nonneg {n : Int} (h : 0 ≤ n) :
    writeInteger n = Nat.toDigits 10 n.natAbs := by
  rw [writeInteger, if_neg (Int.not_lt.mpr h), List.nil_append]

theorem encoded_write {h : Nat} {t : Ipld} (ht : t.LinkedWithin h) :
    ∃ b bytes, encoded (write t) = b :: bytes ∧ Begins b := by
  cases t with
  | null => exact ⟨0x6E, _, rfl, by decide, by decide⟩
  | integer n =>
    obtain ⟨b, bytes, hbytes, hb⟩ := encoded_toDigits n.natAbs
    rw [write, writeInteger_of_nonneg (Ipld.linkedWithin_integer.mp ht).1]
    exact ⟨b, bytes, hbytes, begins_of_isDigit hb⟩
  | text s => exact ⟨0x22, _, rfl, by decide, by decide⟩
  | link cid => exact ⟨0x7B, _, rfl, by decide, by decide⟩
  | list items => exact ⟨0x5B, _, rfl, by decide, by decide⟩
  | map entries => exact ⟨0x7B, _, rfl, by decide, by decide⟩
  | _ => cases h <;> exact ht.elim

/-! ## Scalars -/

theorem parseValue_scalar (d : Nat) {b : UInt8} (hspace : isSpace b = false) (hlist : b ≠ 0x5B)
    (hobject : b ≠ 0x7B) (bytes : List UInt8) :
    parseValue d (b :: bytes) = parseScalar (b :: bytes) := by
  cases d <;>
  · rw [parseValue, skip_cons hspace]
    split
    · rename_i heq
      cases heq
      exact absurd rfl hlist
    · rename_i heq
      cases heq
      exact absurd rfl hobject
    · rfl

theorem parseValue_null (d : Nat) (rest : List UInt8) :
    parseValue d (encoded (write .null) ++ rest) = (.null, some rest) := by
  cases d <;> rfl

theorem parseValue_text (d : Nat) (s : String) (rest : List UInt8) :
    parseValue d (encoded (writeString s) ++ rest) = (.text s, some rest) := by
  obtain ⟨bytes, hbytes, hread⟩ := string?_writeString s rest
  rw [hbytes, parseValue_scalar d (by decide) (by decide) (by decide), parseScalar, if_pos rfl,
    hread]
  rfl

theorem parseValue_integer (d : Nat) {n : Int} (h : 0 ≤ n ∧ n < 0x10000000000000000)
    {rest : List UInt8} (hrest : Ends rest) :
    parseValue d (encoded (writeInteger n) ++ rest) = (.integer n, some rest) := by
  have hsmall : n.natAbs < UInt64.size := by
    simp only [UInt64.size]
    omega
  have hread := number?_toDigits hsmall hrest
  obtain ⟨b, bytes, hbytes, hb⟩ := encoded_toDigits n.natAbs
  have hne : ∀ x : UInt8, isDigit x = false → b ≠ x := by
    rintro x hx rfl
    cases hb.symm.trans hx
  rw [writeInteger_of_nonneg h.1]
  rw [hbytes, List.cons_append] at hread ⊢
  rw [parseValue_scalar d (begins_of_isDigit hb).1 (hne _ rfl) (hne _ rfl), parseScalar,
    if_neg (hne _ rfl), if_neg (hne _ rfl), if_pos hb, hread, Int.natAbs_of_nonneg h.1]
  rfl

/-! ## Lists -/

section

variable {item : Parse}

theorem writeItems_cons_cons (t t' : Ipld) (items : List Ipld) :
    writeItems (t :: t' :: items) = write t ++ ',' :: writeItems (t' :: items) := rfl

theorem length_le_encoded_writeItems {h : Nat} {items : List Ipld}
    (hitems : ∀ t ∈ items, t.LinkedWithin h) :
    items.length ≤ (encoded (writeItems items)).length := by
  induction items with
  | nil => exact Nat.zero_le _
  | cons t items ih =>
    obtain ⟨ht, hitems⟩ := List.forall_mem_cons.mp hitems
    obtain ⟨b, bytes, hbytes, -⟩ := encoded_write ht
    have hrest := ih hitems
    cases items with
    | nil => rw [writeItems, hbytes]; simp
    | cons t' items =>
      rw [writeItems_cons_cons, encoded_append, encoded_cons, hbytes]
      simp only [List.length_append, List.length_cons] at hrest ⊢
      omega

theorem parseItems_comma {value : Json} {bytes rest : List UInt8}
    (h : item bytes = (value, some (0x2C :: rest))) (fuel : Nat) :
    parseItems item (fuel + 1) bytes =
      (value :: (parseItems item fuel rest).1, (parseItems item fuel rest).2) := by
  rw [parseItems, h]
  rfl

theorem parseItems_end {value : Json} {bytes rest : List UInt8}
    (h : item bytes = (value, some (0x5D :: rest))) (fuel : Nat) :
    parseItems item (fuel + 1) bytes = ([value], some rest) := by
  rw [parseItems, h]
  rfl

/-- Items between commas are parsed one by one. -/
theorem parseItems_writeItems {items : List Ipld} (hne : items ≠ [])
    (hitems : ∀ t ∈ items, ∀ rest, Ends rest →
      item (encoded (write t) ++ rest) = (ofTree t, some rest))
    {n : Nat} (hfuel : items.length ≤ n) (rest : List UInt8) :
    parseItems item n (encoded (writeItems items) ++ 0x5D :: rest) =
      (items.map ofTree, some rest) := by
  induction items generalizing n with
  | nil => exact absurd rfl hne
  | cons t items ih =>
    obtain ⟨ht, hitems⟩ := List.forall_mem_cons.mp hitems
    -- one of the fuel for each item; what stands behind an item is a comma or the bracket
    obtain ⟨k, rfl⟩ := Nat.exists_eq_add_of_le'
      (Nat.le_trans (Nat.succ_le_succ (Nat.zero_le _)) hfuel)
    cases items with
    | nil =>
      exact parseItems_end (ht _ (ends_cons (by decide))) k
    | cons t' items =>
      have hform : encoded (writeItems (t :: t' :: items)) ++ 0x5D :: rest =
          encoded (write t) ++ 0x2C :: (encoded (writeItems (t' :: items)) ++ 0x5D :: rest) := by
        rw [writeItems_cons_cons, encoded_append, encoded_cons, List.append_assoc]
        rfl
      have hmore := ih (List.cons_ne_nil _ _) hitems (Nat.le_of_succ_le_succ hfuel)
      rw [hform, parseItems_comma (ht _ (ends_cons (by decide))), hmore]
      rfl

theorem parseList_writeItems {h : Nat} {items : List Ipld} (hlinked : ∀ t ∈ items, t.LinkedWithin h)
    (hitems : ∀ t ∈ items, ∀ rest, Ends rest →
      item (encoded (write t) ++ rest) = (ofTree t, some rest)) (rest : List UInt8) :
    parseList item (encoded (writeItems items) ++ 0x5D :: rest) =
      (.list (items.map ofTree) true, some rest) := by
  cases items with
  | nil => rfl
  | cons t items =>
    have hlength := length_le_encoded_writeItems hlinked
    -- every item has a byte, so the length of the text is fuel enough
    have hread := parseItems_writeItems (List.cons_ne_nil _ _) hitems
      (n := (encoded (writeItems (t :: items)) ++ 0x5D :: rest).length + 1)
      (by rw [List.length_append]; omega) rest
    obtain ⟨b, bytes, hbytes, hspace, hb⟩ : ∃ b bytes,
        encoded (writeItems (t :: items)) = b :: bytes ∧ Begins b := by
      obtain ⟨b, bytes, hbytes, hb⟩ := encoded_write (hlinked t List.mem_cons_self)
      cases items with
      | nil => exact ⟨b, bytes, hbytes, hb⟩
      | cons t' items =>
        rw [writeItems_cons_cons, encoded_append, hbytes]
        exact ⟨b, _, rfl, hb⟩
    -- the first byte begins a value and is not the bracket of the empty list
    rw [hbytes, List.cons_append] at hread ⊢
    rw [parseList, skip_cons hspace]
    split
    · rename_i heq
      cases heq
      exact absurd rfl hb
    · rw [hread]
      rfl

/-! ## Objects -/

/-- The characters of an entry of a map. -/
def writeEntry (e : String × Ipld) : List Char := writeString e.1 ++ ':' :: write e.2

theorem writeEntries_singleton (e : String × Ipld) : writeEntries [e] = writeEntry e := rfl

theorem writeEntries_cons_cons (e e' : String × Ipld) (entries : List (String × Ipld)) :
    writeEntries (e :: e' :: entries) = writeEntry e ++ ',' :: writeEntries (e' :: entries) := by
  rw [writeEntries, writeEntry, List.append_assoc, List.cons_append]
  simp

theorem encoded_writeEntry (e : String × Ipld) (rest : List UInt8) :
    ∃ bytes, encoded (writeEntry e) ++ rest = 0x22 :: bytes ∧
      string? bytes = some (e.1, 0x3A :: (encoded (write e.2) ++ rest)) := by
  obtain ⟨bytes, hbytes, hread⟩ := string?_writeString e.1 (0x3A :: (encoded (write e.2) ++ rest))
  refine ⟨bytes, ?_, hread⟩
  rw [← hbytes, writeEntry, encoded_append, encoded_cons, List.append_assoc]
  rfl

theorem length_le_encoded_writeEntries (entries : List (String × Ipld)) :
    entries.length ≤ (encoded (writeEntries entries)).length := by
  induction entries with
  | nil => exact Nat.zero_le _
  | cons e entries ih =>
    obtain ⟨bytes, hbytes, -⟩ := encoded_writeEntry e []
    rw [List.append_nil] at hbytes
    cases entries with
    | nil => rw [writeEntries_singleton, hbytes]; simp
    | cons e' entries =>
      rw [writeEntries_cons_cons, encoded_append, encoded_cons, hbytes]
      simp only [List.length_append, List.length_cons] at ih ⊢
      omega

theorem parseEntries_comma {key : String} {value : Json} {bytes after rest : List UInt8}
    (hkey : string? bytes = some (key, 0x3A :: after))
    (hvalue : item after = (value, some (0x2C :: rest))) (fuel : Nat) :
    parseEntries item (fuel + 1) (0x22 :: bytes) =
      ((key, value) :: (parseEntries item fuel rest).1, (parseEntries item fuel rest).2) := by
  have hentry : parseEntryValue item (0x3A :: after) = item after := rfl
  rw [parseEntries, skip_cons (by decide)]
  simp only [hkey, hentry, hvalue]
  rfl

theorem parseEntries_end {key : String} {value : Json} {bytes after rest : List UInt8}
    (hkey : string? bytes = some (key, 0x3A :: after))
    (hvalue : item after = (value, some (0x7D :: rest))) (fuel : Nat) :
    parseEntries item (fuel + 1) (0x22 :: bytes) = ([(key, value)], some rest) := by
  have hentry : parseEntryValue item (0x3A :: after) = item after := rfl
  rw [parseEntries, skip_cons (by decide)]
  simp only [hkey, hentry, hvalue]
  rfl

/-- Entries between commas are parsed one by one. -/
theorem parseEntries_writeEntries {entries : List (String × Ipld)} (hne : entries ≠ [])
    (hentries : ∀ e ∈ entries, ∀ rest, Ends rest →
      item (encoded (write e.2) ++ rest) = (ofTree e.2, some rest))
    {n : Nat} (hfuel : entries.length ≤ n) (rest : List UInt8) :
    parseEntries item n (encoded (writeEntries entries) ++ 0x7D :: rest) =
      (entries.map fun e => (e.1, ofTree e.2), some rest) := by
  induction entries generalizing n with
  | nil => exact absurd rfl hne
  | cons e entries ih =>
    obtain ⟨he, hentries⟩ := List.forall_mem_cons.mp hentries
    obtain ⟨k, rfl⟩ := Nat.exists_eq_add_of_le'
      (Nat.le_trans (Nat.succ_le_succ (Nat.zero_le _)) hfuel)
    cases entries with
    | nil =>
      -- the quote of the key is looked at before the key is read
      obtain ⟨bytes, hbytes, hkey⟩ := encoded_writeEntry e (0x7D :: rest)
      rw [writeEntries_singleton, hbytes]
      exact parseEntries_end hkey (he _ (ends_cons (by decide))) k
    | cons e' entries =>
      obtain ⟨bytes, hbytes, hkey⟩ := encoded_writeEntry e
        (0x2C :: (encoded (writeEntries (e' :: entries)) ++ 0x7D :: rest))
      have hform : encoded (writeEntries (e :: e' :: entries)) ++ 0x7D :: rest = 0x22 :: bytes := by
        rw [← hbytes, writeEntries_cons_cons, encoded_append, encoded_cons, List.append_assoc]
        rfl
      have hmore := ih (List.cons_ne_nil _ _) hentries (Nat.le_of_succ_le_succ hfuel)
      rw [hform, parseEntries_comma hkey (he _ (ends_cons (by decide))), hmore]
      rfl

theorem parseObject_writeEntries {entries : List (String × Ipld)}
    (hentries : ∀ e ∈ entries, ∀ rest, Ends rest →
      item (encoded (write e.2) ++ rest) = (ofTree e.2, some rest)) (rest : List UInt8) :
    parseObject item (encoded (writeEntries entries) ++ 0x7D :: rest) =
      (.object (entries.map fun e => (e.1, ofTree e.2)) true, some rest) := by
  cases entries with
  | nil => rfl
  | cons e entries =>
    have hlength := length_le_encoded_writeEntries (e :: entries)
    have hread := parseEntries_writeEntries (List.cons_ne_nil _ _) hentries
      (n := (encoded (writeEntries (e :: entries)) ++ 0x7D :: rest).length + 1)
      (by rw [List.length_append]; omega) rest
    obtain ⟨bytes, hbytes⟩ : ∃ bytes,
        encoded (writeEntries (e :: entries)) ++ 0x7D :: rest = 0x22 :: bytes := by
      cases entries with
      | nil =>
        obtain ⟨bytes, hbytes, -⟩ := encoded_writeEntry e (0x7D :: rest)
        exact ⟨bytes, hbytes⟩
      | cons e' entries =>
        rw [writeEntries_cons_cons, encoded_append, List.append_assoc]
        obtain ⟨bytes, hbytes, -⟩ := encoded_writeEntry e _
        exact ⟨bytes, hbytes⟩
    rw [hbytes] at hread ⊢
    rw [parseObject, skip_cons (by decide)]
    split
    · rename_i heq
      cases heq
    · rw [hread]
      rfl

end

/-! ## Trees -/

theorem parseValue_list {d : Nat} {value : Json} {bytes rest : List UInt8}
    (h : parseList (parseValue d) bytes = (value, some rest)) :
    parseValue (d + 1) (0x5B :: bytes) = (value, some rest) := h

theorem parseValue_object {d : Nat} {value : Json} {bytes rest : List UInt8}
    (h : parseObject (parseValue d) bytes = (value, some rest)) :
    parseValue (d + 1) (0x7B :: bytes) = (value, some rest) := h

theorem encoded_write_list (items : List Ipld) (rest : List UInt8) :
    encoded (write (.list items)) ++ rest =
      0x5B :: (encoded (writeItems items) ++ 0x5D :: rest) := by
  rw [write, List.cons_append, encoded_cons, encoded_append, List.append_assoc, List.append_assoc]
  rfl

theorem encoded_write_map (entries : List (String × Ipld)) (rest : List UInt8) :
    encoded (write (.map entries)) ++ rest =
      0x7B :: (encoded (writeEntries entries) ++ 0x7D :: rest) := by
  rw [write, List.cons_append, encoded_cons, encoded_append, List.append_assoc, List.append_assoc]
  rfl

/-- A link is written as the map that it is in JSON. -/
theorem write_link (cid : Cid) : write (.link cid) = write (.map [("/", .text cid.toText)]) := by
  rw [write, write, singleton, writeEntries]
  rfl

/-- The text of a tree is parsed as the value of the tree, whatever stands behind it. -/
theorem parseValue_write {h : Nat} {t : Ipld} (ht : t.LinkedWithin h) {d : Nat} (hd : h < d)
    {rest : List UInt8} (hrest : Ends rest) :
    parseValue d (encoded (write t) ++ rest) = (ofTree t, some rest) := by
  obtain ⟨k, rfl⟩ := Nat.exists_eq_add_of_le' (Nat.lt_of_le_of_lt (Nat.zero_le h) hd)
  -- lists and maps take one from the depth, and a link takes one that is not counted in `h`
  cases t with
  | null => exact parseValue_null _ rest
  | integer n =>
    rw [write]
    exact parseValue_integer _ (Ipld.linkedWithin_integer.mp ht) hrest
  | text s => exact parseValue_text _ s rest
  | link cid =>
    rw [write_link, encoded_write_map]
    -- a link is the object with the one reserved key
    refine parseValue_object (parseObject_writeEntries (fun e he rest _ => ?_) rest)
    cases List.mem_singleton.mp he
    exact parseValue_text k cid.toText rest
  | list items =>
    cases h with
    | zero => exact ht.elim
    | succ h =>
      have hitems : ∀ t ∈ items, ∀ rest, Ends rest →
          parseValue k (encoded (write t) ++ rest) = (ofTree t, some rest) :=
        fun t hmem rest hrest => parseValue_write (ht t hmem) (Nat.lt_of_succ_lt_succ hd) hrest
      rw [encoded_write_list, ofTree, ofItems_eq]
      exact parseValue_list (parseList_writeItems ht hitems rest)
  | map entries =>
    cases h with
    | zero => exact ht.elim
    | succ h =>
      have hentries : ∀ e ∈ entries, ∀ rest, Ends rest →
          parseValue k (encoded (write e.2) ++ rest) = (ofTree e.2, some rest) :=
        fun e hmem rest hrest => parseValue_write (ht e hmem) (Nat.lt_of_succ_lt_succ hd) hrest
      rw [encoded_write_map, ofTree, ofEntries_eq]
      exact parseValue_object (parseObject_writeEntries hentries rest)
  | _ => cases h <;> exact ht.elim

/-- The text of a tree that is not nested too deep is parsed as the value of the tree. -/
theorem parse_write {h : Nat} {t : Ipld} (ht : t.LinkedWithin h) (hdepth : h < maxDepth) :
    parse (encoded (write t)) = (ofTree t, some []) := by
  have hparse := parseValue_write ht hdepth ends_nil
  rwa [List.append_nil] at hparse

end Json

end MarketDag
