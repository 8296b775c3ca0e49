import MarketDag.Proofs.Store.ImportReply

/-!
# The format of replies to imports

What a reply has to look like is said without the reader: which line counts (`FirstLine`), which of
the members of an object (`Last`), and how a root is named (`IsReply`).  The reader takes exactly
the replies of this format (`parse_exact`).  It is wider than a line with an object: every record
may be a list of its members, so that a root is read where there is no object
(`not_only_objects`).
-/

namespace MarketDag.ImportReply

/-! ## Lines -/

/-- Is a line the first one of a text that is not blank, without the white space around it? -/
def FirstLine (text line : List Char) : Prop :=
  line ≠ [] ∧ ∃ before whole after, text.splitOn '\n' = before ++ whole :: after ∧
    (∀ l ∈ before, Blank l) ∧ Trims whole line

theorem firstLine?_eq_some {text : String} {line : List Char} :
    firstLine? text = some line ↔ FirstLine text.toList line := by
  rw [firstLine?, List.find?_eq_some_iff_append, decide_eq_true_iff]
  refine and_congr_right fun _ => ?_
  constructor
  · rintro ⟨lines, rest, hlines, hbefore⟩
    obtain ⟨before, others, hsplit, rfl, hothers⟩ := List.map_eq_append_iff.mp hlines
    obtain ⟨whole, after, rfl, hwhole, -⟩ := List.map_eq_cons_iff.mp hothers
    refine ⟨before, whole, after, hsplit, fun l hl => trimBoth_eq_nil.mp ?_,
      trimBoth_eq_iff.mp hwhole⟩
    simpa using hbefore _ (List.mem_map_of_mem hl)
  · rintro ⟨before, whole, after, hsplit, hbefore, hwhole⟩
    refine ⟨before.map trimBoth, after.map trimBoth, ?_, fun l hl => ?_⟩
    · rw [hsplit, List.map_append, List.map_cons, trimBoth_eq_iff.mpr hwhole]
    · obtain ⟨l', hl', rfl⟩ := List.mem_map.mp hl
      simpa using trimBoth_eq_nil.mpr (hbefore l' hl')

/-! ## Records -/

/-- Is this the last value under a key? -/
def Last (key : String) (entries : List (String × Json)) (value : Json) : Prop :=
  ∃ before after, entries = before ++ (key, value) :: after ∧ key ∉ after.map Prod.fst

theorem forall_bne_iff {key : String} {entries : List (String × Json)} :
    (∀ e ∈ entries.reverse, (key != e.1) = true) ↔ key ∉ entries.map Prod.fst := by
  constructor
  · intro h hmem
    obtain ⟨e, he, rfl⟩ := List.mem_map.mp hmem
    exact bne_iff_ne.mp (h e (List.mem_reverse.mpr he)) rfl
  · intro h e he
    exact bne_iff_ne.mpr fun heq => h (heq ▸ List.mem_map_of_mem (List.mem_reverse.mp he))

theorem lookup_reverse_eq_some {key : String} {entries : List (String × Json)} {value : Json} :
    entries.reverse.lookup key = some value ↔ Last key entries value := by
  rw [List.lookup_eq_some_iff]
  constructor
  · rintro ⟨after, before, hentries, hafter⟩
    refine ⟨before.reverse, after.reverse, ?_, forall_bne_iff.mp ?_⟩
    · rw [← List.reverse_reverse entries, hentries, List.reverse_append, List.reverse_cons,
        List.append_assoc]
      rfl
    · rwa [List.reverse_reverse]
  · rintro ⟨before, after, rfl, hafter⟩
    refine ⟨after.reverse, before.reverse, ?_, forall_bne_iff.mpr hafter⟩
    rw [List.reverse_append, List.reverse_cons, List.append_assoc]
    rfl

theorem lookup_reverse_eq_none {key : String} {entries : List (String × Json)} :
    entries.reverse.lookup key = none ↔ key ∉ entries.map Prod.fst := by
  rw [List.lookup_eq_none_iff, forall_bne_iff]

/-- Is a value the link of a text? With `lists`, a list of the text counts as well. -/
inductive IsLink (lists : Bool) : Json → String → Prop
  | object {entries closed text} (h : Last "/" entries (.text text)) :
      IsLink lists (.object entries closed) text
  | list {text closed} (h : lists = true) : IsLink lists (.list [.text text] closed) text

/-- Is this the message about a pin among the entries of an object? It may be missing. -/
def IsPin (entries : List (String × Json)) (pin : String) : Prop :=
  ("PinErrorMsg" ∉ entries.map Prod.fst ∧ pin = "") ∨ Last "PinErrorMsg" entries (.text pin)

/-- Is a value a root with the text of its link and the message about its pin? With `lists`, a list
of the link and the message, which may be missing, counts as well. -/
inductive IsRoot (lists : Bool) : Json → String → String → Prop
  | object {entries closed link text pin} (hlink : Last "Cid" entries link)
      (htext : IsLink lists link text) (hpin : IsPin entries pin) :
      IsRoot lists (.object entries closed) text pin
  | short {link closed text} (h : lists = true) (htext : IsLink lists link text) :
      IsRoot lists (.list [link] closed) text ""
  | list {link closed text pin} (h : lists = true) (htext : IsLink lists link text) :
      IsRoot lists (.list [link, .text pin] closed) text pin

/-- Is a value a reply with the text of a root's link and the message about its pin? With `lists`, a
list of the root counts as well. -/
inductive IsReply (lists : Bool) : Json → String → String → Prop
  | object {entries closed root text pin} (hroot : Last "Root" entries root)
      (htext : IsRoot lists root text pin) : IsReply lists (.object entries closed) text pin
  | list {root closed text pin} (h : lists = true) (htext : IsRoot lists root text pin) :
      IsReply lists (.list [root] closed) text pin

/-! ## Reading -/

theorem checkCount_eq_ok {keys : List String} {members : Members} :
    checkCount keys members = .ok () ↔ (members.listed = true → members.count ≤ keys.length) := by
  unfold checkCount
  split <;> simp_all

theorem asText_eq_ok {expected : Expected} {value : Json} {text : String} :
    Json.asText expected value = .ok text ↔ value = .text text := by
  cases value <;> simp [Json.asText]

/-- A member that has to be there is read, and then the members are counted. -/
theorem required_eq_ok {α : Type} (member? : Option Json) {fault : DecodeFault}
    {read : Json → Except DecodeFault α} {count : Except DecodeFault Unit} {a : α} :
    (match member? with
      | none => throw fault
      | some member => do
        let a ← read member
        count
        return a) = .ok a ↔
      ∃ member, member? = some member ∧ read member = .ok a ∧ count = .ok () := by
  cases member? with
  | none => simp [throw, throwThe, MonadExceptOf.throw]
  | some member =>
    simp only [bind_eq_ok, pure_eq_ok, Option.some.injEq, exists_eq_left']
    constructor
    · rintro ⟨a', hread, _, hcount, rfl⟩
      exact ⟨hread, hcount⟩
    · rintro ⟨hread, hcount⟩
      exact ⟨a, hread, (), hcount, rfl⟩

theorem eq_singleton {items : List Json} {item : Json} (hfirst : items[0]? = some item)
    (hcount : items.length ≤ 1) : items = [item] := by
  match items, hfirst, hcount with
  | [_], rfl, _ => rfl

theorem linkText_eq_ok {value : Json} {text : String} :
    linkText value = .ok text ↔ IsLink true value text := by
  cases value with
  | object entries closed =>
    refine Iff.trans (required_eq_ok (entries.reverse.lookup "/")) ?_
    simp only [asText_eq_ok, checkCount_eq_ok, lookup_reverse_eq_some]
    constructor
    · rintro ⟨_, hlast, rfl, -⟩
      exact .object hlast
    · rintro (h | h)
      exact ⟨_, h, rfl, nofun⟩
  | list items closed =>
    refine Iff.trans (required_eq_ok items[0]?) ?_
    simp only [asText_eq_ok, checkCount_eq_ok]
    constructor
    · rintro ⟨_, hfirst, rfl, hcount⟩
      -- a list is read by position, and has to have as many items as there are fields
      rw [eq_singleton hfirst (hcount trivial)]
      exact .list rfl
    · rintro (h | h)
      exact ⟨_, rfl, rfl, fun _ => le_rfl⟩
  | _ =>
    constructor <;>
    · intro h
      cases h

/-- A root is read from its members, the second of which may be missing. -/
theorem rootOf_of_members {value : Json} {members : Members} {text pin : String}
    (h : membersOf "ImportedRoot" ["Cid", "PinErrorMsg"] value = .ok members) :
    rootOf value = .ok (text, pin) ↔
      ∃ link, members.get? 0 = some link ∧ IsLink true link text ∧
        ((members.get? 1 = none ∧ pin = "") ∨ members.get? 1 = some (.text pin)) ∧
        (members.listed = true → members.count ≤ 2) := by
  have hcount : checkCount ["Cid", "PinErrorMsg"] members = .ok () ↔
      (members.listed = true → members.count ≤ 2) := checkCount_eq_ok
  rw [rootOf, bind_of_ok h, ← hcount]
  cases members.get? 0 with
  | none =>
    -- no link is read, so that both ways through the rest end in an error
    simp only [Option.mapM_none, pure_bind, Option.isNone_none, and_true, reduceCtorEq,
      false_and, exists_false, iff_false]
    split
    · exact nofun
    · exact bind_throw_ne_ok
  | some link =>
    cases members.get? 1 with
    | none =>
      simp [bind_eq_ok, linkText_eq_ok, map_eq_ok, Unique.exists_iff, and_comm]
    | some message =>
      simp [bind_eq_ok, linkText_eq_ok, asText_eq_ok, map_eq_ok, Unique.exists_iff]

/-- A list of a root's members holds its link and, after it, at most the message about its pin. -/
theorem eq_of_listed {items : List Json} {link : Json} {pin : String}
    (hfirst : items[0]? = some link)
    (hpin : (items[1]? = none ∧ pin = "") ∨ items[1]? = some (.text pin))
    (hcount : items.length ≤ 2) :
    (items = [link] ∧ pin = "") ∨ items = [link, .text pin] := by
  match items, hfirst, hcount, hpin with
  | [_], rfl, _, .inl ⟨_, rfl⟩ => exact .inl ⟨rfl, rfl⟩
  | [_, _], rfl, _, .inr rfl => exact .inr rfl

theorem rootOf_eq_ok {value : Json} {text pin : String} :
    rootOf value = .ok (text, pin) ↔ IsRoot true value text pin := by
  cases value with
  | object entries closed =>
    rw [rootOf_of_members rfl]
    change (∃ link, entries.reverse.lookup "Cid" = some link ∧ _ ∧
      ((entries.reverse.lookup "PinErrorMsg" = none ∧ _) ∨
        entries.reverse.lookup "PinErrorMsg" = some _) ∧ _) ↔ _
    simp only [lookup_reverse_eq_some, lookup_reverse_eq_none]
    constructor
    · rintro ⟨link, hlink, htext, hpin, -⟩
      exact .object hlink htext hpin
    · rintro (⟨hlink, htext, hpin⟩ | h | h)
      exact ⟨_, hlink, htext, hpin, nofun⟩
  | list items closed =>
    rw [rootOf_of_members rfl]
    constructor
    · rintro ⟨link, hfirst, htext, hpin, hcount⟩
      -- a list may leave out the message, which has a default
      obtain ⟨rfl, rfl⟩ | rfl := eq_of_listed hfirst hpin (hcount rfl)
      · exact .short rfl htext
      · exact .list rfl htext
    · rintro (h | ⟨-, htext⟩ | ⟨-, htext⟩)
      · exact ⟨_, rfl, htext, .inl ⟨rfl, rfl⟩, fun _ => Nat.le_succ 1⟩
      · exact ⟨_, rfl, htext, .inr rfl, fun _ => le_rfl⟩
  | _ =>
    constructor <;>
    · intro h
      cases h

theorem replyOf_eq_ok {value : Json} {text pin : String} :
    replyOf value = .ok (text, pin) ↔ IsReply true value text pin := by
  cases value with
  | object entries closed =>
    refine Iff.trans (required_eq_ok (entries.reverse.lookup "Root")) ?_
    simp only [rootOf_eq_ok, checkCount_eq_ok, lookup_reverse_eq_some]
    constructor
    · rintro ⟨root, hlast, hroot, -⟩
      exact .object hlast hroot
    · rintro (⟨hlast, hroot⟩ | h)
      exact ⟨_, hlast, hroot, nofun⟩
  | list items closed =>
    refine Iff.trans (required_eq_ok items[0]?) ?_
    simp only [rootOf_eq_ok, checkCount_eq_ok]
    constructor
    · rintro ⟨_, hfirst, hroot, hcount⟩
      rw [eq_singleton hfirst (hcount trivial)]
      exact .list rfl hroot
    · rintro (h | ⟨-, hroot⟩)
      exact ⟨_, rfl, hroot, fun _ => le_rfl⟩
  | _ =>
    constructor <;>
    · intro h
      cases h

/-! ## Replies -/

/-- Does a body begin with a line of this value, but for lines that are blank? -/
def FirstValue (body : List UInt8) (value : Json) : Prop :=
  ∃ text line, Utf8.encode text = body ∧ FirstLine text.toList line ∧ parseLine line = .ok value

/-- Does a reply's body name a root by a text, with a message about its pin? With `lists`, records
that are lists of their members count as well. -/
def Tells (lists : Bool) (body : List UInt8) (root pin : String) : Prop :=
  ∃ value, FirstValue body value ∧ IsReply lists value root pin

section

variable {body : List UInt8} {value : Json} {root pin : String}

theorem firstValue_iff : FirstValue body value ↔
    ∃ text line, Utf8.decode? body = some text ∧ firstLine? text = some line ∧
      parseLine line = .ok value := by
  simp only [FirstValue, Utf8.decode?_eq_some, firstLine?_eq_some]

theorem FirstValue.unique {value' : Json} (h : FirstValue body value)
    (h' : FirstValue body value') : value = value' := by
  obtain ⟨text, line, htext, hline, hvalue⟩ := firstValue_iff.mp h
  obtain ⟨_, _, htext', hline', hvalue'⟩ := firstValue_iff.mp h'
  cases htext.symm.trans htext'
  cases hline.symm.trans hline'
  exact Except.ok.inj (hvalue.symm.trans hvalue')

theorem names_iff : Names body root ↔ Tells true body root "" := by
  simp only [Names, Tells, firstValue_iff, replyOf_eq_ok]
  constructor
  · rintro ⟨text, line, value, htext, hline, hvalue, hreply⟩
    exact ⟨value, ⟨text, line, htext, hline, hvalue⟩, hreply⟩
  · rintro ⟨value, ⟨text, line, htext, hline, hvalue⟩, hreply⟩
    exact ⟨text, line, value, htext, hline, hvalue, hreply⟩

theorem Tells.unique {root' pin' : String} (h : Tells true body root pin)
    (h' : Tells true body root' pin') : root = root' ∧ pin = pin' := by
  obtain ⟨value, hvalue, hreply⟩ := h
  obtain ⟨value', hvalue', hreply'⟩ := h'
  cases hvalue.unique hvalue'
  exact Prod.mk.inj
    (Except.ok.inj ((replyOf_eq_ok.mpr hreply).symm.trans (replyOf_eq_ok.mpr hreply')))

variable (status : Status) (path : String)

/-- A body tells what its first value tells. -/
theorem parse_of_firstValue (h : FirstValue body value) :
    parse body status path = (do
      let (root, pin) ← (replyOf value).mapError .badResponseJson
      if ¬ pin.isEmpty then
        throw (.refused status .post path s!"failed to pin root: {pin}")
      match Cid.ofText root with
      | .ok cid => return cid
      | .error fault => throw (.unexpectedResponse (.badRoot root fault))) := by
  obtain ⟨text, line, htext, hline, hvalue⟩ := firstValue_iff.mp h
  rw [parse, htext]
  dsimp only
  rw [hline]
  exact bind_of_ok (mapError_eq_ok.mpr hvalue)

/-- A body without a first value does not have the expected form. -/
theorem parse_of_not_firstValue (h : ∀ value, ¬ FirstValue body value) :
    ∃ e, parse body status path = .error e ∧ e.kind = .transportFormat := by
  rw [parse]
  cases htext : Utf8.decode? body with
  | none => exact ⟨_, rfl, rfl⟩
  | some text =>
    dsimp only
    cases hline : firstLine? text with
    | none => exact ⟨_, rfl, rfl⟩
    | some line =>
      dsimp only
      cases hvalue : parseLine line with
      | error fault => exact ⟨_, rfl, rfl⟩
      | ok value => exact (h value (firstValue_iff.mpr ⟨text, line, htext, hline, hvalue⟩)).elim

/-- A body that names a root is refused if there is a message about its pin, else its text is read
as an identifier. -/
theorem parse_of_tells (h : Tells true body root pin) :
    parse body status path = (do
      if ¬ pin.isEmpty then
        throw (.refused status .post path s!"failed to pin root: {pin}")
      match Cid.ofText root with
      | .ok cid => return cid
      | .error fault => throw (.unexpectedResponse (.badRoot root fault))) := by
  obtain ⟨value, hvalue, hreply⟩ := h
  rw [parse_of_firstValue status path hvalue]
  exact bind_of_ok (mapError_eq_ok.mpr (replyOf_eq_ok.mpr hreply))

/-- A body that names no root does not have the expected form. -/
theorem parse_of_not_tells (h : ∀ root pin, ¬ Tells true body root pin) :
    ∃ e, parse body status path = .error e ∧ e.kind = .transportFormat := by
  by_cases hfirst : ∃ value, FirstValue body value
  · obtain ⟨value, hvalue⟩ := hfirst
    rw [parse_of_firstValue status path hvalue]
    cases hreply : replyOf value with
    | error fault => exact ⟨.badResponseJson fault, rfl, rfl⟩
    | ok parts => exact (h _ _ ⟨value, hvalue, replyOf_eq_ok.mp hreply⟩).elim
  · exact parse_of_not_firstValue status path fun value hvalue => hfirst ⟨value, hvalue⟩

end

/-- Every way to name a root without lists is one with them. -/
theorem IsReply.of_objects {value : Json} {root pin : String} (h : IsReply false value root pin) :
    IsReply true value root pin := by
  obtain ⟨hroot, ⟨hlink, htext, hpin⟩ | ⟨h, -⟩ | ⟨h, -⟩⟩ | ⟨h, -⟩ := h
  · obtain ⟨hlast⟩ | h := htext
    · exact .object hroot (.object hlink (.object hlast) hpin)
    · cases h
  · cases h
  · cases h
  · cases h

/-! ## Replies that are written -/

/-- A tree's one line is the first value of its bytes. -/
theorem firstValue_write {h : Nat} {t : Ipld} {a b : Char} {inner : List Char}
    (hwrite : Json.write t = a :: inner ++ [b]) (ha : isBlank a = false) (hb : isBlank b = false)
    (hline : '\n' ∉ Json.write t) (ht : t.LinkedWithin h) (hdepth : h < Json.maxDepth)
    (hwhole : (Json.ofTree t).isWhole = true) :
    FirstValue (Json.encoded (Json.write t)) (Json.ofTree t) := by
  refine ⟨String.ofList (Json.write t), Json.write t, Json.encode_ofList _, ?_,
    parseLine_write ht hdepth hwhole⟩
  refine firstLine?_eq_some.mp ?_
  rw [hwrite] at hline ⊢
  exact firstLine?_ofList ha hb hline

/-- The tree of a reply by objects. -/
def objectTree (root pin : String) : Ipld :=
  .map [("Root", .map [("Cid", .map [("/", .text root)]), ("PinErrorMsg", .text pin)])]

/-- The tree of a reply by lists. -/
def listTree (root : String) : Ipld := .list [.list [.list [.text root]]]

/-- Any text can be told by objects, with any message about its pin. -/
theorem tells_objectTree (root pin : String) :
    Tells false (Json.encoded (Json.write (objectTree root pin))) root pin := by
  refine ⟨_, firstValue_write (h := 4) rfl (by decide) (by decide) ?_ ?_ (by decide) rfl, ?_⟩
  · simp [objectTree, Json.write, Json.writeEntries, newline_not_mem_writeString]
  · simp [objectTree, Ipld.LinkedWithin]
  · have hlink : IsLink false (.object [("/", .text root)] true) root :=
      .object ⟨[], [], rfl, List.not_mem_nil⟩
    have hcid {link message : Json} :
        Last "Cid" [("Cid", link), ("PinErrorMsg", message)] link := ⟨[], _, rfl, by simp⟩
    have hpin {link message : Json} :
        Last "PinErrorMsg" [("Cid", link), ("PinErrorMsg", message)] message :=
      ⟨[_], [], rfl, List.not_mem_nil⟩
    exact .object ⟨[], [], rfl, List.not_mem_nil⟩ (.object hcid hlink (.inr hpin))

/-- Any text can be told by lists alone. -/
theorem tells_listTree (root : String) :
    Tells true (Json.encoded (Json.write (listTree root))) root "" ∧
      ∀ root' pin, ¬ Tells false (Json.encoded (Json.write (listTree root))) root' pin := by
  have hfirst : FirstValue (Json.encoded (Json.write (listTree root)))
      (Json.ofTree (listTree root)) := by
    refine firstValue_write (h := 4) rfl (by decide) (by decide) ?_ ?_ (by decide) rfl
    · simp [listTree, Json.write, Json.writeItems, newline_not_mem_writeString]
    · simp [listTree, Ipld.LinkedWithin]
  refine ⟨⟨_, hfirst, .list rfl (.short rfl (.list rfl))⟩, ?_⟩
  rintro root' pin ⟨value, hvalue, hreply⟩
  cases hvalue.unique hfirst
  cases hreply with
  | list h => cases h

/-! ## The format -/

/-- The text of an identifier. -/
def sampleText : String := "bafyreibnoelefnzgwbcacyt4vh52ymxvzbjq7mmqhtcnwarfq4lzegsiqe"

theorem exists_ofText_sampleText : ∃ cid, Cid.ofText sampleText = .ok cid := by
  have hread : (Cid.ofText sampleText).toOption.isSome = true := by decide +kernel
  cases h : Cid.ofText sampleText with
  | ok cid => exact ⟨cid, rfl⟩
  | error fault =>
    rw [h] at hread
    cases hread

/-- A root is read from a body exactly if the body's first line that is not blank names it, by
objects or lists, without a message about its pin, and its text is one of an identifier.  If there
is such a message, the body is refused with it, and no other body has the expected form. -/
theorem parse_exact (body : List UInt8) (status : Status) (path : String) :
    (∀ cid, parse body status path = .ok cid ↔
      ∃ root, Tells true body root "" ∧ Cid.ofText root = .ok cid) ∧
    (∀ root pin, Tells true body root pin → pin ≠ "" →
      parse body status path =
        .error (.refused status .post path s!"failed to pin root: {pin}")) ∧
    ((∀ root pin, Tells true body root pin → pin = "" ∧ ∀ cid, Cid.ofText root ≠ .ok cid) →
      ∃ e, parse body status path = .error e ∧ e.kind = .transportFormat) ∧
    ∀ root pin, Tells false body root pin → Tells true body root pin := by
  refine ⟨fun cid => ?_, fun root pin htells hpin => ?_, fun hother => ?_, ?_⟩
  · simp only [parse_eq_ok, names_iff]
  · rw [parse_of_tells status path htells, if_pos (by simpa using hpin)]
    rfl
  · -- either no line is a reply, or its root is no identifier
    by_cases htells : ∃ root pin, Tells true body root pin
    · obtain ⟨root, pin, htells⟩ := htells
      obtain ⟨rfl, hroot⟩ := hother root pin htells
      rw [parse_of_tells status path htells, if_neg (by decide)]
      cases hcid : Cid.ofText root with
      | ok cid => exact (hroot cid hcid).elim
      | error fault => exact ⟨_, rfl, rfl⟩
    · exact parse_of_not_tells status path fun root pin h => htells ⟨root, pin, h⟩
  · rintro root pin ⟨value, hvalue, hreply⟩
    exact ⟨value, hvalue, hreply.of_objects⟩

theorem parse_exact_sample :
    let body (root pin : String) := Json.encoded (Json.write (objectTree root pin))
    (∃ cid, Cid.ofText sampleText = .ok cid ∧
      parse (body sampleText "") .ok "/import" = .ok cid) ∧
    parse (body sampleText "pin failed") .ok "/import" =
      .error (.refused .ok .post "/import" ("failed to pin root: " ++ "pin failed")) ∧
    ∃ e, parse (body "no text" "") .ok "/import" = .error e ∧ e.kind = .transportFormat := by
  intro body
  have htells (root pin : String) : Tells true (body root pin) root pin :=
    (parse_exact (body root pin) .ok "/import").2.2.2 root pin (tells_objectTree root pin)
  refine ⟨?_, ?_, ?_⟩
  · obtain ⟨cid, hcid⟩ := exists_ofText_sampleText
    have hparse := (parse_exact (body sampleText "") .ok "/import").1 cid
    exact ⟨cid, hcid, hparse.mpr ⟨sampleText, htells sampleText "", hcid⟩⟩
  · exact (parse_exact (body sampleText "pin failed") .ok "/import").2.1 sampleText "pin failed"
      (htells sampleText "pin failed") (by decide)
  · refine (parse_exact (body "no text" "") .ok "/import").2.2.1 fun root pin h => ?_
    obtain ⟨rfl, rfl⟩ := h.unique (htells "no text" "")
    have hnone : (Cid.ofText "no text").toOption = none := by decide +kernel
    refine ⟨rfl, fun cid hcid => ?_⟩
    rw [hcid] at hnone
    cases hnone

/-- Roots are not read from objects alone: a list of a list of a list names one as well. -/
theorem not_only_objects : ¬ ∀ (body : List UInt8) (status : Status) (path : String) (cid : Cid),
    parse body status path = .ok cid ↔
      ∃ root, Tells false body root "" ∧ Cid.ofText root = .ok cid := by
  intro h
  obtain ⟨hlists, hobjects⟩ := tells_listTree sampleText
  obtain ⟨cid, hcid⟩ := exists_ofText_sampleText
  have hnames := names_iff.mpr hlists
  have hparse := (h _ .ok "/import" cid).mp (parse_eq_ok.mpr ⟨sampleText, hnames, hcid⟩)
  obtain ⟨root, htells, -⟩ := hparse
  exact hobjects root "" htells

end MarketDag.ImportReply
