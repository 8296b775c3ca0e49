import MarketDag.Json.Syntax
import MarketDag.Shape.Reader

/-!
# Reading trees from JSON

An object whose first key is `/` stands for a link or for bytes.  Records may be objects or lists
of their fields, and a fault of the form comes before a fault of the syntax that stands behind it.
-/

namespace MarketDag.Json

/-- Looks at a JSON value, or fails. -/
abbrev Read := ReaderT Json (Except DecodeFault)

/-! ## Links and bytes -/

/-- What an object with the key `/` stands for. -/
inductive Reserved where
  | link (cid : Cid)
  | bytes (b : List UInt8)

/-- The link of a text. -/
def linkOf (s : String) : Except DecodeFault Cid :=
  match Cid.ofText s with
  | .ok cid => .ok cid
  | .error _ => .error (.badLinkText s)

/-- The text under the only key `bytes` of some entries. -/
def bytesText? (entries : List (String × Json)) : Option String :=
  match entries.filter (·.1 = "bytes") with
  | [(_, .text s)] => some s
  | _ => none

/-- What may stand under the key `/`: the text of a link, or the text of bytes. -/
inductive ReservedText where
  | link (s : String)
  | bytes (s : String)

/-- The text under the key `/`. -/
def reservedText (value : Json) : Except DecodeFault ReservedText :=
  if ¬ value.isWhole then .error .malformed
  else
    match value with
    | .text s => .ok (.link s)
    | .object entries _ =>
      match bytesText? entries with
      | some s => .ok (.bytes s)
      | none => .error (.noAlternative "ReservedKeyValue")
    | _ => .error (.noAlternative "ReservedKeyValue")

/-- What a text under the key `/` stands for. -/
def ReservedText.meaning : ReservedText → Except DecodeFault Reserved
  | .link s => .link <$> linkOf s
  | .bytes s =>
    match Multibase.base64Plain.decode? s.toList with
    | some b => .ok (.bytes b)
    | none => .error (.badBase s)

/-- What the value under the key `/` stands for. -/
def reserved (value : Json) : Except DecodeFault Reserved := do (← reservedText value).meaning

/-- What an object with these entries stands for, if its first key is `/`. -/
def reserved? : List (String × Json) → Except DecodeFault (Option Reserved)
  | ("/", value) :: _ => some <$> reserved value
  | _ => .ok none

/-- What a reserved object is called where something else was expected. -/
def Reserved.found : Reserved → Found
  | .link _ => .link
  | .bytes _ => .bytes

/-- A reserved object has one entry. -/
def single (entries : List (String × Json)) (closed : Bool) : Except DecodeFault Unit :=
  if entries.length = 1 ∧ closed then .ok () else .error .malformed

/-- The fault of a value that is not what was expected. -/
def unexpected (expected : Expected) : Json → DecodeFault
  | .null => .wrongType .null expected
  | .bool b => .wrongType (.boolean b) expected
  | .integer n => .wrongType (.integer n) expected
  | .float x => .wrongType (.float x) expected
  | .text s => .wrongType (.text s) expected
  | .list _ _ => .wrongType .sequence expected
  | .object _ _ => .wrongType .map expected
  | .broken => .malformed

/-! ## Trees -/

mutual

/-- The tree of a value. -/
def tree : Json → Except DecodeFault Ipld
  | .null => .ok .null
  | .bool b => .ok (.bool b)
  | .integer n => .ok (.integer n)
  | .float x => .ok (.float x)
  | .text s => .ok (.text s)
  | .list items closed => do
    let trees ← treeItems items
    if closed then .ok (.list trees) else .error .malformed
  | .object entries closed => do
    match ← reserved? entries with
    | some (.link cid) => do
      single entries closed
      .ok (.link cid)
    | some (.bytes b) => do
      single entries closed
      .ok (.bytes b)
    | none => do
      let trees ← treeEntries [] entries
      if closed then .ok (.map trees) else .error .malformed
  | .broken => .error .malformed

/-- The trees of the items of a list. -/
def treeItems : List Json → Except DecodeFault (List Ipld)
  | [] => .ok []
  | item :: items => do return (← item.tree) :: (← treeItems items)

/-- The trees of the entries of an object, added to those before them; a key that comes twice is a
fault once its value is read. -/
def treeEntries (before : List (String × Ipld)) :
    List (String × Json) → Except DecodeFault (List (String × Ipld))
  | [] => .ok before
  | (key, value) :: entries => do
    let t ← value.tree
    if before.any (·.1 = key) then .error .duplicateKey
    else treeEntries (insertEntry textBefore (key, t) before) entries

end

mutual

/-- A value of any shape. -/
def buffered : Json → Except DecodeFault Buffered
  | .null => .ok .null
  | .bool b => .ok (.bool b)
  | .integer n => .ok (.integer n)
  | .float x => .ok (.float x)
  | .text s => .ok (.text s)
  | .list items closed => do
    let values ← bufferedItems items
    if closed then .ok (.list values) else .error .malformed
  | .object entries closed => do
    match ← reserved? entries with
    | some (.link _) => .error .strayLink
    | some (.bytes b) => do
      single entries closed
      .ok (.bytes b)
    | none => do
      let values ← bufferedEntries entries
      if closed then .ok (.map values) else .error .malformed
  | .broken => .error .malformed

/-- The items of a list. -/
def bufferedItems : List Json → Except DecodeFault (List Buffered)
  | [] => .ok []
  | item :: items => do return (← item.buffered) :: (← bufferedItems items)

/-- The entries of an object. -/
def bufferedEntries : List (String × Json) → Except DecodeFault (List (Buffered × Buffered))
  | [] => .ok []
  | (key, value) :: entries => do
    return (.text key, ← value.buffered) :: (← bufferedEntries entries)

end

/-! ## Leaves -/

/-- A text. -/
def asText (expected : Expected) : Json → Except DecodeFault String
  | .text s => .ok s
  | value => .error (unexpected expected value)

/-- A decimal: a text or a number. -/
def asDecimal : Json → Except DecodeFault Decimal
  | .text s => readDecimal s
  | .integer n => readDecimalInt n
  | .float x => readDecimalFloat x
  | .object [] false => .error .malformed
  -- the first key is looked at before an object is refused
  | .object entries closed => do
    match ← reserved? entries with
    | some r => .error (.wrongType r.found .decimal)
    | none => .error (unexpected .decimal (.object entries closed))
  | value => .error (unexpected .decimal value)

/-- A value that has to be null. -/
def asUnit : Json → Except DecodeFault Unit
  | .null => .ok ()
  | value => .error (unexpected .unit value)

/-- A choice: its name, or an object with its name and null. -/
def asChoice (names : List String) : Json → Except DecodeFault (Fin names.length)
  | .text s => choose names s
  | .object ((name, value) :: entries) closed => do
    let i ← choose names name
    asUnit value
    if entries.isEmpty ∧ closed then .ok i else .error .malformed
  | _ => .error .malformed

/-- The text under the key `/` among the entries of an object; other entries only have to be
well-formed. -/
def linkEntry (found : Option ReservedText) : List (String × Json) →
    Except DecodeFault (Option ReservedText)
  | [] => .ok found
  | (key, value) :: entries =>
    if key = "/" then
      if found.isSome then .error (.duplicateField key)
      else do linkEntry (some (← reservedText value)) entries
    else if value.isWhole then linkEntry found entries
    else .error .malformed

/-- The name that messages give to an object that stands for a link. -/
def linkRecord : String := "ReservedKeyMap"

/-- The link of a text under the key `/`, which has to be the text of a link. -/
def ReservedText.asLink : ReservedText → Except DecodeFault Cid
  | .link s => linkOf s
  | .bytes _ => .error .strayLink

/-- A link: an object with its text under the key `/`, or a list of that text. The text is looked
at once the whole object or list is read. -/
def asLink : Json → Except DecodeFault Cid
  | .object entries closed => do
    let found ← linkEntry none entries
    if ¬ closed then throw .malformed
    match found with
    | some form => form.asLink
    | none => throw (.missingField "/")
  | .list items closed =>
    match items with
    | [] => .error (if closed then .shortRecord 0 linkRecord 1 else .malformed)
    | value :: rest => do
      let form ← reservedText value
      if rest.isEmpty ∧ closed then form.asLink else throw .malformed
  | value => .error (unexpected (.record linkRecord) value)

/-- The headers of the entries of an object, added to those before them. -/
def headerEntries (before : Headers) : List (String × Json) → Except DecodeFault Headers
  | [] => .ok before
  | (key, value) :: entries => do
    headerEntries (before.insert key (← asText .text value)) entries

/-- Headers: an object of texts. -/
def asHeaders : Json → Except DecodeFault Headers
  | .object entries closed => do
    match ← reserved? entries with
    | some r => .error (.wrongType r.found .map)
    | none => do
      let hs ← headerEntries .empty entries
      if closed then .ok hs else .error .malformed
  | value => .error (unexpected .map value)

/-- A value as a leaf. -/
def asLeaf : (leaf : Leaf) → Json → Except DecodeFault leaf.Value
  | .text, value => asText .text value
  | .decimal, value => asDecimal value
  | .date, value => do readDate (← asText .date value)
  | .instant, value => do readInstant (← asText .text value)
  | .link, value => asLink value
  | .count, value => match value with
    | .integer n => readCount n
    | value => .error (unexpected .count value)
  | .headers, value => asHeaders value
  | .choice names, value => asChoice names value
  | .optional inner, value => match value with
    | .null => .ok none
    | value => some <$> asLeaf inner value

/-! ## JSON as a source -/

/-- The fields of a record that is an object. -/
def namedFields {σ : Type} (step : String → σ → Read σ) (closed : Bool) :
    σ → List (String × Json) → Except DecodeFault σ
  | slots, [] => if closed then .ok slots else .error .malformed
  | slots, (key, value) :: entries => do
    namedFields step closed (← (step key slots).run value) entries

/-- The fields of a record that is a list; with them, whether items are left or the list breaks
off. -/
def positionalFields {σ : Type} (step : String → σ → Read σ) :
    List String → σ → List Json → Except DecodeFault (σ × List String × List Json)
  | key :: keys, slots, item :: items => do
    positionalFields step keys (← (step key slots).run item) items
  | keys, slots, items => .ok (slots, keys, items)

/-- JSON as a source. -/
def source : Source Read where
  leaf l := fun value => asLeaf l value
  list item := fun value => match value with
    | .list items closed => do
      let values ← items.mapM item.run
      if closed then .ok values else .error .malformed
    | value => .error (unexpected .sequence value)
  optional inner := fun value => match value with
    | .null => .ok none
    | value => some <$> inner.run value
  record name keys start step finish := fun value => match value with
    | .object entries closed => do
      match ← reserved? entries with
      | some r => .error (.wrongType r.found (.record name))
      | none => do finish .named (← namedFields step closed start entries)
    | .list items closed => do
      let (slots, keysLeft, itemsLeft) ← positionalFields step keys start items
      -- a list that breaks off before its last field is malformed, behind it the fields come first
      if ¬ keysLeft.isEmpty ∧ ¬ closed then .error .malformed
      else
        let record ← finish .positional slots
        if itemsLeft.isEmpty ∧ closed then .ok record else .error .malformed
    | value => .error (unexpected (.record name) value)
  buffered := fun value => buffered value

/-- Reads a whole text: after the value only blanks may follow. -/
def readAll {α : Type} (read : Json → Except DecodeFault α) (bytes : List UInt8) :
    Except DecodeFault α := do
  let (value, rest) := parse bytes
  let a ← read value
  match rest with
  | none => .error .malformed
  | some rest => if (skip rest).isEmpty then .ok a else .error .trailing

/-- The tree of a text. -/
def decodeTree (bytes : List UInt8) : Except DecodeFault Ipld := readAll tree bytes

/-- The value of a shape of a text. -/
def decode (shape : Shape) (bytes : List UInt8) : Except DecodeFault shape.Value :=
  readAll (shape.read source).run bytes

end MarketDag.Json
