import MarketDag.Number.Binary64
import MarketDag.Text.Hex
import MarketDag.Text.Utf8

/-!
# JSON syntax

A text is parsed into a tree that also stands for a text that breaks off: where the syntax fails,
the tree ends with `broken`, or with a list or an object that is not closed.  So a reader that
looks at the tree from its front meets a broken place only after all that stands before it.
-/

namespace MarketDag

/-- A JSON value, or as much of one as a text holds before its syntax fails. -/
inductive Json where
  | null
  | bool (b : Bool)
  | integer (n : Int)
  | float (x : Binary64)
  | text (s : String)
  | list (items : List Json) (closed : Bool)
  | object (entries : List (String × Json)) (closed : Bool)
  /-- No value: the syntax fails here. -/
  | broken

namespace Json

mutual

/-- Does no part of a value break off? -/
def isWhole : Json → Bool
  | .list items closed => closed && wholeItems items
  | .object entries closed => closed && wholeEntries entries
  | .broken => false
  | _ => true

/-- Does no item break off? -/
def wholeItems : List Json → Bool
  | [] => true
  | item :: items => item.isWhole && wholeItems items

/-- Does no value of an entry break off? -/
def wholeEntries : List (String × Json) → Bool
  | [] => true
  | (_, value) :: entries => value.isWhole && wholeEntries entries

end

/-! ## Bytes -/

/-- Is a byte a blank between values? -/
def isSpace (b : UInt8) : Bool := b = 0x20 ∨ b = 0x09 ∨ b = 0x0A ∨ b = 0x0D

/-- The bytes after blanks. -/
def skip (bytes : List UInt8) : List UInt8 := bytes.dropWhile isSpace

/-- Is a byte a decimal digit? -/
def isDigit (b : UInt8) : Bool := 0x30 ≤ b ∧ b ≤ 0x39

/-- The number of a run of digits. -/
def ofDigits (ds : List UInt8) : Nat := ds.foldl (fun n b => n * 10 + (b.toNat - 0x30)) 0

/-- The bytes after a certain word. -/
def afterWord (word : String) (bytes : List UInt8) : Option (List UInt8) :=
  let expected := Utf8.encode word
  if bytes.take expected.length = expected then some (bytes.drop expected.length) else none

/-! ## Strings -/

/-- The number of four hexadecimal digits at the front. -/
def hex4? : List UInt8 → Option (Nat × List UInt8)
  | a :: b :: c :: d :: rest => do
    let value (x : UInt8) := Hex.value? (Char.ofNat x.toNat)
    let n := ((← value a) * 16 + (← value b)) * 16 + (← value c)
    some (n * 16 + (← value d), rest)
  | _ => none

/-- The character of a `\u` escape, whose digits are at the front; two escapes make a character
beyond the first plane. -/
def escapedUnicode? (bytes : List UInt8) : Option (Char × List UInt8) := do
  let (high, rest) ← hex4? bytes
  if 0xDC00 ≤ high ∧ high ≤ 0xDFFF then none
  else if 0xD800 ≤ high ∧ high ≤ 0xDBFF then
    match rest with
    | 0x5C :: 0x75 :: rest =>
      let (low, rest) ← hex4? rest
      if 0xDC00 ≤ low ∧ low ≤ 0xDFFF then
        some (Char.ofNat (0x10000 + (high - 0xD800) * 0x400 + (low - 0xDC00)), rest)
      else none
    | _ => none
  else some (Char.ofNat high, rest)

/-- The character of an escape of one letter. -/
def escapedLetter? (b : UInt8) : Option Char :=
  match Char.ofNat b.toNat with
  | '"' => some '"'
  | '\\' => some '\\'
  | '/' => some '/'
  | 'b' => some '\x08'
  | 'f' => some '\x0C'
  | 'n' => some '\n'
  | 'r' => some '\r'
  | 't' => some '\t'
  | _ => none

/-- The bytes of a string up to its closing quote, escapes replaced, and the bytes after it. -/
def stringBytes? : (fuel : Nat) → List UInt8 → Option (List UInt8 × List UInt8)
  | 0, _ => none
  | _ + 1, [] => none
  | fuel + 1, b :: rest =>
    if b = 0x22 then some ([], rest)
    else if b = 0x5C then
      match rest with
      | [] => none
      | 0x75 :: rest => do
        let (c, rest) ← escapedUnicode? rest
        let (bytes, rest) ← stringBytes? fuel rest
        some (Utf8.encodeChar c ++ bytes, rest)
      | e :: rest => do
        let c ← escapedLetter? e
        let (bytes, rest) ← stringBytes? fuel rest
        some (Utf8.encodeChar c ++ bytes, rest)
    else if b < 0x20 then none
    else do
      let (bytes, rest) ← stringBytes? fuel rest
      some (b :: bytes, rest)

/-- A string whose opening quote is read. -/
def string? (bytes : List UInt8) : Option (String × List UInt8) := do
  let (content, rest) ← stringBytes? (bytes.length + 1) bytes
  some (← Utf8.decode? content, rest)

/-! ## Numbers -/

/-- The digits at the front, and the bytes after them. -/
def splitDigits (bytes : List UInt8) : List UInt8 × List UInt8 :=
  (bytes.takeWhile isDigit, bytes.dropWhile isDigit)

/-- The digits of a whole part: a zero stands alone. -/
def wholePart? (bytes : List UInt8) : Option (List UInt8 × List UInt8) :=
  let (ds, rest) := splitDigits bytes
  match ds with
  | [] => none
  | [_] => some (ds, rest)
  | d :: _ => if d = 0x30 then none else some (ds, rest)

/-- The digits after a point, none where there is no point. -/
def fraction? (bytes : List UInt8) : Option (List UInt8 × List UInt8) :=
  match bytes with
  | 0x2E :: rest =>
    let (ds, rest) := splitDigits rest
    if ds.isEmpty then none else some (ds, rest)
  | rest => some ([], rest)

/-- The exponent after its mark, none where there is no mark. -/
def exponent? (bytes : List UInt8) : Option (Option Int × List UInt8) :=
  match bytes with
  | [] => some (none, [])
  | e :: rest =>
    if e = 0x65 ∨ e = 0x45 then
      let (negative, rest) := match rest with
        | 0x2B :: rest => (false, rest)
        | 0x2D :: rest => (true, rest)
        | rest => (false, rest)
      let (ds, rest) := splitDigits rest
      if ds.isEmpty then none
      else
        let n : Int := ofDigits ds
        some (some (if negative then -n else n), rest)
    else some (none, e :: rest)

/-- A number that is not whole, or too large for one; none where it is infinite. -/
def floatOf? (negative : Bool) (digits : Nat) (exponent : Int) : Option Json :=
  let x := Binary64.ofDecimal negative digits exponent
  if x.isFinite then some (.float x) else none

/-- A number without a sign at the front. -/
def number? (negative : Bool) (bytes : List UInt8) : Option (Json × List UInt8) := do
  let (whole, rest) ← wholePart? bytes
  let (places, rest) ← fraction? rest
  let (exponent, rest) ← exponent? rest
  let n := ofDigits whole
  let value ←
    if places.isEmpty ∧ exponent.isNone then
      if negative then
        if n = 0 ∨ 0x8000000000000000 < n then floatOf? true n 0 else some (.integer (-(n : Int)))
      else if n < UInt64.size then some (.integer n) else floatOf? false n 0
    else floatOf? negative (ofDigits (whole ++ places)) (exponent.getD 0 - places.length)
  some (value, rest)

/-! ## Values -/

/-- A value, and the bytes after it unless the syntax failed. -/
abbrev Parse := List UInt8 → Json × Option (List UInt8)

/-- The result of a parse that may fail. -/
def orBroken {α : Type} (value : α → Json) (r : Option (α × List UInt8)) :
    Json × Option (List UInt8) :=
  match r with
  | some (a, rest) => (value a, some rest)
  | none => (.broken, none)

/-- The items of a list from one on, up to the closing bracket. -/
def parseItems (item : Parse) : (fuel : Nat) → List UInt8 → List Json × Option (List UInt8)
  | 0, _ => ([], none)
  | fuel + 1, bytes =>
    match item bytes with
    | (value, none) => ([value], none)
    | (value, some rest) =>
      match skip rest with
      | 0x2C :: rest =>
        let (values, rest) := parseItems item fuel rest
        (value :: values, rest)
      | 0x5D :: rest => ([value], some rest)
      | _ => ([value], none)

/-- The value of an entry, whose key is read. -/
def parseEntryValue (item : Parse) (bytes : List UInt8) : Json × Option (List UInt8) :=
  match skip bytes with
  | 0x3A :: rest => item rest
  | _ => (.broken, none)

/-- The entries of an object from one on, up to the closing brace. -/
def parseEntries (item : Parse) :
    (fuel : Nat) → List UInt8 → List (String × Json) × Option (List UInt8)
  | 0, _ => ([], none)
  | fuel + 1, bytes =>
    match skip bytes with
    | 0x22 :: rest =>
      match string? rest with
      | none => ([], none)
      | some (key, rest) =>
        match parseEntryValue item rest with
        | (value, none) => ([(key, value)], none)
        | (value, some rest) =>
          match skip rest with
          | 0x2C :: rest =>
            let (more, rest) := parseEntries item fuel rest
            ((key, value) :: more, rest)
          | 0x7D :: rest => ([(key, value)], some rest)
          | _ => ([(key, value)], none)
    | _ => ([], none)

/-- A list whose opening bracket is read. -/
def parseList (item : Parse) (bytes : List UInt8) : Json × Option (List UInt8) :=
  match skip bytes with
  | 0x5D :: rest => (.list [] true, some rest)
  | bytes =>
    let (values, rest) := parseItems item (bytes.length + 1) bytes
    (.list values rest.isSome, rest)

/-- An object whose opening brace is read. -/
def parseObject (item : Parse) (bytes : List UInt8) : Json × Option (List UInt8) :=
  match skip bytes with
  | 0x7D :: rest => (.object [] true, some rest)
  | bytes =>
    let (values, rest) := parseEntries item (bytes.length + 1) bytes
    (.object values rest.isSome, rest)

/-- A value that is no list and no object. -/
def parseScalar : Parse
  | [] => (.broken, none)
  | b :: rest =>
    if b = 0x22 then orBroken .text (string? rest)
    else if b = 0x2D then orBroken id (number? true rest)
    else if isDigit b then orBroken id (number? false (b :: rest))
    else
      let word (s : String) (value : Json) :=
        orBroken (fun _ => value) ((afterWord s (b :: rest)).map ((), ·))
      if b = 0x6E then word "null" .null
      else if b = 0x74 then word "true" (.bool true)
      else word "false" (.bool false)

/-- A value, in which lists and objects are nested at most `depth` deep. -/
def parseValue : (depth : Nat) → Parse
  | 0, bytes =>
    match skip bytes with
    | 0x5B :: _ => (.list [] false, none)
    | 0x7B :: _ => (.object [] false, none)
    | bytes => parseScalar bytes
  | depth + 1, bytes =>
    match skip bytes with
    | 0x5B :: rest => parseList (parseValue depth) rest
    | 0x7B :: rest => parseObject (parseValue depth) rest
    | bytes => parseScalar bytes

/-- How deep lists and objects may be nested. -/
def maxDepth : Nat := 127

/-- The value at the front of a text, and the bytes after it unless the syntax failed. -/
def parse : Parse := parseValue maxDepth

end Json

end MarketDag
