import MarketDag.Address.Multihash
import MarketDag.Cbor.Head
import MarketDag.Shape.Reader

/-!
# Reading binary trees

Binary trees are read without asking for the canonical form: heads may be longer than needed, keys
come in any order, and texts and byte strings of a known kind may come in chunks.  Where a kind is
expected, a head whose type has no bit that the expected type lacks is taken for it.  A budget
bounds the depth of nesting.
-/

namespace MarketDag.Cbor

/-- Reads from the front of a byte string, or fails. -/
abbrev Scan := StateT (List UInt8) (Except DecodeFault)

/-- Reads with a budget for the depth of nesting. -/
abbrev Read := ReaderT Nat Scan

/-- The bytes are no well-formed tree. -/
def malformed {α : Type} : Scan α := fun _ => .error .malformed

/-- The budget for the depth of nesting. -/
def maxDepth : Nat := 256

/-! ## Bytes and heads -/

/-- The next byte, which stays. -/
def peek : Scan UInt8
  | [] => .error .malformed
  | b :: bytes => .ok (b, b :: bytes)

/-- The next byte. -/
def next : Scan UInt8
  | [] => .error .malformed
  | b :: bytes => .ok (b, bytes)

/-- The next `n` bytes. -/
def take (n : Nat) : Scan (List UInt8) := fun bytes =>
  match Multihash.takeExactly n bytes with
  | some (front, rest) => .ok (front.1, rest)
  | none => .error .malformed

/-- The number of a head with these low bits. -/
def argument (info : Nat) : Scan Nat :=
  match followers? info with
  | none => malformed
  | some 0 => pure info
  | some n => BigEndian.decode <$> take n

/-- Is a head of one type taken for a head of another? -/
def passesFor (found expected : Nat) : Bool := found &&& expected = found

/-- The number of a head that is taken for one of the expected type. -/
def readHead (expected : Major) : Scan Nat := do
  let b ← next
  if passesFor (majorCode b) expected.code then argument (info b) else malformed

/-- Reads as many values as a number says. -/
def readMany {α : Type} (item : Scan α) : (n : Nat) → Scan (List α)
  | 0 => pure []
  | n + 1 => do return (← item) :: (← readMany item n)

/-- Reads values up to the byte that ends them; `fuel` is at least the number of bytes left. -/
def readUntilBreak {α : Type} (item : Scan α) : (fuel : Nat) → Scan (List α)
  | 0 => malformed
  | fuel + 1 => do
    if (← peek) = breakByte then
      let _ ← next
      pure []
    else return (← item) :: (← readUntilBreak item fuel)

/-- The bytes of a text or a byte string, which may come in chunks. -/
def readString (major : Major) : (depth : Nat) → Scan (List UInt8)
  | 0 => do
    if (← peek).toNat = major.code * 32 + openLength then malformed
    else take (← readHead major)
  | depth + 1 => do
    if (← peek).toNat = major.code * 32 + openLength then
      let _ ← next
      let fuel := (← get).length + 1
      List.flatten <$> readUntilBreak (readString major depth) fuel
    else take (← readHead major)

/-- The text of well-formed bytes. -/
def textOf (bytes : List UInt8) : Scan String :=
  match Utf8.decode? bytes with
  | some s => pure s
  | none => malformed

/-- A text. -/
def readText (depth : Nat) : Scan String := do textOf (← readString .text depth)

/-- The identifier in the byte string of a link. -/
def readLinkBytes (depth : Nat) : Scan Cid := do
  if majorCode (← peek) ≠ Major.bytes.code then malformed
  else
    match ← readString .bytes depth with
    | 0 :: b :: bytes =>
      match Cid.ofBytes (b :: bytes) with
      | .ok cid => pure cid
      | .error fault => throw (.badLinkBytes fault)
    | _ => throw .notALink

/-- A link. -/
def readLink (depth : Nat) : Scan Cid := do
  if (← readHead .tag) = linkTag then readLinkBytes depth else malformed

/-! ## Items of any type -/

/-- An item: a scalar, or the size of what follows. -/
inductive Item where
  | null
  | bool (b : Bool)
  | integer (n : Int)
  | float (x : Binary64)
  | text (s : String)
  | bytes (b : List UInt8)
  | link (cid : Cid)
  | list (size : Nat)
  | map (size : Nat)

/-- What an item is called where something else was expected. -/
def Item.found : Item → Found
  | .null => .absent
  | .bool b => .boolean b
  | .integer n => .integer n
  | .float x => .float x
  | .text s => .text s
  | .bytes _ => .bytes
  | .link _ => .link
  | .list _ => .sequence
  | .map _ => .map

/-- An item without a number in its head. -/
def readSimple : Scan Item := do
  let b ← next
  if b = 0xF4 then pure (.bool false)
  else if b = 0xF5 then pure (.bool true)
  else if b = nullByte then pure .null
  else if b = 0xFA then (.float ∘ Binary64.ofBinary32 ∘ BigEndian.decode) <$> take 4
  else if b = 0xFB then (.float ∘ Binary64.ofBytes) <$> take 8
  else malformed

/-- An item of any type, which has to have a length. -/
def readItem (depth : Nat) : Scan Item := do
  let b ← peek
  -- what comes in chunks or up to a break has no length, and is no item
  if info b = openLength then malformed
  else
    match majorCode b with
    | 0 => (fun n => .integer (n : Int)) <$> readHead .unsigned
    | 1 => (fun n => .integer (-1 - (n : Int))) <$> readHead .negative
    | 2 => do return .bytes (← take (← readHead .bytes))
    | 3 => do return .text (← textOf (← take (← readHead .text)))
    | 4 => .list <$> readHead .list
    | 5 => .map <$> readHead .map
    | 6 => .link <$> readLink depth
    | _ => readSimple

/-! ## Trees -/

/-- Has a map a key? -/
def hasKey {α : Type} (entries : List (String × α)) (key : String) : Bool :=
  entries.any fun e => e.1 = key

/-- Reads `n` entries into a map; a key that comes twice is a fault once its value is read. -/
def readEntries (depth : Nat) (value : Scan Ipld) :
    (n : Nat) → List (String × Ipld) → Scan (List (String × Ipld))
  | 0, entries => pure entries
  | n + 1, entries => do
    let key ← readText depth
    let tree ← value
    if hasKey entries key then throw .duplicateKey
    else readEntries depth value n (insertEntry textBefore (key, tree) entries)

/-- A tree; a list or a map takes a part of the budget of its own. -/
def readTree : (depth : Nat) → Scan Ipld
  | 0 => malformed
  | depth + 1 => do
    match ← readItem depth with
    | .null => pure .null
    | .bool b => pure (.bool b)
    | .integer n => pure (.integer n)
    | .float x => pure (.float x)
    | .text s => pure (.text s)
    | .bytes b => pure (.bytes b)
    | .link cid => pure (.link cid)
    | .list size =>
      match depth with
      | 0 => malformed
      | depth + 1 => .list <$> readMany (readTree depth) size
    | .map size =>
      match depth with
      | 0 => malformed
      | depth + 1 => .map <$> readEntries depth (readTree depth) size []

/-- A value of any shape. -/
def readBuffered : (depth : Nat) → Scan Buffered
  | 0 => malformed
  | depth + 1 => do
    match ← readItem depth with
    | .null => pure .absent
    | .bool b => pure (.bool b)
    | .integer n =>
      -- a negative number of sixty-five bits has no buffered form, a positive one of sixty-four has
      if n < -0x8000000000000000 then throw (.wrongType (.wideInteger n) .anything)
      else pure (.integer n)
    | .float x => pure (.float x)
    | .text s => pure (.text s)
    | .bytes b => pure (.bytes b)
    | .link _ => throw .strayLink
    | .list size =>
      match depth with
      | 0 => malformed
      | depth + 1 => .list <$> readMany (readBuffered depth) size
    | .map size =>
      match depth with
      | 0 => malformed
      | depth + 1 =>
        let entry : Scan (Buffered × Buffered) := do
          return (← readBuffered depth, ← readBuffered depth)
        .map <$> readMany entry size

/-! ## Binary trees as a source -/

/-- Takes one from the budget. -/
def deeper {α : Type} (read : Read α) : Read α
  | 0 => malformed
  | depth + 1 => read.run depth

/-- A decimal: a text or a number. -/
def readDecimalItem : Read Decimal := fun depth => do
  match ← readItem depth with
  | .text s => MonadExcept.ofExcept (readDecimal s)
  | .integer n => MonadExcept.ofExcept (readDecimalInt n)
  | .float x => MonadExcept.ofExcept (readDecimalFloat x)
  | item => throw (.wrongType item.found .decimal)

/-- A choice: its name, alone or in front of a value that is left. -/
def readChoice (names : List String) : Read (Fin names.length) := fun depth => do
  let b ← peek
  if majorCode b = Major.text.code then
    MonadExcept.ofExcept (choose names (← readText depth))
  else if b.toNat = Major.map.code * 32 + 1 then
    let _ ← next
    MonadExcept.ofExcept (choose names (← readText depth))
  else malformed

/-- Null, or a value, which takes one from the budget. -/
def readOptional {α : Type} (read : Read α) : Read (Option α) := fun depth => do
  if (← peek) = nullByte then
    let _ ← next
    pure none
  else some <$> (deeper read).run depth

/-- Reads `n` headers. -/
def readHeaders (depth : Nat) : (n : Nat) → Headers → Scan Headers
  | 0, headers => pure headers
  | n + 1, headers => do
    let name ← readText depth
    let text ← readText depth
    readHeaders depth n (headers.insert name text)

/-- A value of a leaf. -/
def readLeaf : (leaf : Leaf) → Read leaf.Value
  | .text => fun depth => readText depth
  | .decimal => deeper readDecimalItem
  | .date => fun depth => do MonadExcept.ofExcept (readDate (← readText depth))
  | .instant => fun depth => do MonadExcept.ofExcept (readInstant (← readText depth))
  | .link => fun depth => readLink depth
  | .count => fun _ => do
    match readCount (← readHead .unsigned) with
    | .ok n => pure n
    | .error _ => malformed
  | .headers => deeper fun depth => do readHeaders depth (← readHead .map) .empty
  | .choice names => deeper (readChoice names)
  | .optional inner => readOptional (readLeaf inner)

/-- Reads `n` fields of a record. -/
def readFields {σ : Type} (step : String → σ → Read σ) (depth : Nat) : (n : Nat) → σ → Scan σ
  | 0, slots => pure slots
  | n + 1, slots => do
    let key ← readText depth
    readFields step depth n (← (step key slots).run depth)

/-- Binary trees as a source. -/
def source : Source Read where
  leaf := readLeaf
  list item := deeper fun depth => do readMany (item.run depth) (← readHead .list)
  optional := readOptional
  record _ _ start step finish := deeper fun depth => do
    let slots ← readFields step depth (← readHead .map) start
    MonadExcept.ofExcept (finish .named slots)
  buffered := fun depth => readBuffered depth

/-- Reads a whole byte string. -/
def readAll {α : Type} (read : Scan α) (bytes : List UInt8) : Except DecodeFault α := do
  let (a, rest) ← read.run bytes
  if rest.isEmpty then pure a else throw .malformed

/-- The tree of a byte string. -/
def decodeTree (bytes : List UInt8) : Except DecodeFault Ipld := readAll (readTree maxDepth) bytes

/-- The value of a shape of a byte string. -/
def decode (shape : Shape) (bytes : List UInt8) : Except DecodeFault shape.Value :=
  readAll ((shape.read source).run maxDepth) bytes

end MarketDag.Cbor
