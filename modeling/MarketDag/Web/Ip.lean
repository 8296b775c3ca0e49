import MarketDag.Text.Hex

/-!
# Numeric addresses

The two kinds of numeric network addresses.  An address of version 4 may be written with one to
four numbers in base 8, 10 or 16; one of version 6 has eight groups, of which one run of zeros may
be left out.
-/

namespace MarketDag

/-! ## Version 4 -/

/-- A number of thirty-two bits. -/
abbrev Ipv4 := Fin UInt32.size

namespace Ipv4

/-- A number in base 8, 10 or 16 by its beginning. -/
def number? (cs : List Char) : Option Nat :=
  match cs with
  | [] => none
  | '0' :: 'x' :: ds => inBase 16 ds
  | '0' :: 'X' :: ds => inBase 16 ds
  | '0' :: d :: ds => inBase 8 (d :: ds)
  | ds => inBase 10 ds
where
  /-- Digits below a base; no digits make zero. -/
  inBase (base : Nat) (ds : List Char) : Option Nat :=
    ds.foldlM (fun n c =>
      match Hex.value? c with
      | some v => if v < base then some (n * base + v) else none
      | none => none) 0

/-- The parts of a name, an empty last one left out. -/
def parts (cs : List Char) : List (List Char) :=
  let ps := cs.splitOn '.'
  if ps.getLast? = some [] then ps.dropLast else ps

/-- Does a name end in a number, so that it must be an address? -/
def endsInNumber (cs : List Char) : Bool :=
  match (parts cs).getLast? with
  | none => false
  | some [] => false
  | some last => last.all Char.isDigit || (number? last).isSome

/-- The value of numbers, of which all but the last are bytes. -/
def ofNumbers? (numbers : List Nat) : Option Ipv4 :=
  match numbers.getLast? with
  | none => none
  | some last =>
    let front := numbers.dropLast
    let room := 4 - front.length
    let value := (front.foldl (fun n b => n * 256 + b) 0 <<< (8 * room)) + last
    let fits := front.length ≤ 3 ∧ front.all (· < 256) ∧ last < 1 <<< (8 * room)
    if h : fits ∧ value < UInt32.size then some ⟨value, h.2⟩ else none

/-- Reads an address. -/
def ofChars? (cs : List Char) : Option Ipv4 := do ofNumbers? (← (parts cs).mapM number?)

/-- The four bytes of an address, with points between them. -/
def toChars (ip : Ipv4) : List Char :=
  let byte (k : Nat) : List Char := Nat.toDigits 10 ((ip.val >>> (8 * k)) % 256)
  byte 3 ++ '.' :: byte 2 ++ '.' :: byte 1 ++ '.' :: byte 0

end Ipv4

/-! ## Version 6 -/

/-- Eight groups of sixteen bits. -/
abbrev Ipv6 := { groups : List Nat // groups.length = 8 }

namespace Ipv6

/-- A group: one to four digits. -/
def group? (cs : List Char) : Option Nat :=
  if cs.isEmpty ∨ 4 < cs.length then none
  else cs.foldlM (fun n c => (Hex.value? c).map (n * 16 + ·)) 0

/-- A byte in base 10 without zeros before it. -/
def byte? (cs : List Char) : Option Nat :=
  if cs.isEmpty ∨ 3 < cs.length ∨ ¬ cs.all Char.isDigit ∨ (cs.head? = some '0' ∧ cs ≠ ['0']) then
    none
  else
    let n := cs.foldl (fun n c => n * 10 + (c.toNat - 48)) 0
    if n < 256 then some n else none

/-- The groups of the last field, which may be four bytes with points between them. -/
def lastGroups? (cs : List Char) : Option (List Nat) :=
  if cs.contains '.' then do
    match ← (cs.splitOn '.').mapM byte? with
    | [a, b, c, d] => some [a * 256 + b, c * 256 + d]
    | _ => none
  else (group? cs).map ([·])

/-- The groups of some fields. -/
def groups? : List (List Char) → Option (List Nat)
  | [] => some []
  | [last] => lastGroups? last
  | field :: fields => do return (← group? field) :: (← groups? fields)

/-- The groups of fields without the last field's other form. -/
def plainGroups? (fields : List (List Char)) : Option (List Nat) := fields.mapM group?

/-- Drops one of two empty fields at the front: a run of zeros may begin an address. -/
def trimEdge : List (List Char) → Option (List (List Char))
  | [] :: [] :: fields => some ([] :: fields)
  | [] :: _ => none
  | fields => some fields

/-- The eight groups, zeros in the place of the empty field. -/
def ofFields? (fields : List (List Char)) : Option (List Nat) :=
  let front := fields.takeWhile (· ≠ [])
  match fields.dropWhile (· ≠ []) with
  | [] => groups? fields
  | _ :: back => do
    let before ← plainGroups? front
    let after ← groups? back
    let missing := 8 - (before.length + after.length)
    if missing = 0 then none else some (before ++ List.replicate missing 0 ++ after)

/-- Reads an address. -/
def ofChars? (cs : List Char) : Option Ipv6 := do
  let fields ← trimEdge (cs.splitOn ':')
  let reversed ← trimEdge fields.reverse
  let groups ← ofFields? reversed.reverse
  if h : groups.length = 8 then some ⟨groups, h⟩ else none

/-- The number of zeros at the front. -/
def zerosAhead (groups : List Nat) : Nat := (groups.takeWhile (· = 0)).length

/-- The place and length of the longest run of zeros, the first of equal ones. -/
def longestZeros (index : Nat) : List Nat → Nat × Nat
  | [] => (index, 0)
  | g :: gs =>
    let here := zerosAhead (g :: gs)
    let later := longestZeros (index + 1) gs
    if later.2 ≤ here then (index, here) else later

/-- Groups with colons between them. -/
def joinGroups (groups : List Nat) : List Char :=
  [':'].intercalate (groups.map (Nat.toDigits 16))

/-- The groups with colons between them; a run of two or more zeros is left out. -/
def toChars (ip : Ipv6) : List Char :=
  let (start, count) := longestZeros 0 ip.1
  if count < 2 then joinGroups ip.1
  else joinGroups (ip.1.take start) ++ [':', ':'] ++ joinGroups (ip.1.drop (start + count))

end Ipv6

end MarketDag
