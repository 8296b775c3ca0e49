import MarketDag.Text.Character

/-!
# Calendar dates

Days of the Gregorian calendar, extended over all years that the program knows.  A date is
written as `YYYY-MM-DD`, a year outside 0000 to 9999 with its sign and at least four digits.
-/

namespace MarketDag

namespace Date

/-- Is a year a leap year? -/
def isLeap (year : Int) : Bool := year % 4 = 0 ∧ (year % 100 ≠ 0 ∨ year % 400 = 0)

/-- The number of days of a month. -/
def daysIn (year : Int) (month : Nat) : Nat :=
  if month = 2 then (if isLeap year then 29 else 28)
  else if month = 4 ∨ month = 6 ∨ month = 9 ∨ month = 11 then 30
  else 31

/-- The first year. -/
def firstYear : Int := -262143

/-- The last year. -/
def lastYear : Int := 262142

/-- Do a year, a month and a day make a date? -/
def Valid (year : Int) (month day : Nat) : Prop :=
  (firstYear ≤ year ∧ year ≤ lastYear) ∧ (1 ≤ month ∧ month ≤ 12) ∧
    (1 ≤ day ∧ day ≤ daysIn year month)

instance (year : Int) (month day : Nat) : Decidable (Valid year month day) :=
  inferInstanceAs (Decidable (_ ∧ _))

end Date

/-- A day of the calendar. -/
structure Date where
  year : Int
  month : Nat
  day : Nat
  valid : Date.Valid year month day
deriving DecidableEq

namespace Date

/-- The date with these parts, if they make one. -/
def ofParts? (year : Int) (month day : Nat) : Option Date :=
  if h : Valid year month day then some ⟨year, month, day, h⟩ else none

/-- Does a date come before another one? -/
def Before (a b : Date) : Prop :=
  a.year < b.year ∨ (a.year = b.year ∧ (a.month < b.month ∨ (a.month = b.month ∧ a.day < b.day)))

instance (a b : Date) : Decidable (Before a b) := inferInstanceAs (Decidable (_ ∨ _))

/-! ## Neighbours and day numbers -/

/-- The day after. -/
def next? (d : Date) : Option Date :=
  if d.day < daysIn d.year d.month then ofParts? d.year d.month (d.day + 1)
  else if d.month < 12 then ofParts? d.year (d.month + 1) 1
  else ofParts? (d.year + 1) 1 1

/-- The day before. -/
def previous? (d : Date) : Option Date :=
  if 1 < d.day then ofParts? d.year d.month (d.day - 1)
  else if 1 < d.month then ofParts? d.year (d.month - 1) (daysIn d.year (d.month - 1))
  else ofParts? (d.year - 1) 12 31

/-- The date so many days after 1970-01-01. Days are counted from the first of March of a year
that is a multiple of four hundred, so that a leap day ends its cycle. -/
def ofDays? (days : Int) : Option Date :=
  let shifted := days + 719468
  let cycle := Int.fdiv shifted 146097
  let dayOfCycle := (shifted - cycle * 146097).toNat
  let yearOfCycle :=
    (dayOfCycle - dayOfCycle / 1460 + dayOfCycle / 36524 - dayOfCycle / 146096) / 365
  let dayOfYear := dayOfCycle - (365 * yearOfCycle + yearOfCycle / 4 - yearOfCycle / 100)
  let monthFromMarch := (5 * dayOfYear + 2) / 153
  let day := dayOfYear - (153 * monthFromMarch + 2) / 5 + 1
  let month := if monthFromMarch < 10 then monthFromMarch + 3 else monthFromMarch - 9
  let year := yearOfCycle + cycle * 400 + (if month ≤ 2 then 1 else 0)
  ofParts? year month day

/-! ## Text -/

/-- A number with at least so many digits. -/
def padded (width n : Nat) : List Char :=
  let ds := Nat.toDigits 10 n
  List.replicate (width - ds.length) '0' ++ ds

/-- A year: four digits, or a sign and at least four digits. -/
def yearChars (year : Int) : List Char :=
  if 0 ≤ year ∧ year ≤ 9999 then padded 4 year.toNat
  else (if year < 0 then '-' else '+') :: padded 4 year.natAbs

/-- The characters of a date. -/
def toChars (d : Date) : List Char :=
  yearChars d.year ++ '-' :: padded 2 d.month ++ '-' :: padded 2 d.day

/-- The text of a date. -/
def toText (d : Date) : String := String.ofList d.toChars

instance : ToString Date := ⟨toText⟩

end Date

/-! ## Reading times -/

namespace Calendar

/-- Why a text is no date or time. -/
inductive Fault where
  | tooShort
  | invalid
  | outOfRange
  | tooLong
deriving DecidableEq, Repr

/-- The wording of a fault. -/
def Fault.message : Fault → String
  | .tooShort => "premature end of input"
  | .invalid => "input contains invalid characters"
  | .outOfRange => "input is out of range"
  | .tooLong => "trailing input"

/-- Reads from the front of a text, or fails. -/
abbrev Scan := StateT (List Char) (Except Fault)

/-- Fails. -/
def fail {α : Type} (fault : Fault) : Scan α := fun _ => .error fault

/-- Passes over white space. -/
def skipBlanks : Scan Unit := modify trimFront

/-- The number that digits stand for. -/
def ofDigits (ds : List Char) : Nat := ds.foldl (fun n c => n * 10 + (c.toNat - 48)) 0

/-- Has a text fewer bytes than so many? -/
def shorterThan (least : Nat) (cs : List Char) : Bool := (String.ofList cs).utf8ByteSize < least

/-- The digits at the front of a text, at least `least` of them and at most `most`. -/
def number (least : Nat) (most : Option Nat) : Scan Nat := fun cs =>
  let ds := ((most.map cs.take).getD cs).takeWhile Char.isDigit
  if ds.length < least then .error (if shorterThan least cs then .tooShort else .invalid)
  else if 0x8000000000000000 ≤ ofDigits ds then .error .outOfRange
  else .ok (ofDigits ds, cs.drop ds.length)

/-- A certain character. -/
def expect (c : Char) : Scan Unit
  | [] => .error .tooShort
  | d :: cs => if d = c then .ok ((), cs) else .error .invalid

/-- So many digits, at least one, whose number lies in a range. -/
def numberIn (low high least most : Nat) : Scan Nat := do
  let n ← number least (some most)
  if low ≤ n ∧ n ≤ high then pure n else fail .outOfRange

/-- A value that exists unless the numbers read so far are out of range. -/
def inRange {α : Type} : Option α → Scan α
  | some a => pure a
  | none => fail .outOfRange

/-- Nothing more. -/
def finish : Scan Unit
  | [] => .ok ((), [])
  | _ => .error .tooLong

end Calendar

namespace Date

open Calendar

/-- A year: at most four digits, or a sign and any number of them. -/
def readYear : Scan Int := do
  let year : Int ← fun cs => match cs with
    | '-' :: cs => (do return -((← number 1 none : Nat) : Int) : Scan Int) cs
    | '+' :: cs => (do return ((← number 1 none : Nat) : Int) : Scan Int) cs
    | cs => (do return ((← number 1 (some 4) : Nat) : Int) : Scan Int) cs
  if -0x80000000 ≤ year ∧ year < 0x80000000 then pure year else fail .outOfRange

/-- A date; white space may stand around each of its parts. -/
def scan : Scan Date := do
  skipBlanks
  let year ← readYear
  skipBlanks
  expect '-'
  skipBlanks
  let month ← numberIn 1 12 1 2
  skipBlanks
  expect '-'
  skipBlanks
  let day ← numberIn 1 31 1 2
  skipBlanks
  finish
  inRange (ofParts? year month day)

/-- Reads a date. -/
def ofText (s : String) : Except Fault Date := scan.run' s.toList

end Date

end MarketDag
