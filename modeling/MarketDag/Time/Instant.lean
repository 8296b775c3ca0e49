import MarketDag.Time.Date

/-!
# Instants

A second of a day in universal time, with a fraction.  A fraction of a whole second or more marks
a leap second.  Any time with an offset can be read; the canonical form
`YYYY-MM-DDTHH:MM:SSZ` exists for whole seconds of the years 0000 to 9999.
-/

namespace MarketDag

/-- An instant: a day, the second of the day, and nanoseconds. -/
structure Instant where
  date : Date
  second : Nat
  nanos : Nat
  second_lt : second < 86400
  nanos_lt : nanos < 2000000000
deriving DecidableEq

namespace Instant

open Calendar

/-- The instant with these parts, if they make one. -/
def ofParts? (date : Date) (second nanos : Nat) : Option Instant :=
  if h : second < 86400 ∧ nanos < 2000000000 then some ⟨date, second, nanos, h.1, h.2⟩ else none

/-- The instant so many seconds and nanoseconds after the start of 1970; a leap second belongs to
the last second of a minute. -/
def ofUnix? (seconds : Int) (nanos : Nat) : Option Instant := do
  let days := Int.fdiv seconds 86400
  let second := (seconds - days * 86400).toNat
  let date ← Date.ofDays? days
  if 1000000000 ≤ nanos ∧ second % 60 ≠ 59 then none else ofParts? date second nanos

/-- Is an instant before the start of 1970? -/
def beforeEpoch (t : Instant) : Bool := t.date.year < 1970

/-- Has an instant a fraction, or is it a leap second? -/
def isFractional (t : Instant) : Bool := t.nanos ≠ 0

/-! ## Text -/

/-- Hours, minutes and seconds; a leap second counts as second sixty. -/
def clockChars (t : Instant) : List Char :=
  let leap := if 1000000000 ≤ t.nanos then 1 else 0
  Date.padded 2 (t.second / 3600) ++ ':' :: Date.padded 2 (t.second / 60 % 60) ++
    ':' :: Date.padded 2 (t.second % 60 + leap)

/-- The fraction in three, six or nine digits, as many as it needs. -/
def fractionChars (t : Instant) : List Char :=
  let n := t.nanos % 1000000000
  if n = 0 then []
  else if n % 1000000 = 0 then '.' :: Date.padded 3 (n / 1000000)
  else if n % 1000 = 0 then '.' :: Date.padded 6 (n / 1000)
  else '.' :: Date.padded 9 n

/-- The text of an instant in a message. -/
def toText (t : Instant) : String :=
  String.ofList (t.date.toChars ++ ' ' :: t.clockChars ++ t.fractionChars) ++ " UTC"

instance : ToString Instant := ⟨toText⟩

/-- Has an instant a canonical form? -/
def HasCanonical (t : Instant) : Prop := (0 ≤ t.date.year ∧ t.date.year ≤ 9999) ∧ t.nanos = 0

instance (t : Instant) : Decidable t.HasCanonical := inferInstanceAs (Decidable (_ ∧ _))

/-- The canonical text of an instant that has one. -/
def canonical? (t : Instant) : Option String :=
  if t.HasCanonical then some (String.ofList (t.date.toChars ++ 'T' :: t.clockChars ++ ['Z']))
  else none

/-! ## Reading -/

/-- The digits after a point, as nanoseconds; digits after the ninth do not count. -/
def readFraction : Scan Nat := do
  let before ← get
  let n ← number 1 (some 9)
  let used := before.length - (← get).length
  modify (·.dropWhile Char.isDigit)
  pure (n * Nat.pow 10 (9 - used))

/-- Two characters. -/
def readPair : Scan (Char × Char)
  | a :: b :: cs => .ok ((a, b), cs)
  | cs => .error (if shorterThan 2 cs then .tooShort else .invalid)

/-- Two digits of an offset, not above `most`. -/
def readTwoDigits (most : Nat) : Scan Nat := do
  let (a, b) ← readPair
  if ¬ (a.isDigit ∧ b.isDigit) then fail .invalid
  else if most < ofDigits [a, b] then fail .outOfRange
  else pure (ofDigits [a, b])

/-- Hours and minutes of an offset, in seconds. -/
def readOffsetSize : Scan Nat := do
  let hours ← readTwoDigits 99
  expect ':'
  let minutes ← readTwoDigits 59
  pure (hours * 3600 + minutes * 60)

/-- An offset from universal time in seconds: the letter Z, or a sign, hours and minutes. -/
def readOffset : Scan Int
  | [] => .error .tooShort
  | c :: cs => (do
    if c = 'Z' ∨ c = 'z' then pure 0
    else if c = '+' ∨ c = '-' ∨ c = '\u2212' then
      let size ← readOffsetSize
      pure (if c = '+' then (size : Int) else -(size : Int))
    else fail .invalid : Scan Int) cs

/-- The seconds of a day. -/
def daySeconds : Nat := 86400

/-- Moves an instant by less than a day. -/
def shift? (t : Instant) (seconds : Int) : Option Instant :=
  let total : Int := t.second + seconds
  if daySeconds ≤ seconds.natAbs then none
  else if total < 0 then do
    ofParts? (← t.date.previous?) (total + 86400).toNat t.nanos
  else if 86400 ≤ total then do
    ofParts? (← t.date.next?) (total - 86400).toNat t.nanos
  else ofParts? t.date total.toNat t.nanos

/-- The parts of a time of day, a second of sixty being a leap second. -/
def ofClock? (date : Date) (hour minute second nanos : Nat) : Option Instant :=
  if 24 ≤ hour ∨ 60 ≤ minute ∨ 60 < second then none
  else if second = 60 then ofParts? date (hour * 3600 + minute * 60 + 59) (nanos + 1000000000)
  else ofParts? date (hour * 3600 + minute * 60 + second) nanos

/-- The letter or blank between a date and a time. -/
def readSeparator : Scan Unit
  | [] => .error .tooShort
  | c :: cs => if c = 't' ∨ c = 'T' ∨ c = ' ' then .ok ((), cs) else .error .invalid

/-- An optional fraction of a second. -/
def readOptionalFraction : Scan Nat
  | '.' :: cs => readFraction cs
  | cs => .ok (0, cs)

/-- The bytes of a date and a time of day in whole seconds. -/
def leastSize : Nat := 19

/-- A date and a time with its offset. A text too short for a date and a time of day fails first.
Each part is then read in turn: the date and the time of day are looked at as soon as their digits
are read, the offset once nothing stands behind it. -/
def scan : Scan Instant := do
  if shorterThan leastSize (← get) then fail .tooShort
  let year ← number 4 (some 4)
  expect '-'
  let month ← number 2 (some 2)
  expect '-'
  let day ← number 2 (some 2)
  let date ← inRange (Date.ofParts? year month day)
  readSeparator
  let hour ← number 2 (some 2)
  expect ':'
  let minute ← number 2 (some 2)
  expect ':'
  let second ← number 2 (some 2)
  let nanos ← readOptionalFraction
  let localTime ← inRange (ofClock? date hour minute second nanos)
  let offset ← readOffset
  finish
  -- local time is ahead of universal time by the offset
  inRange (localTime.shift? (-offset))

/-- Reads a date and a time with its offset. -/
def ofText (s : String) : Except Fault Instant := scan.run' s.toList

end Instant

end MarketDag
