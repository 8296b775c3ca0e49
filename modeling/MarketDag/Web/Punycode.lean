/-!
# Punycode

A label of any characters as a label of letters, digits and hyphens: its ASCII characters, a
hyphen, and the other characters as differences in base 36, smallest character first.  The
thresholds of the digits follow a bias that adapts to the differences seen so far.
-/

namespace MarketDag.Punycode

/-! ## Digits -/

/-- The character of a digit: letters, then figures. -/
def digitChar (d : Nat) : Char :=
  if d < 26 then Char.ofNat (97 + d) else Char.ofNat (22 + d)

/-- The digit of a character. -/
def digit? (c : Char) : Option Nat :=
  if 'a' ≤ c ∧ c ≤ 'z' then some (c.toNat - 97)
  else if 'A' ≤ c ∧ c ≤ 'Z' then some (c.toNat - 65)
  else if '0' ≤ c ∧ c ≤ '9' then some (c.toNat - 22)
  else none

/-- The threshold of the digit at a place, under a bias. -/
def threshold (bias place : Nat) : Nat :=
  let k := 36 * (place + 1)
  if k ≤ bias + 1 then 1 else if bias + 26 ≤ k then 26 else k - bias

theorem threshold_pos (bias place : Nat) : 1 ≤ threshold bias place := by
  simp only [threshold]
  split
  · omega
  · split <;> omega

/-- The bias for the first character. -/
def firstBias : Nat := 72

/-- Scales a difference down to the range of the bias. -/
def scaleDown (delta : Nat) : Nat × Nat :=
  if h : 455 < delta then
    let p := scaleDown (delta / 35)
    (p.1, p.2 + 36)
  else (delta, 0)
termination_by delta
decreasing_by exact Nat.div_lt_self (by omega) (by omega)

/-- The bias after a difference, when so many characters are in place. -/
def adapt (delta count : Nat) (first : Bool) : Nat :=
  let damped := if first then delta / 700 else delta / 2
  let (rest, steps) := scaleDown (damped + damped / count)
  steps + 36 * rest / (rest + 38)

/-! ## Writing -/

/-- The digits of a difference, least place first. -/
def writeNumber (bias place q : Nat) : List Char :=
  let t := threshold bias place
  if h : q < t then [digitChar q]
  else digitChar (t + (q - t) % (36 - t)) :: writeNumber bias (place + 1) ((q - t) / (36 - t))
termination_by q
decreasing_by
  have := threshold_pos bias place
  have := Nat.div_le_self (q - threshold bias place) (36 - threshold bias place)
  omega

/-- What is known between two characters of the encoded part. -/
structure State where
  /-- The difference so far. -/
  delta : Nat
  /-- How many characters are in place. -/
  count : Nat
  bias : Nat
  /-- Is this the first difference? -/
  first : Bool

/-- Passes one character of the label while the character `m` is being placed. -/
def pass (m : Nat) (p : State × List Char) (c : Char) : State × List Char :=
  let (s, out) := p
  if c.toNat < m then ({ s with delta := s.delta + 1 }, out)
  else if c.toNat = m then
    let bias := adapt s.delta (s.count + 1) s.first
    (⟨0, s.count + 1, bias, false⟩, out ++ writeNumber s.bias 0 s.delta)
  else (s, out)

/-- Places every occurrence of the characters of an ascending list. -/
def writeFrom (label : List Char) (next : Nat) (s : State) : List Nat → List Char
  | [] => []
  | m :: ms =>
    let start := { s with delta := s.delta + (m - next) * (s.count + 1) }
    let (s, out) := label.foldl (pass m) (start, [])
    out ++ writeFrom label (m + 1) { s with delta := s.delta + 1 } ms

/-- Puts a number in its place in an ascending list, once. -/
def insertNew (n : Nat) : List Nat → List Nat
  | [] => [n]
  | m :: ms => if n < m then n :: m :: ms else if n = m then m :: ms else m :: insertNew n ms

/-- The encoded form of a label. -/
def encode (label : List Char) : List Char :=
  let basic := label.filter (·.toNat < 128)
  let others := (label.filter (128 ≤ ·.toNat)).foldr (fun c ns => insertNew c.toNat ns) []
  basic ++ (if basic.isEmpty then [] else ['-']) ++
    writeFrom label 128 ⟨0, basic.length, firstBias, true⟩ others

/-! ## Reading -/

/-- What is known between two digits. -/
structure Reading where
  label : List Char
  /-- The character of the last difference. -/
  char : Nat
  /-- The place of the last character. -/
  index : Nat
  bias : Nat
  /-- The place of the digit within its difference. -/
  place : Nat
  /-- The weight of the digit. -/
  weight : Nat
  /-- The sum of the digits so far. -/
  sum : Nat

/-- Numbers stay below this. -/
def limit : Nat := UInt32.size

/-- Puts the character of a complete difference in its place. -/
def complete (r : Reading) : Option Reading :=
  let total := r.index + r.sum
  let count := r.label.length + 1
  let char := r.char + total / count
  let index := total % count
  if char < limit ∧ char.isValidChar then
    some ⟨r.label.insertIdx index (Char.ofNat char), char, index + 1,
      adapt r.sum count (r.index = 0), 0, 1, 0⟩
  else none

/-- Reads one digit of a difference. -/
def readDigit (r : Reading) (c : Char) : Option Reading := do
  let d ← digit? c
  let sum := r.sum + d * r.weight
  let t := threshold r.bias r.place
  if limit ≤ sum then none
  else if d < t then complete { r with sum := sum }
  else if limit ≤ r.weight * (36 - t) then none
  else some { r with place := r.place + 1, weight := r.weight * (36 - t), sum := sum }

/-- The label before the last hyphen, and what follows it. -/
def splitBasic (cs : List Char) : List Char × List Char :=
  let tail := (cs.reverse.takeWhile (· ≠ '-')).reverse
  if tail.length = cs.length then ([], cs) else (cs.take (cs.length - tail.length - 1), tail)

/-- The label of an encoded form. -/
def decode? (cs : List Char) : Option (List Char) := do
  let (basic, digits) := splitBasic cs
  if ¬ basic.all (·.toNat < 128) then none
  else
    let r ← digits.foldlM readDigit ⟨basic, 128, 0, firstBias, 0, 1, 0⟩
    if r.place = 0 then some r.label else none

end MarketDag.Punycode
