/-!
# UTF-8

Characters as bytes and back.  `head` looks at the front of a byte string and tells a
character from bytes that no character starts with; strict reading (`decode?`), reading with
replacement characters (`decodeLossy`) and the position of the first fault (`fault?`) are all
read off it.
-/

namespace MarketDag.Utf8

/-! ## Writing -/

/-- The one to four bytes of a character. -/
def encodeChar (c : Char) : List UInt8 :=
  let n := c.toNat
  if n < 0x80 then [n.toUInt8]
  else if n < 0x800 then [(0xC0 + n / 64).toUInt8, (0x80 + n % 64).toUInt8]
  else if n < 0x10000 then
    [(0xE0 + n / 4096).toUInt8, (0x80 + n / 64 % 64).toUInt8, (0x80 + n % 64).toUInt8]
  else
    [(0xF0 + n / 262144).toUInt8, (0x80 + n / 4096 % 64).toUInt8,
      (0x80 + n / 64 % 64).toUInt8, (0x80 + n % 64).toUInt8]

/-- The bytes of a text. -/
def encode (s : String) : List UInt8 := s.toList.flatMap encodeChar

/-! ## Reading -/

/-- What stands at the front of a non-empty byte string. -/
inductive Head where
  /-- A character, and the bytes after it. -/
  | char (c : Char) (rest : List UInt8)
  /-- So many bytes that start no character, and the bytes after them. -/
  | malformed (size : Nat) (rest : List UInt8)
  /-- The bytes end inside a character. -/
  | incomplete

/-- Bytes that may follow a lead byte at once: the range is narrowed where a shorter form
exists, at the surrogates and above the last character. -/
def secondRange (lead : Nat) : Nat × Nat :=
  if lead = 0xE0 then (0xA0, 0xBF)
  else if lead = 0xED then (0x80, 0x9F)
  else if lead = 0xF0 then (0x90, 0xBF)
  else if lead = 0xF4 then (0x80, 0x8F)
  else (0x80, 0xBF)

/-- How many bytes follow a lead byte; `none` when the byte leads nothing. -/
def followers (lead : Nat) : Option Nat :=
  if lead < 0x80 then some 0
  else if lead < 0xC2 then none
  else if lead < 0xE0 then some 1
  else if lead < 0xF0 then some 2
  else if lead < 0xF5 then some 3
  else none

/-- The payload of a lead byte that `count` bytes follow. -/
def leadBits (lead count : Nat) : Nat :=
  match count with
  | 0 => lead
  | 1 => lead - 0xC0
  | 2 => lead - 0xE0
  | _ => lead - 0xF0

/-- Takes `left` more bytes of a character whose bits so far are `bits` and of which `seen`
bytes are read; the first of them has to lie between `low` and `high`. -/
def tail (low high bits seen : Nat) : (left : Nat) → List UInt8 → Head
  | 0, rest => .char (Char.ofNat bits) rest
  | _ + 1, [] => .incomplete
  | left + 1, b :: rest =>
    if low ≤ b.toNat ∧ b.toNat ≤ high then
      tail 0x80 0xBF (bits * 64 + (b.toNat - 0x80)) (seen + 1) left rest
    else .malformed seen (b :: rest)

/-- What stands at the front of `lead :: rest`. -/
def head (lead : UInt8) (rest : List UInt8) : Head :=
  match followers lead.toNat with
  | none => .malformed 1 rest
  | some count =>
    let range := secondRange lead.toNat
    tail range.1 range.2 (leadBits lead.toNat count) 1 count rest

/-- The bytes after the front. -/
def Head.rest : Head → List UInt8
  | .char _ rest => rest
  | .malformed _ rest => rest
  | .incomplete => []

theorem tail_rest_le (low high bits seen left : Nat) (bs : List UInt8) :
    (tail low high bits seen left bs).rest.length ≤ bs.length := by
  induction left generalizing low high bits seen bs with
  | zero => simp [tail, Head.rest]
  | succ left ih =>
    cases bs with
    | nil => simp [tail, Head.rest]
    | cons b rest =>
      simp only [tail]
      split
      · exact Nat.le_succ_of_le (ih ..)
      · simp [Head.rest]

/-- What follows the front of a byte string is no longer than what followed its first byte. -/
theorem head_rest_le (lead : UInt8) (bs : List UInt8) :
    (head lead bs).rest.length ≤ bs.length := by
  unfold head
  split
  · simp [Head.rest]
  · exact tail_rest_le ..

/-- The characters of a byte string, if it is well formed throughout. -/
def decodeChars? : List UInt8 → Option (List Char)
  | [] => some []
  | b :: bs =>
    match _h : head b bs with
    | .char c rest => (c :: ·) <$> decodeChars? rest
    | .malformed _ _ => none
    | .incomplete => none
termination_by bs => bs.length
decreasing_by
  have := head_rest_le b bs
  simp only [_h, Head.rest] at this
  simp only [List.length_cons]; omega

/-- The text of a byte string, if it is well formed throughout. -/
def decode? (bytes : List UInt8) : Option String :=
  String.ofList <$> decodeChars? bytes

/-- The character that stands for bytes that are no character. -/
def replacement : Char := '\uFFFD'

/-- The characters of a byte string, each longest part that starts no character replaced. -/
def decodeCharsLossy : List UInt8 → List Char
  | [] => []
  | b :: bs =>
    match _h : head b bs with
    | .char c rest => c :: decodeCharsLossy rest
    | .malformed _ rest => replacement :: decodeCharsLossy rest
    | .incomplete => [replacement]
termination_by bs => bs.length
decreasing_by
  all_goals
    have := head_rest_le b bs
    simp only [_h, Head.rest] at this
    simp only [List.length_cons]; omega

/-- The text of a byte string with replacement characters for what is malformed. -/
def decodeLossy (bytes : List UInt8) : String := String.ofList (decodeCharsLossy bytes)

/-! ## The first fault -/

/-- Where a byte string stops being UTF-8: after `index` good bytes, at a part of `size` bytes,
or, without a size, because it ends inside a character. -/
structure Fault where
  index : Nat
  size : Option Nat
deriving DecidableEq, Repr

/-- The first fault of a byte string `index` bytes into a longer one. -/
def faultFrom? (index : Nat) : List UInt8 → Option Fault
  | [] => none
  | b :: bs =>
    match _h : head b bs with
    | .char _ rest => faultFrom? (index + (bs.length + 1 - rest.length)) rest
    | .malformed size _ => some ⟨index, some size⟩
    | .incomplete => some ⟨index, none⟩
termination_by bs => bs.length
decreasing_by
  have := head_rest_le b bs
  simp only [_h, Head.rest] at this
  simp only [List.length_cons]; omega

/-- The first fault of a byte string, if it has one. -/
def fault? (bytes : List UInt8) : Option Fault := faultFrom? 0 bytes

/-- The wording of a fault. -/
def Fault.message (f : Fault) : String :=
  match f.size with
  | some size => s!"invalid utf-8 sequence of {size} bytes from index {f.index}"
  | none => s!"incomplete utf-8 byte sequence from index {f.index}"

end MarketDag.Utf8
