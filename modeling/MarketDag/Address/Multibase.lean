import MarketDag.Text.Utf8

/-!
# Multibase

Bytes as text in a base that the text's first character names.  A base either cuts the bytes
into groups of bits, one symbol a group, or into pairs, three symbols a pair, or reads them as one
number in its radix.
-/

namespace MarketDag.Multibase

/-! ## Groups of bits -/

/-- The lowest `width` bits of a number, highest first. -/
def toBits : (width : Nat) → Nat → List Bool
  | 0, _ => []
  | width + 1, n => n.testBit width :: toBits width n

/-- The number of bits that stand highest first. -/
def ofBits (bits : List Bool) : Nat := bits.foldl (fun n b => 2 * n + b.toNat) 0

/-- Cuts bits into groups of `width`, zeros filling the last one. -/
def groups (width : Nat) (bits : List Bool) : List (List Bool) :=
  if _h : width = 0 ∨ bits = [] then []
  else
    let group := bits.take width
    (group ++ List.replicate (width - group.length) false) :: groups width (bits.drop width)
termination_by bits.length
decreasing_by
  have := List.length_pos_iff.2 (fun e => _h (Or.inr e))
  simp only [List.length_drop]; omega

/-- The groups of `width` bits of a byte string, as numbers. -/
def pack (width : Nat) (bytes : List UInt8) : List Nat :=
  (groups width (bytes.flatMap fun b => toBits 8 b.toNat)).map ofBits

/-- The bytes of groups of `width` bits; what is left over at the end has to be shorter than a
group and zero. -/
def unpack (width : Nat) (values : List Nat) : Option (List UInt8) :=
  let bits := values.flatMap (toBits width)
  let whole := bits.length / 8 * 8
  let left := bits.drop whole
  if left.length < width ∧ left.all (! ·) then
    some ((groups 8 (bits.take whole)).map fun g => (ofBits g).toUInt8)
  else none

/-! ## One number -/

/-- The big-endian digits of a number in a radix of at least two. -/
def digits (radix n : Nat) : List Nat :=
  if _h : 2 ≤ radix ∧ 0 < n then digits radix (n / radix) ++ [n % radix] else []
termination_by n
decreasing_by exact Nat.div_lt_self _h.2 _h.1

/-- The number of big-endian digits. -/
def ofDigits (radix : Nat) (ds : List Nat) : Nat := ds.foldl (fun n d => n * radix + d) 0

/-- Digits in another radix: zeros in front stand for themselves, the rest for one number. -/
def changeRadix (source target : Nat) (ds : List Nat) : List Nat :=
  List.replicate (ds.takeWhile (· = 0)).length 0 ++ digits target (ofDigits source ds)

/-! ## Pairs of bytes -/

/-- The bytes of groups of three digits, lowest digit first, that stand for two bytes each. Two
digits at the end stand for one byte, of whose number only the lowest eight bits count. -/
def unpair (radix : Nat) : List Nat → Option (List UInt8)
  | [] => some []
  | [_] => none
  | [a, b] => some [(a + b * radix).toUInt8]
  | a :: b :: c :: ds => do
    let n := a + b * radix + c * radix * radix
    if n < UInt16.size then some ((n / 256).toUInt8 :: n.toUInt8 :: (← unpair radix ds)) else none

/-! ## Bases -/

/-- How a base writes bytes. -/
inductive Scheme where
  /-- The text's own bytes. -/
  | raw
  /-- A symbol for each group of so many bits. -/
  | grouped (width : Nat)
  /-- A symbol for each group, and equals signs up to a block of so many symbols. -/
  | padded (width block : Nat)
  /-- Three digits for each pair of bytes. -/
  | paired
  /-- The digits of one number. -/
  | positional
deriving DecidableEq, Repr

/-- A base: the character that names it, its scheme, its symbols in order, and whether a letter
may stand in either case. -/
structure Base where
  code : Char
  scheme : Scheme
  symbols : List Char
  foldsCase : Bool
deriving Repr

/-- The decimal digits in order. -/
def decimals : List Char := "0123456789".toList

/-- The small letters in order. -/
def smalls : List Char := "abcdefghijklmnopqrstuvwxyz".toList

/-- The capital letters in order. -/
def capitals : List Char := "ABCDEFGHIJKLMNOPQRSTUVWXYZ".toList

/-- Letters, then the digits from two to seven. -/
def base32 (letters : List Char) : List Char := letters ++ "234567".toList

/-- Digits, then the letters up to v. -/
def base32hex (letters : List Char) : List Char := decimals ++ letters.take 22

/-- Digits and letters without those that look alike. -/
def base58 (first second : List Char) : List Char :=
  (decimals ++ first ++ second).filter fun c => c ≠ '0' ∧ c ≠ 'O' ∧ c ≠ 'I' ∧ c ≠ 'l'

/-- Capital letters, small letters, digits and two marks. -/
def base64 (marks : List Char) : List Char := capitals ++ smalls ++ decimals ++ marks

/-- A pictograph for each byte. -/
def pictographs : List Char :=
  ("🚀🪐☄🛰🌌🌑🌒🌓🌔🌕🌖🌗🌘🌍🌏🌎🐉☀💻🖥💾💿😂❤😍🤣😊🙏💕😭😘👍😅👏😁🔥🥰💔💖💙😢🤔😆🙄💪😉☺👌🤗💜😔😎😇🌹🤦🎉💞✌✨🤷😱😌🌸🙌" ++
   "😋💗💚😏💛🙂💓🤩😄😀🖤😃💯🙈👇🎶😒🤭❣😜💋👀😪😑💥🙋😞😩😡🤪👊🥳😥🤤👉💃😳✋😚😝😴🌟😬🙃🍀🌷😻😓⭐✅🥺🌈😈🤘💦✔😣🏃💐☹🎊💘😠☝" ++
   "😕🌺🎂🌻😐🖕💝🙊😹🗣💫💀👑🎵🤞😛🔴😤🌼😫⚽🤙☕🏆🤫👈😮🙆🍻🍃🐶💁😲🌿🧡🎁⚡🌞🎈❌✊👋😰🤨😶🤝🚶💰🍓💢🤟🙁🚨💨🤬✈🎀🍺🤓😙💟🌱" ++
   "😖👶🥴▶➡❓💎💸⬇😨🌚🦋😷🕺⚠🙅😟😵👎🤲🤠🤧📌🔵💅🧐🐾🍒😗🤑🌊🤯🐷☎💧😯💆👆🎤🙇🍑❄🌴💣🐸💌📍🥀🤢👅💡💩👐📸👻🤐🤮🎼🥵🚩🍎🍊👼💍📣🥂").toList

/-- Base 32 with small letters. -/
def base32Lower : Base := ⟨'b', .grouped 5, base32 smalls, true⟩

/-- Base 58 with capitals before small letters. -/
def base58btc : Base := ⟨'z', .positional, base58 capitals smalls, false⟩

/-- Base 64 with plus and slash and without equals signs. -/
def base64Plain : Base := ⟨'m', .grouped 6, base64 ['+', '/'], false⟩

/-- Every base that has a code. -/
def bases : List Base :=
  [⟨'\x00', .raw, [], false⟩,
   ⟨'0', .grouped 1, decimals.take 2, false⟩,
   ⟨'7', .grouped 3, decimals.take 8, false⟩,
   ⟨'9', .positional, decimals, false⟩,
   ⟨'f', .grouped 4, decimals ++ smalls.take 6, true⟩,
   ⟨'F', .grouped 4, decimals ++ capitals.take 6, true⟩,
   base32Lower,
   ⟨'B', .grouped 5, base32 capitals, true⟩,
   ⟨'c', .padded 5 8, base32 smalls, true⟩,
   ⟨'C', .padded 5 8, base32 capitals, true⟩,
   ⟨'v', .grouped 5, base32hex smalls, true⟩,
   ⟨'V', .grouped 5, base32hex capitals, true⟩,
   ⟨'t', .padded 5 8, base32hex smalls, true⟩,
   ⟨'T', .padded 5 8, base32hex capitals, true⟩,
   ⟨'h', .grouped 5, "ybndrfg8ejkmcpqxot1uwisza345h769".toList, false⟩,
   ⟨'k', .positional, decimals ++ smalls, true⟩,
   ⟨'K', .positional, decimals ++ capitals, true⟩,
   ⟨'R', .paired, decimals ++ capitals ++ " $%*+-./:".toList, true⟩,
   base58btc,
   ⟨'Z', .positional, base58 smalls capitals, false⟩,
   base64Plain,
   ⟨'M', .padded 6 4, base64 ['+', '/'], false⟩,
   ⟨'u', .grouped 6, base64 ['-', '_'], false⟩,
   ⟨'U', .padded 6 4, base64 ['-', '_'], false⟩,
   ⟨'🚀', .grouped 8, pictographs, false⟩]

namespace Base

/-- The symbol of a value. -/
def symbol (base : Base) (v : Nat) : Char := base.symbols.getD v ' '

/-- The value of a symbol. -/
def value? (base : Base) (c : Char) : Option Nat :=
  match base.symbols.idxOf? c with
  | some v => some v
  | none =>
    if base.foldsCase then
      match base.symbols.idxOf? c.toLower with
      | some v => some v
      | none => base.symbols.idxOf? c.toUpper
    else none

/-- The values of a run of symbols. -/
def values? (base : Base) (cs : List Char) : Option (List Nat) := cs.mapM base.value?

/-- The symbols of a block without the equals signs at its end. -/
def unpadded (block : List Char) : List Char := (block.reverse.dropWhile (· = '=')).reverse

/-- Reads blocks of `block` symbols, each of which may end in equals signs. -/
def decodeBlocks (base : Base) (width block : Nat) : (fuel : Nat) → List Char → Option (List UInt8)
  | _, [] => some []
  | 0, _ => none
  | fuel + 1, cs =>
    if cs.length < block then none
    else
      let symbols := unpadded (cs.take block)
      if symbols.isEmpty then none
      else do
        let bytes ← base.values? symbols >>= unpack width
        let rest ← base.decodeBlocks width block fuel (cs.drop block)
        some (bytes ++ rest)

/-- The bytes that a text in this base stands for. -/
def decode? (base : Base) (cs : List Char) : Option (List UInt8) :=
  match base.scheme with
  | .raw => some (cs.flatMap Utf8.encodeChar)
  | .grouped width => base.values? cs >>= unpack width
  | .padded width block => base.decodeBlocks width block cs.length cs
  | .paired => base.values? cs >>= unpair base.symbols.length
  | .positional => do
    let ds ← base.values? cs
    some ((changeRadix base.symbols.length 256 ds).map Nat.toUInt8)

/-- Bytes in a base that writes a symbol for each group of `width` bits. -/
def encodeGroups (base : Base) (width : Nat) (bytes : List UInt8) : List Char :=
  (pack width bytes).map base.symbol

/-- Bytes as one number in a base. -/
def encodeNumber (base : Base) (bytes : List UInt8) : List Char :=
  (changeRadix 256 base.symbols.length (bytes.map UInt8.toNat)).map base.symbol

end Base

/-- The bytes of a text whose first character names its base. -/
def decode? : List Char → Option (List UInt8)
  | [] => none
  | code :: cs => do
    let base ← bases.find? (·.code = code)
    base.decode? cs

end MarketDag.Multibase
