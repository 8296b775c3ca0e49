import MarketDag.Text.Utf8
import MarketDag.Web.DomainTable
import MarketDag.Web.Punycode

/-!
# Domain names

A domain name of any characters becomes one of ASCII characters: every character is replaced by
what it stands for, and a label that still has others is written in Punycode under the mark
`xn--`.  A label that comes under that mark has to be such a label's encoded form.

Characters are looked at one by one: they are not composed with the marks behind them (NFC), and the
rules for what may stand beside what in a label are not checked, which are those for text from right
to left, for joiners, and for a mark at the front.  So more names are taken than these rules allow.
-/

namespace MarketDag.Domain

/-- The mark of an encoded label. -/
def mark : List Char := ['x', 'n', '-', '-']

/-- The ASCII characters that a name cannot hold. -/
def isForbidden (c : Char) : Bool :=
  c.toNat ≤ 0x20 ∨ c.toNat = 0x7F ∨ "%#/:<>?@[\\]^|".toList.contains c

/-- Is a label an encoded form of a label that needs one? -/
def isEncodedLabel (cs : List Char) : Bool :=
  match Punycode.decode? cs with
  | none => false
  | some label => label.any (128 ≤ ·.toNat) && label.all fun c => image? c = some [c]

/-- The ASCII form of a label. -/
def labelToAscii? (label : List Char) : Option (List Char) :=
  if mark.isPrefixOf label then
    if isEncodedLabel (label.drop mark.length) then some label else none
  else if label.all (·.toNat < 128) then some label
  else some (mark ++ Punycode.encode label)

/-- The ASCII form of a name; none if it has none.  A character and a combining mark behind it stay
two, and no label is refused for its direction, for a joiner or for a mark at its front. -/
def toAscii? (name : List Char) : Option (List Char) := do
  let plain := (← name.mapM image?).flatten
  let labels ← (plain.splitOn '.').mapM labelToAscii?
  let ascii := ['.'].intercalate labels
  if ascii.any isForbidden then none else some ascii

/-- The ASCII form of a name given in bytes. -/
def ofBytes? (bytes : List UInt8) : Option (List Char) := do
  toAscii? (← Utf8.decode? bytes).toList

end MarketDag.Domain
