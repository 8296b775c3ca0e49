import MarketDag.Address.Cid
import MarketDag.Number.Binary64

/-!
# Trees

The data model of linked blocks: scalars, bytes, lists, maps from texts, and links.  A tree is
canonical when the keys of every map are in ascending order; `canonical` puts them so.
-/

namespace MarketDag

/-- A tree of the data model. -/
inductive Ipld where
  | null
  | bool (b : Bool)
  | integer (n : Int)
  | float (x : Binary64)
  | text (s : String)
  | bytes (b : List UInt8)
  | list (items : List Ipld)
  | map (entries : List (String × Ipld))
  | link (cid : Cid)

/-! ## Sorting by keys -/

/-- Puts an entry in front of the first one that it comes before. -/
def insertEntry {α : Type} (before : String → String → Bool) (entry : String × α) :
    List (String × α) → List (String × α)
  | [] => [entry]
  | e :: es => if before e.1 entry.1 then e :: insertEntry before entry es else entry :: e :: es

/-- Sorts entries by their keys. -/
def sortEntries {α : Type} (before : String → String → Bool) :
    List (String × α) → List (String × α)
  | [] => []
  | e :: es => insertEntry before e (sortEntries before es)

/-- The order of texts by their characters, which is that of their bytes. -/
def textBefore (a b : String) : Bool := a < b

/-- The order of texts by the number of their bytes, then by their characters. -/
def shorterBefore (a b : String) : Bool :=
  a.utf8ByteSize < b.utf8ByteSize ∨ (a.utf8ByteSize = b.utf8ByteSize ∧ a < b)

namespace Ipld

/-! ## Canonical trees -/

mutual

/-- The tree with the keys of every map in ascending order. -/
def canonical : Ipld → Ipld
  | .list items => .list (canonicalItems items)
  | .map entries => .map (sortEntries textBefore (canonicalEntries entries))
  | .null => .null
  | .bool b => .bool b
  | .integer n => .integer n
  | .float x => .float x
  | .text s => .text s
  | .bytes b => .bytes b
  | .link cid => .link cid

/-- The items of a list, each canonical. -/
def canonicalItems : List Ipld → List Ipld
  | [] => []
  | item :: items => item.canonical :: canonicalItems items

/-- The entries of a map, each canonical. -/
def canonicalEntries : List (String × Ipld) → List (String × Ipld)
  | [] => []
  | (key, value) :: entries => (key, value.canonical) :: canonicalEntries entries

end

/-! ## Equality -/

mutual

/-- Are two trees equal? All numbers that are none count as one. -/
def same : Ipld → Ipld → Bool
  | .null, .null => true
  | .bool a, .bool b => a = b
  | .integer a, .integer b => a = b
  | .float a, .float b => a = b ∨ (a.isZero ∧ b.isZero) ∨ (a.isNaN ∧ b.isNaN)
  | .text a, .text b => a = b
  | .bytes a, .bytes b => a = b
  | .list a, .list b => sameItems a b
  | .map a, .map b => sameEntries a b
  | .link a, .link b => a = b
  | _, _ => false

/-- Are two lists of trees equal? -/
def sameItems : List Ipld → List Ipld → Bool
  | [], [] => true
  | a :: as, b :: bs => a.same b && sameItems as bs
  | _, _ => false

/-- Are the entries of two maps equal? -/
def sameEntries : List (String × Ipld) → List (String × Ipld) → Bool
  | [], [] => true
  | (k, a) :: as, (l, b) :: bs => k = l && a.same b && sameEntries as bs
  | _, _ => false

end

/-! ## Finite trees -/

mutual

/-- Are all numbers of a tree finite? -/
def isFinite : Ipld → Bool
  | .float x => x.isFinite
  | .list items => finiteItems items
  | .map entries => finiteEntries entries
  | _ => true

/-- Are all numbers of a list finite? -/
def finiteItems : List Ipld → Bool
  | [] => true
  | item :: items => item.isFinite && finiteItems items

/-- Are all numbers of the entries of a map finite? -/
def finiteEntries : List (String × Ipld) → Bool
  | [] => true
  | (_, value) :: entries => value.isFinite && finiteEntries entries

end

end Ipld

end MarketDag
