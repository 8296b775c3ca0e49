import MarketDag.Proofs.Ipld.Canonical
import MarketDag.Proofs.Shape.Equality
import MarketDag.Shape.Reader

/-!
# Faithful sources

A source is faithful when it gives back the leaves, lists and records that were written as trees,
the entries of a record in any order (`Faithful`).  A shape can be read back from a faithful
source if its parts cannot be mixed up (`Shape.Sound`).
-/

namespace MarketDag

/-! ## Sound shapes -/

/-- Has every value of a leaf its own tree, free of links unless there may be some? -/
def Leaf.Sound (links : Bool) : Leaf → Bool
  | .link => links
  | .choice names => decide names.Nodup
  | .optional (.optional _) => false
  | .optional inner => inner.Sound links
  | _ => true

/-- Is the tree of a value never null? -/
def Shape.neverNull : Shape → Bool
  | .leaf (.optional _) => false
  | .either _ first second => first.neverNull && second.neverNull
  | _ => true

theorem Leaf.sound_inner {links : Bool} {inner : Leaf}
    (h : (Leaf.optional inner).Sound links = true) :
    inner.Sound links = true ∧ (Shape.leaf inner).neverNull = true := by
  cases inner <;> first | exact ⟨h, rfl⟩ | cases h

/-- The keys that a record has to have. -/
def Fields.requiredKeys : Fields → List String
  | .nil => []
  | .required key _ rest => key :: rest.requiredKeys
  | .optional _ _ rest => rest.requiredKeys
  | .defaulted _ _ _ rest => rest.requiredKeys

/-- Has one record to have a key that the other one does not know? -/
def Shape.apart : Shape → Shape → Bool
  | .record _ fields, .record _ others => fields.requiredKeys.any fun key => key ∉ others.keys
  | _, _ => false

mutual

/-- Has every value of a shape its own tree, free of links unless there may be some? -/
def Shape.Sound (links : Bool) : Shape → Bool
  | .leaf leaf => leaf.Sound links
  | .list item => item.Sound links
  | .record _ fields => decide fields.keys.Nodup && fields.Sound links
  | .either _ first second => first.Sound false && second.Sound false && first.apart second

/-- Are the shapes of all fields sound? -/
def Fields.Sound (links : Bool) : Fields → Bool
  | .nil => true
  | .required _ shape rest => shape.Sound links && rest.Sound links
  | .optional _ shape rest => shape.Sound links && shape.neverNull && rest.Sound links
  | .defaulted _ leaf _ rest => leaf.Sound links && rest.Sound links

end

/-! ## Depth -/

/-- How deep the trees of a leaf are nested. -/
def Leaf.height : Leaf → Nat
  | .headers => 1
  | .optional inner => inner.height
  | _ => 0

/-- The budget of depth that the reading of a leaf takes. -/
def Leaf.budget : Leaf → Nat
  | .optional inner => inner.budget + 1
  | _ => 1

mutual

/-- How deep the trees of a shape are nested. -/
def Shape.height : Shape → Nat
  | .leaf leaf => leaf.height
  | .list item => item.height + 1
  | .record _ fields => fields.height + 1
  | .either _ first second => max first.height second.height

/-- How deep the trees of the fields are nested. -/
def Fields.height : Fields → Nat
  | .nil => 0
  | .required _ shape rest => max shape.height rest.height
  | .optional _ shape rest => max shape.height rest.height
  | .defaulted _ leaf _ rest => max leaf.height rest.height

end

mutual

/-- The budget of depth that the reading of a shape takes. -/
def Shape.budget : Shape → Nat
  | .leaf leaf => leaf.budget
  | .list item => item.budget + 1
  | .record _ fields => fields.budget + 1
  | .either _ first second => 2 * max first.height second.height + 1

/-- The budget of depth that the reading of the fields takes. -/
def Fields.budget : Fields → Nat
  | .nil => 0
  | .required _ shape rest => max shape.budget rest.budget
  | .optional _ shape rest => max (shape.budget + 1) rest.budget
  | .defaulted _ leaf _ rest => max leaf.budget rest.budget

end

/-! ## Buffered trees -/

mutual

/-- Is a value what a source may buffer where a tree is written? -/
inductive Represents : Ipld → Buffered → Prop where
  | null : Represents .null .null
  | absent : Represents .null .absent
  | integer (n : Int) : Represents (.integer n) (.integer n)
  | text (s : String) : Represents (.text s) (.text s)
  | list {items : List Ipld} {values : List Buffered} (h : List.Forall₂ Represents items values) :
      Represents (.list items) (.list values)
  | map {entries entries' : List (String × Ipld)} {values : List (Buffered × Buffered)}
      (hperm : entries'.Perm entries) (h : RepresentsEntries entries' values) :
      Represents (.map entries) (.map values)

/-- Are values what a source may buffer where the entries of a map are written in this order? -/
inductive RepresentsEntries : List (String × Ipld) → List (Buffered × Buffered) → Prop where
  | nil : RepresentsEntries [] []
  | cons {key : String} {t : Ipld} {value : Buffered} {entries : List (String × Ipld)}
      {values : List (Buffered × Buffered)} (head : Represents t value)
      (tail : RepresentsEntries entries values) :
      RepresentsEntries ((key, t) :: entries) ((.text key, value) :: values)

end

/-! ## Faithful sources -/

/-- The steps of a record's reader through entries, from some slots to other ones. -/
inductive Steps {m : Type → Type} {σ : Type} (reads : Ipld → m σ → σ → Prop)
    (step : String → σ → m σ) : List (String × Ipld) → σ → σ → Prop where
  | nil (slots : σ) : Steps reads step [] slots slots
  | cons {key : String} {t : Ipld} {es : List (String × Ipld)} {slots slots' last : σ}
      (head : reads t (step key slots) slots') (tail : Steps reads step es slots' last) :
      Steps reads step ((key, t) :: es) slots last

/-- A source whose readers give back what was written as trees: `Reads d t x a` says that, with a
budget of `d`, the reader `x` gives `a` where the tree `t` is written. -/
structure Faithful {m : Type → Type} [Monad m] [MonadExceptOf DecodeFault m] (src : Source m)
    (links : Bool) where
  Reads : {α : Type} → Nat → Ipld → m α → α → Prop
  bind : ∀ {α β : Type} {d : Nat} {t : Ipld} {x : m α} {f : α → m β} {a : α} {b : β},
    Reads d t x a → f a = pure b → Reads d t (x >>= f) b
  leaf : ∀ {leaf : Leaf} {v : leaf.Value} {t : Ipld} {d : Nat}, leaf.Sound links →
    leaf.layout v = .ok t → leaf.budget ≤ d → Reads d t.canonical (src.leaf leaf) (leaf.normal v)
  list : ∀ {α : Type} {d : Nat} {x : m α} {ts : List Ipld} {as : List α},
    List.Forall₂ (fun t a => Reads d t x a) ts as → Reads (d + 1) (.list ts) (src.list x) as
  optional_none : ∀ {α : Type} {d : Nat} {x : m α}, Reads d .null (src.optional x) none
  optional_some : ∀ {α : Type} {d : Nat} {t : Ipld} {x : m α} {a : α}, t ≠ .null →
    Reads d t x a → Reads (d + 1) t (src.optional x) (some a)
  record : ∀ {σ α : Type} {d : Nat} {name : String} {keys : List String} {start : σ}
    {step : String → σ → m σ} {finish : Arrangement → σ → Except DecodeFault α}
    {es : List (String × Ipld)} {a : α},
    (∀ es' : List (String × Ipld), es'.Perm es →
      ∃ last, Steps (Reads d) step es' start last ∧ finish .named last = .ok a) →
    Reads (d + 1) (.map es) (src.record name keys start step finish) a
  buffered : ∀ {α : Type} {h d : Nat} {t : Ipld} {f : Buffered → Except DecodeFault α} {a : α},
    t.PlainWithin h → 2 * h + 1 ≤ d → (∀ value, Represents t value → f value = .ok a) →
    Reads d t (src.buffered >>= fun value => MonadExcept.ofExcept (f value)) a

end MarketDag
