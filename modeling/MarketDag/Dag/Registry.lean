import MarketDag.Error
import MarketDag.Table

/-!
# Registries

A registry finds kinds by their schemas and schemas by their kinds, by a table for each direction.
Both tables are filled in one pass over the kinds, whose schemas are read from their texts.
-/

namespace MarketDag

/-! ## Registration -/

/-- Kinds by their schemas, and schemas by their kinds. -/
structure SchemaTables where
  kinds : Table Cid Kind := {}
  schemas : Table Kind Cid := {}

namespace SchemaTables

/-- Registers one more kind, under the schema that its text names. -/
def register (t : SchemaTables) (k : Kind) : Except Error SchemaTables := do
  let schema ← (Cid.ofSchemaText k.schemaText).mapError fun fault =>
    .misconfigured (.badSchema k fault)
  -- the table tells for which kind the schema stood there before
  match t.kinds.insert schema k with
  | (some existing, _) => throw (.misconfigured (.registeredTwice schema existing k))
  | (none, kinds) => return ⟨kinds, (t.schemas.insert k schema).2⟩

/-- The tables after the registration of some kinds, one after the other. -/
def ofKinds (ks : List Kind) : Except Error SchemaTables := ks.foldlM register {}

end SchemaTables

/-! ## Registries -/

/-- Tables that come from the registration of some kinds. -/
structure Registry where
  tables : SchemaTables
  registered : ∃ ks, SchemaTables.ofKinds ks = .ok tables

namespace Registry

/-- The registry without kinds. -/
def empty : Registry := ⟨{}, [], rfl⟩

/-- The registry of some kinds. -/
def ofKinds (ks : List Kind) : Except Error Registry :=
  match h : SchemaTables.ofKinds ks with
  | .ok tables => .ok ⟨tables, ks, h⟩
  | .error e => .error e

/-- The registry of all kinds: their registration does not fail. -/
def full : Registry := (ofKinds Kind.all).toOption.getD empty

/-- The kind that a schema is registered for. -/
def resolve (r : Registry) (schema : Cid) : Except Error Kind :=
  match r.tables.kinds.get? schema with
  | some k => .ok k
  | none => .error (.unknownSchema schema)

/-- The schema of a registered kind. -/
def schema? (r : Registry) (k : Kind) : Option Cid := r.tables.schemas.get? k

/-- The number of kinds. -/
def size (r : Registry) : Nat := r.tables.kinds.size

end Registry

end MarketDag
