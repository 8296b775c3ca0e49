import MarketDag.Document.Kind
import MarketDag.Number.Binary64
import MarketDag.Proofs.Address.CidText

/-!
# Schemas

The text that a kind keeps names one schema, whose digest is given here as a number
(`Kind.ofSchemaText_schemaText`), and no two kinds have the same schema (`Kind.schema_injective`).
-/

namespace MarketDag

/-! ## Texts that name a schema -/

/-- A text names the identifier that it is read as, if this one has the form of a schema. -/
theorem Cid.ofSchemaText_eq_ok {s : String} {c : Cid} :
    ofSchemaText s = .ok c ↔ ofText s = .ok c ∧ c.NamesSchema := by
  unfold ofSchemaText
  cases ofText s with
  | error fault => simp
  | ok c' =>
    by_cases hform : c'.NamesSchema
    · have hsame : c' = c → c.NamesSchema := fun h => h ▸ hform
      simpa [hform] using hsame
    · have hother : c' = c → ¬ c.NamesSchema := fun h => h ▸ hform
      simpa [hform] using hother

/-- A text that names no schema either is no identifier or one of another form. -/
theorem Cid.ofSchemaText_eq_error {s : String} {fault : SchemaFault} :
    ofSchemaText s = .error fault ↔
      (∃ e, ofText s = .error e ∧ fault = .unreadable e) ∨
        ∃ c, ofText s = .ok c ∧ ¬ c.NamesSchema ∧ fault = .otherForm := by
  unfold ofSchemaText
  cases ofText s with
  | error e => simp [eq_comm]
  | ok c => by_cases hform : c.NamesSchema <;> simp [hform, eq_comm]

namespace Kind

/-! ## The schemas of the kinds -/

/-- The digest of a kind's schema, read as a number. -/
def schemaNumber : Kind → Nat
  | .outcomeSpace =>
    0x4723b0fbfa586ad3491cff6435dfe9183adcb2f1a05134fe8ece099a9dc7a4a0
  | .outcomeSpaceScalar =>
    0xeddb900b94a4e1356fbed3890037db6e0947f3416e30457677c9168f92d44eff
  | .outcomeSpaceTimeSeries =>
    0x7be83df1879281f859782e18f13d5eb210618f361593fa94d23df40eab711789
  | .outcomePoint =>
    0x2d29bcd87f83abd512762052842427e800dfd8dde867dcc902696c5ec4ef1faf
  | .outcomePointEvent =>
    0xf48ec79b1d20f52f208ade211c9ddd8c1709bca998cbdd3ed7a359095b93b903
  | .outcomePointTimeSeries =>
    0x7997dca13e0894bd99966b9e1f3859b6e93ae7cb1dc366e93c8a49c1c53f0a00
  | .oracleConfig =>
    0xa220b4a67cf7b43ce8652b93da8d30c8792690fdf0980963e8854497970a6172
  | .oracleConfigPrototype1 =>
    0x16df1de5ee2c04c01c8472d234cc0323b6b0e592a27c9d81e91a36d92fd81a24
  | .oracleFallback =>
    0x468f86577703a22e95090531d145c94521ace4d69670e6ea55155efdacb467b9

/-- The identifier of the schema that a kind is tied to. -/
def schema (k : Kind) : Cid :=
  .v1 Cid.dagCbor ⟨Multihash.sha256Code, BigEndian.encode 32 k.schemaNumber, by
    rw [BigEndian.length_encode]; decide⟩

/-- Every schema has the new form, the codec of concise binary trees and a SHA-256 digest. -/
theorem namesSchema_schema (k : Kind) : k.schema.NamesSchema := ⟨rfl, rfl, rfl⟩

theorem toText_schema (k : Kind) : k.schema.toText = k.schemaText := by
  cases k <;> decide +kernel

theorem ofText_schemaText (k : Kind) : Cid.ofText k.schemaText = .ok k.schema := by
  rw [← toText_schema, Cid.ofText_toText]

/-- The text of a kind is read as the identifier of its schema. -/
theorem ofSchemaText_schemaText (k : Kind) : Cid.ofSchemaText k.schemaText = .ok k.schema :=
  Cid.ofSchemaText_eq_ok.mpr ⟨k.ofText_schemaText, k.namesSchema_schema⟩

theorem ofText_schemaText_eq_ok {k : Kind} {c : Cid} :
    Cid.ofText k.schemaText = .ok c ↔ k.schema = c := by
  rw [ofText_schemaText, Except.ok.injEq]

theorem schemaText_injective {k l : Kind} (h : k.schemaText = l.schemaText) : k = l := by
  revert h
  cases k <;> cases l <;> decide

/-- No two kinds have the same schema, since no two have the same text. -/
theorem schema_injective {k l : Kind} (h : k.schema = l.schema) : k = l :=
  schemaText_injective (by rw [← toText_schema, h, toText_schema])

end Kind

end MarketDag
