import MarketDag.Address.Cid

/-!
# Kinds of documents

There are nine kinds of documents in four families, one family for each part of a product's
metadata.  Every kind is tied to one schema, whose content identifier is kept as a text.
-/

namespace MarketDag

/-! ## Families -/

/-- The part of the metadata that a document can be. -/
inductive Family where
  | outcomeSpace
  | outcomePoint
  | oracleConfig
  | oracleFallback
deriving DecidableEq, Repr

/-- The name of a family, which is also the key of its part. -/
def Family.name : Family → String
  | .outcomeSpace => "outcome_space"
  | .outcomePoint => "outcome_point"
  | .oracleConfig => "oracle_config"
  | .oracleFallback => "oracle_fallback"

instance : ToString Family := ⟨Family.name⟩

/-- The families in the order of their parts. -/
def Family.all : List Family := [.outcomeSpace, .outcomePoint, .oracleConfig, .oracleFallback]

/-! ## Kinds -/

/-- The kind of a document. -/
inductive Kind where
  | outcomeSpace
  | outcomeSpaceScalar
  | outcomeSpaceTimeSeries
  | outcomePoint
  | outcomePointEvent
  | outcomePointTimeSeries
  | oracleConfig
  | oracleConfigPrototype1
  | oracleFallback
deriving DecidableEq, Repr

namespace Kind

/-- The name of a kind. -/
def name : Kind → String
  | .outcomeSpace => "OutcomeSpace"
  | .outcomeSpaceScalar => "OutcomeSpaceScalar"
  | .outcomeSpaceTimeSeries => "OutcomeSpaceTimeSeries"
  | .outcomePoint => "OutcomePoint"
  | .outcomePointEvent => "OutcomePointEvent"
  | .outcomePointTimeSeries => "OutcomePointTimeSeries"
  | .oracleConfig => "OracleConfig"
  | .oracleConfigPrototype1 => "OracleConfigPrototype1"
  | .oracleFallback => "OracleFallback"

instance : ToString Kind := ⟨name⟩

/-- All kinds in their order. -/
def all : List Kind :=
  [.outcomeSpace, .outcomeSpaceScalar, .outcomeSpaceTimeSeries, .outcomePoint, .outcomePointEvent,
   .outcomePointTimeSeries, .oracleConfig, .oracleConfigPrototype1, .oracleFallback]

theorem mem_all (k : Kind) : k ∈ all := by cases k <;> decide

/-- The kind of a name. -/
def ofName? (s : String) : Option Kind := all.find? (·.name = s)

/-- The family that a kind belongs to. -/
def family : Kind → Family
  | .outcomeSpace | .outcomeSpaceScalar | .outcomeSpaceTimeSeries => .outcomeSpace
  | .outcomePoint | .outcomePointEvent | .outcomePointTimeSeries => .outcomePoint
  | .oracleConfig | .oracleConfigPrototype1 => .oracleConfig
  | .oracleFallback => .oracleFallback

/-! ## Schemas -/

/-- The text of the schema that a kind is tied to. -/
def schemaText : Kind → String
  | .outcomeSpace => "bafyreicheoypx6synljushh7mq2572iyhlolf4nake2p5dwobgnj3r5eua"
  | .outcomeSpaceScalar => "bafyreihn3oiaxffe4e2w7pwtreadpw3obfd7gqlogbcxm56jc2hzfvco74"
  | .outcomeSpaceTimeSeries => "bafyreid35a67db4sqh4fs6boddyt2xvscbqy6nqvsp5jjur56qhkw4ixre"
  | .outcomePoint => "bafyreibnfg6nq74dvpkre5rakkccij7iadp5rxpim7omsatjnrpmj3y7v4"
  | .outcomePointEvent => "bafyreihur3dzwhja6uxsbcw6eeoj3xmmc4e3zkmyzpot5v5dleevxe5zam"
  | .outcomePointTimeSeries => "bafyreidzs7okcpqiss6ztftltyptqwnw5e5opsy5yntospekjha4kpykaa"
  | .oracleConfig => "bafyreifcec2km7hxwq6oqzjlspni2mgipetjb7pqtaewh2efislzoctboi"
  | .oracleConfigPrototype1 => "bafyreiaw34o6l3rmatabzbds2i2myazdw2yolevcpsoyd2i2g3ms7wa2eq"
  | .oracleFallback => "bafyreicgr6dfo5yduixjkcifghiulskfegwojvuwodtouvivl362zndhxe"

end Kind

/-- Why a text names no schema. -/
inductive SchemaFault where
  /-- A text that is no identifier. -/
  | unreadable (fault : Cid.Fault)
  /-- An identifier of the old form, of another codec or with another hash function. -/
  | otherForm
deriving DecidableEq, Repr

/-- Is this an identifier of the new form, for a concise binary tree, with a SHA-256 digest? -/
def Cid.NamesSchema (c : Cid) : Prop :=
  c.version = 1 ∧ c.codec = Cid.dagCbor ∧ c.hash.code = Multihash.sha256Code

instance (c : Cid) : Decidable c.NamesSchema := inferInstanceAs (Decidable (_ ∧ _ ∧ _))

/-- The identifier of a schema that a text names. -/
def Cid.ofSchemaText (s : String) : Except SchemaFault Cid :=
  match Cid.ofText s with
  | .ok c => if c.NamesSchema then .ok c else .error .otherForm
  | .error fault => .error (.unreadable fault)

end MarketDag
