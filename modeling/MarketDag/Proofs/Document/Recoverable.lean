import MarketDag.Cbor.Reader
import MarketDag.Dag.Root
import MarketDag.Document.Basic
import MarketDag.Proofs.Shape.Faithful

/-!
# Types that are read back

All types of documents, and roots, have exactly the values of their shapes, and their shapes are
sound (`Recoverable`).
-/

namespace MarketDag

/-! ## Choices -/

/-- Every index of a name belongs to a value. -/
class Choice.Exact (α : Type) [Choice α] : Prop where
  index_ofIndex : ∀ i, Choice.index (Choice.ofIndex i : α) = i

instance : Choice.Exact ApiStandard := ⟨by decide⟩

instance : Choice.Exact SpecVariant := ⟨by decide⟩

instance : Choice.Exact AuthLocation := ⟨by decide⟩

instance : Choice.Exact DateFormat := ⟨by decide⟩

instance : Choice.Exact Frequency := ⟨by decide⟩

attribute [simp] Choice.Exact.index_ofIndex

/-! ## Exact types -/

/-- A type with a value for each value of its shape. -/
class Shaped.Exact (α : Type) [Shaped α] : Prop where
  toValue_ofValue : ∀ v, Shaped.toValue (Shaped.ofValue v : α) = v

attribute [simp] Shaped.Exact.toValue_ofValue

instance : Shaped.Exact JsonPathSpec where
  toValue_ofValue v := by
    obtain ⟨standard, variety, url, datePath, valuePath, authLocation, authName, authPrefix,
      tokenParam, tokenPath, customDateFormat, dateFormat, headers, maxPages, timestampScale,
      timezone, ⟨⟩⟩ := v
    simp [Shaped.toValue, Shaped.ofValue]

instance : Shaped.Exact GenericSpec where
  toValue_ofValue v := by
    obtain ⟨standard, variety, ⟨⟩⟩ := v
    simp [Shaped.toValue, Shaped.ofValue]

instance : Shaped.Exact ApiSpec where
  toValue_ofValue v := by
    cases v with
    | inl v => exact congrArg Sum.inl (Shaped.Exact.toValue_ofValue (α := JsonPathSpec) v)
    | inr v => exact congrArg Sum.inr (Shaped.Exact.toValue_ofValue (α := GenericSpec) v)

theorem Case.toEdges_ofEdges (vs : Case.edges.Value) : Case.toEdges (Case.ofEdges vs) = vs := by
  have h : Case.toValue "EdgeCase" ∘ Case.ofValue "EdgeCase" = id := rfl
  rw [toEdges, ofEdges, List.map_map, h, List.map_id]

theorem toValue_comp_ofValue {α : Type} [Shaped α] [Shaped.Exact α] :
    Shaped.toValue ∘ (Shaped.ofValue : (Shaped.shape α).Value → α) = id :=
  funext Shaped.Exact.toValue_ofValue

attribute [simp] Case.toEdges_ofEdges

instance : Shaped.Exact OutcomeSpace where
  toValue_ofValue v := by
    obtain ⟨fspType, description, baseCase, edgeCases, ⟨⟩⟩ := v
    simp [Shaped.toValue, Shaped.ofValue, OutcomeSpace.toFields, Case.toValue, Case.ofValue]

instance : Shaped.Exact ScalarSpace where
  toValue_ofValue v := by
    obtain ⟨fspType, description, baseCase, edgeCases, units, sourceName, sourceUri, ⟨⟩⟩ := v
    simp [Shaped.toValue, Shaped.ofValue, ScalarSpace.toFields, OutcomeSpace.toFields,
      Case.toValue, Case.ofValue]

instance : Shaped.Exact SeriesSpace where
  toValue_ofValue v := by
    obtain ⟨fspType, description, baseCase, edgeCases, units, sourceName, sourceUri, frequency,
      historySpec, ⟨⟩⟩ := v
    have hspec : (historySpec.map Shaped.ofValue).map (Shaped.toValue : ApiSpec → _) =
        historySpec := by
      rw [Option.map_map, toValue_comp_ofValue, Option.map_id, id]
    have hedges := Case.toEdges_ofEdges edgeCases
    have hfrequency := Choice.Exact.index_ofIndex (α := Frequency) frequency
    change (fspType, description, baseCase, Case.toEdges (Case.ofEdges edgeCases), units,
      sourceName, sourceUri, Choice.index (Choice.ofIndex frequency : Frequency),
      (historySpec.map Shaped.ofValue).map (Shaped.toValue : ApiSpec → _), ()) = _
    rw [hspec, hedges, hfrequency]

instance : Shaped.Exact OutcomePoint := ⟨fun _ => rfl⟩

instance : Shaped.Exact EventPoint := ⟨fun _ => rfl⟩

instance : Shaped.Exact Observation := ⟨fun _ => rfl⟩

instance : Shaped.Exact SeriesPoint := ⟨fun _ => rfl⟩

instance : Shaped.Exact OracleConfig := ⟨fun _ => rfl⟩

instance : Shaped.Exact PrototypeOracle where
  toValue_ofValue v := by
    obtain ⟨description, projectUrl, evaluationSpec, ⟨⟩⟩ := v
    have hspec := Shaped.Exact.toValue_ofValue (α := ApiSpec) evaluationSpec
    exact congrArg (fun spec => (description, projectUrl, spec, ())) hspec

instance : Shaped.Exact Fallback := ⟨fun _ => rfl⟩

instance : Shaped.Exact ComponentLink := ⟨fun _ => rfl⟩

instance : Shaped.Exact Root := ⟨fun _ => rfl⟩

/-! ## Recoverable types -/

/-- A type whose values are read back: its shape is sound, and not too deep for the budget. -/
class Recoverable (α : Type) [Shaped α] : Prop extends Shaped.Exact α where
  sound : (Shaped.shape α).Sound true = true
  budget_le : (Shaped.shape α).budget ≤ Cbor.maxDepth

instance : Recoverable Root := ⟨by decide, by decide⟩

instance : Recoverable JsonPathSpec := ⟨by decide, by decide⟩

instance : Recoverable ApiSpec := ⟨by decide, by decide⟩

instance (k : Kind) : Recoverable k.Body := by
  cases k
  · exact (⟨by decide, by decide⟩ : Recoverable OutcomeSpace)
  · exact (⟨by decide, by decide⟩ : Recoverable ScalarSpace)
  · exact (⟨by decide, by decide⟩ : Recoverable SeriesSpace)
  · exact (⟨by decide, by decide⟩ : Recoverable OutcomePoint)
  · exact (⟨by decide, by decide⟩ : Recoverable EventPoint)
  · exact (⟨by decide, by decide⟩ : Recoverable SeriesPoint)
  · exact (⟨by decide, by decide⟩ : Recoverable OracleConfig)
  · exact (⟨by decide, by decide⟩ : Recoverable PrototypeOracle)
  · exact (⟨by decide, by decide⟩ : Recoverable Fallback)

end MarketDag
