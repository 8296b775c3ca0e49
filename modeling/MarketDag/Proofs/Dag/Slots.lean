import MarketDag.Dag.Slots
import MarketDag.Proofs.Except

/-!
# Slots: part by part

What is done slot by slot goes well when it goes well in each slot.
-/

namespace MarketDag

theorem Family.mem_all (f : Family) : f ∈ all := by cases f <;> decide

namespace Slots

variable {ε : Type} {α β : Family → Type}

theorem mapM_eq_ok {g : (f : Family) → α f → Except ε (β f)} {s : Slots α} {t : Slots β} :
    s.mapM g = .ok t ↔ ∀ f, g f (s.get f) = .ok (t.get f) := by
  constructor
  · intro h f
    obtain ⟨space, hspace, h⟩ := bind_eq_ok.mp h
    obtain ⟨point, hpoint, h⟩ := bind_eq_ok.mp h
    obtain ⟨config, hconfig, h⟩ := bind_eq_ok.mp h
    obtain ⟨fallback, hfallback, h⟩ := bind_eq_ok.mp h
    cases h
    cases f <;> assumption
  · intro h
    refine bind_eq_ok.mpr ⟨_, h .outcomeSpace, bind_eq_ok.mpr ⟨_, h .outcomePoint, ?_⟩⟩
    exact bind_eq_ok.mpr ⟨_, h .oracleConfig, bind_eq_ok.mpr ⟨_, h .oracleFallback, rfl⟩⟩

theorem mapM_congr {γ : Family → Type} {g : (f : Family) → α f → Except ε (γ f)}
    {g' : (f : Family) → β f → Except ε (γ f)} {s : Slots α} {t : Slots β}
    (h : ∀ f, g f (s.get f) = g' f (t.get f)) : s.mapM g = t.mapM g' := by
  have hspace : g _ s.outcomeSpace = g' _ t.outcomeSpace := h .outcomeSpace
  have hpoint : g _ s.outcomePoint = g' _ t.outcomePoint := h .outcomePoint
  have hconfig : g _ s.oracleConfig = g' _ t.oracleConfig := h .oracleConfig
  have hfallback : g _ s.oracleFallback = g' _ t.oracleFallback := h .oracleFallback
  rw [mapM, mapM, hspace, hpoint, hconfig, hfallback]

theorem mem_toList {γ : Type} {s : Slots fun _ => γ} {c : γ} :
    c ∈ s.toList ↔ ∃ f, s.get f = c := by
  constructor
  · intro h
    simp only [toList, List.mem_cons, List.not_mem_nil, or_false] at h
    rcases h with rfl | rfl | rfl | rfl
    exacts [⟨.outcomeSpace, rfl⟩, ⟨.outcomePoint, rfl⟩, ⟨.oracleConfig, rfl⟩,
      ⟨.oracleFallback, rfl⟩]
  · rintro ⟨f, rfl⟩
    cases f <;> simp [toList, get]

end Slots

end MarketDag
