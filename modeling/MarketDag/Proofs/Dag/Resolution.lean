import MarketDag.Proofs.Dag.Coherence

/-!
# Links are resolved exactly

A link is resolved when its schema is that of a registered kind of the right family and its document
has a codec that can be read (`ComponentLink.Sound`).  Any other link has one error, that of the
first of these checks that it does not pass (`ComponentLink.Offends`).  A root is resolved when all
its links are, and otherwise fails with the first of them that is not (`Root.resolve_exact`).
-/

namespace MarketDag

/-! ## Links -/

namespace ComponentLink

/-- Is a link's schema that of one of some kinds, this one being of the slot's family, and is its
document written in a codec that can be read? -/
def Sound (ks : List Kind) (slot : Family) (l : ComponentLink) : Prop :=
  ∃ k ∈ ks, k.schema = l.schema ∧ k.family = slot ∧
    (l.data.codec = Cid.dagCbor ∨ l.data.codec = Cid.dagJson)

/-- What a link is refused for.  The schema is looked up first, then the family of its kind is
compared with the slot, and the codec comes last. -/
inductive Offends (ks : List Kind) (slot : Family) (l : ComponentLink) : Error → Prop
  | unknownSchema (hnone : ∀ k ∈ ks, k.schema ≠ l.schema) :
      Offends ks slot l (.unknownSchema l.schema)
  | wrongFamily {k : Kind} (hmem : k ∈ ks) (hschema : k.schema = l.schema)
      (hfamily : k.family ≠ slot) : Offends ks slot l (.invalid (.wrongSlot slot l.schema k))
  | unsupportedCodec {k : Kind} (hmem : k ∈ ks) (hschema : k.schema = l.schema)
      (hfamily : k.family = slot)
      (hcodec : ¬ (l.data.codec = Cid.dagCbor ∨ l.data.codec = Cid.dagJson)) :
      Offends ks slot l (.unsupportedCodec l.data l.data.codec)

variable {registry : Registry} {slot : Family} {l : ComponentLink}

/-- A link is resolved when it is sound. -/
theorem exists_resolve_iff :
    (∃ r, l.resolve registry slot = .ok r) ↔ l.Sound registry.kinds slot := by
  constructor
  · rintro ⟨r, h⟩
    obtain ⟨hkind, hcodec, -⟩ := resolve_eq_ok.mp h
    obtain ⟨hmem, hschema⟩ := Registry.resolve_eq_ok.mp hkind
    exact ⟨r.kind, hmem, hschema, r.family_kind, Cid.ensureSupported_eq_ok.mp hcodec⟩
  · rintro ⟨k, hmem, hschema, hfamily, hcodec⟩
    refine ⟨⟨l.data, k, hfamily⟩, resolve_eq_ok.mpr ⟨?_, ?_, rfl⟩⟩
    · exact Registry.resolve_eq_ok.mpr ⟨hmem, hschema⟩
    · exact Cid.ensureSupported_eq_ok.mpr hcodec

/-- A link that is not resolved fails with what it is refused for. -/
theorem resolve_eq_error {e : Error} :
    l.resolve registry slot = .error e ↔ l.Offends registry.kinds slot e := by
  unfold resolve
  constructor
  · intro h
    rcases bind_eq_error.mp h with h | ⟨k, hk, h⟩
    · obtain ⟨hnone, rfl⟩ := Registry.resolve_eq_error.mp h
      exact .unknownSchema hnone
    · obtain ⟨hmem, hschema⟩ := Registry.resolve_eq_ok.mp hk
      split at h
      · rename_i hfamily
        rcases bind_eq_error.mp h with h | ⟨_, -, h⟩
        · obtain ⟨hcodec, rfl⟩ := Cid.ensureSupported_eq_error.mp h
          exact .unsupportedCodec hmem hschema hfamily hcodec
        · cases h
      · rename_i hfamily
        cases h
        exact .wrongFamily hmem hschema hfamily
  · intro h
    cases h with
    | unknownSchema hnone => exact bind_of_error (Registry.resolve_eq_error.mpr ⟨hnone, rfl⟩)
    | wrongFamily hmem hschema hfamily =>
      refine (bind_of_ok (Registry.resolve_eq_ok.mpr ⟨hmem, hschema⟩)).trans ?_
      rw [dif_neg hfamily]
      rfl
    | unsupportedCodec hmem hschema hfamily hcodec =>
      refine (bind_of_ok (Registry.resolve_eq_ok.mpr ⟨hmem, hschema⟩)).trans ?_
      rw [dif_pos hfamily]
      exact bind_of_error (Cid.ensureSupported_eq_error.mpr ⟨hcodec, rfl⟩)

end ComponentLink

/-! ## Roots -/

namespace Root

variable {ks : List Kind} {registry : Registry}

/-- With a registry of some kinds a root is resolved exactly when all its links are sound, and then
every slot keeps the identifier of its document with the kind whose schema the link has.  Otherwise
the error is that of the first link in the order of the slots that is not sound. -/
theorem resolve_exact (h : Registry.ofKinds ks = .ok registry) (root : Root) :
    ((∃ links, root.resolve registry = .ok links) ↔ ∀ f, (root.get f).Sound ks f) ∧
    (∀ links, root.resolve registry = .ok links → ∀ f,
      (links.get f).data = (root.get f).data ∧ (links.get f).kind ∈ ks ∧
        (links.get f).kind.schema = (root.get f).schema ∧ (links.get f).kind.family = f) ∧
    ∀ e, root.resolve registry = .error e ↔
      ∃ f : Family, (∀ g ∈ f.before, (root.get g).Sound ks g) ∧ (root.get f).Offends ks f e := by
  rw [← Registry.kinds_ofKinds h]
  refine ⟨⟨?_, fun hsound => ?_⟩, fun links hlinks f => ?_, fun e => ?_⟩
  · rintro ⟨links, hlinks⟩ f
    exact ComponentLink.exists_resolve_iff.mp ⟨_, Slots.mapM_eq_ok.mp hlinks f⟩
  · have hall := fun f => ComponentLink.exists_resolve_iff.mpr (hsound f)
    choose links hlinks using hall
    refine ⟨.ofFn links, Slots.mapM_eq_ok.mpr fun f => ?_⟩
    rw [Slots.get_ofFn]
    exact hlinks f
  · have hlink := Slots.mapM_eq_ok.mp hlinks f
    obtain ⟨hkind, -, hdata⟩ := ComponentLink.resolve_eq_ok.mp hlink
    obtain ⟨hmem, hschema⟩ := Registry.resolve_eq_ok.mp hkind
    exact ⟨hdata.symm, hmem, hschema, (links.get f).family_kind⟩
  · rw [resolve, Slots.mapM_eq_error]
    simp only [ComponentLink.exists_resolve_iff, ComponentLink.resolve_eq_error]

/-- The first link is sound.  The second one is of a kind for another slot, to a document that
cannot be read either; and there are no kinds with the schemas of the others. -/
def sampleBroken : Root :=
  let hash : Multihash := ⟨0, [], by decide⟩
  { outcomeSpace := ⟨.v1 Cid.dagJson hash, Kind.outcomeSpace.schema⟩
    outcomePoint := ⟨.v1 0 hash, Kind.oracleConfig.schema⟩
    oracleConfig := ⟨.v1 Cid.dagCbor hash, Kind.outcomePoint.schema⟩
    oracleFallback := ⟨.v1 Cid.dagCbor hash, Kind.oracleFallback.schema⟩ }

theorem resolve_exact_sample : ∃ registry,
    Registry.ofKinds [.oracleConfig, .outcomeSpace] = .ok registry ∧
      sampleBroken.resolve registry =
        .error (.invalid (.wrongSlot .outcomePoint Kind.oracleConfig.schema .oracleConfig)) := by
  obtain ⟨registry, h⟩ := Registry.exists_ofKinds_iff.mpr (by decide :
    [Kind.oracleConfig, .outcomeSpace].Nodup)
  refine ⟨registry, h,
    ((resolve_exact h sampleBroken).2.2 _).mpr ⟨.outcomePoint, fun g hg => ?_, ?_⟩⟩
  · have hg : g = .outcomeSpace := by simpa [Family.before, Family.all] using hg
    subst hg
    exact ⟨.outcomeSpace, by decide, rfl, rfl, .inr rfl⟩
  · exact .wrongFamily (by decide) rfl (by decide)

end Root

end MarketDag
