import MarketDag.Archive.Basic
import MarketDag.Dag.Metadata
import MarketDag.Proofs.Dag.Block
import MarketDag.Proofs.Dag.Slots

/-!
# Errors by kind

Which kinds of errors the steps of an upload and of a download have.  Only a check of bytes against
their identifier (`Cid.verify`) says that they do not belong to it.
-/

namespace MarketDag

/-- Is an error of one of some kinds? -/
def Error.Among (kinds : List ErrorKind) (e : Error) : Prop := e.kind ∈ kinds

/-- The message of an error whose cause begins with fixed words: the kind comes before them. -/
theorem Error.message_of_cause {e : Error} {words text front : String}
    (hcause : e.cause = some (words ++ text)) (hfront : e.kind.name ++ ": " ++ words = front) :
    e.message = some (front ++ text) := by
  rw [message, hcause, ← hfront, String.append_assoc]
  rfl

theorem Fails.among {kinds kinds' : List ErrorKind} {α : Type} {x : Except Error α}
    (h : Fails (Error.Among kinds) x) (hsub : kinds ⊆ kinds') : Fails (Error.Among kinds') x :=
  h.mono fun _ he => hsub he

theorem Fails.mapM {ε : Type} {fair : ε → Prop} {α β : Family → Type}
    {g : (f : Family) → α f → Except ε (β f)} (h : ∀ f a, Fails fair (g f a)) (s : Slots α) :
    Fails fair (s.mapM g) := by
  refine .bind (h _ _) fun _ _ => ?_
  refine .bind (h _ _) fun _ _ => ?_
  refine .bind (h _ _) fun _ _ => ?_
  exact .bind (h _ _) fun _ _ => .ok _

/-! ## Outcomes -/

/-- Have two computations the same result, or errors of one kind? -/
def SameOutcome {α : Type} (x y : Except Error α) : Prop :=
  (∀ a, x = .ok a ↔ y = .ok a) ∧ ∀ e e', x = .error e → y = .error e' → e.kind = e'.kind

theorem SameOutcome.refl {α : Type} (x : Except Error α) : SameOutcome x x := by
  refine ⟨fun a => Iff.rfl, fun e e' he he' => ?_⟩
  cases he.symm.trans he'
  rfl

/-- Two computations that fail, with errors of one kind only, have the same outcome. -/
theorem SameOutcome.of_fails {α : Type} {x y : Except Error α} {kind : ErrorKind}
    (hx : Fails (Error.Among [kind]) x) (hy : Fails (Error.Among [kind]) y)
    (hxnone : ∀ a, x ≠ .ok a) (hynone : ∀ a, y ≠ .ok a) : SameOutcome x y := by
  refine ⟨fun a => iff_of_false (hxnone a) (hynone a), fun e e' he he' => ?_⟩
  rw [List.mem_singleton.mp (hx e he), List.mem_singleton.mp (hy e' he')]

theorem SameOutcome.symm {α : Type} {x y : Except Error α} (h : SameOutcome x y) :
    SameOutcome y x :=
  ⟨fun a => (h.1 a).symm, fun e e' he he' => (h.2 e' e he' he).symm⟩

theorem SameOutcome.error_of_error {α : Type} {x y : Except Error α} (h : SameOutcome x y)
    {e : Error} (he : x = .error e) : ∃ e', y = .error e' := by
  cases hy : y with
  | ok a => cases he.symm.trans ((h.1 a).mpr hy)
  | error e' => exact ⟨e', rfl⟩

/-- Parts with the same outcome make wholes with the same outcome. -/
theorem SameOutcome.bind {α β : Type} {x y : Except Error α} {f g : α → Except Error β}
    (h : SameOutcome x y) (hfg : ∀ a, x = .ok a → SameOutcome (f a) (g a)) :
    SameOutcome (x >>= f) (y >>= g) := by
  cases hx : x with
  | ok a =>
    rw [(h.1 a).mp hx]
    exact hfg a hx
  | error e =>
    obtain ⟨e', hy⟩ := h.error_of_error hx
    rw [hy]
    have hkind : Error.Among [e.kind] e' := List.mem_singleton.mpr (h.2 e e' hx hy).symm
    refine .of_fails (.error (List.mem_singleton.mpr rfl)) (.error hkind) ?_ ?_ <;> rintro _ ⟨⟩

theorem SameOutcome.mapM {α β : Family → Type} {g g' : (f : Family) → α f → Except Error (β f)}
    {s : Slots α} (h : ∀ f, SameOutcome (g f (s.get f)) (g' f (s.get f))) :
    SameOutcome (s.mapM g) (s.mapM g') := by
  refine .bind (h .outcomeSpace) fun _ _ => ?_
  refine .bind (h .outcomePoint) fun _ _ => ?_
  refine .bind (h .oracleConfig) fun _ _ => ?_
  exact .bind (h .oracleFallback) fun _ _ => .refl _

/-! ## Reading -/

theorem Cid.fails_ensureSupported (cid : Cid) :
    Fails (Error.Among [.unsupportedCodec]) cid.ensureSupported := by
  unfold ensureSupported
  split
  · exact .ok _
  · exact .error (List.mem_singleton.mpr rfl)

theorem Block.fails_decode (α : Type) [Shaped α] (cid : Cid) (data : List UInt8) :
    Fails (Error.Among [.validation, .unsupportedCodec]) (decode α cid data) := by
  refine .map ?_ _
  unfold decodeWith
  split
  · exact .mapError fun _ => List.mem_cons_self
  · split
    · exact .mapError fun _ => List.mem_cons_self
    · exact .error (by simp [Error.Among, Error.kind])

/-- Under an identifier with a codec that can be read, only the bytes can be wrong. -/
theorem Block.fails_decode_of_supported (α : Type) [Shaped α] {cid : Cid}
    (h : cid.ensureSupported = .ok ()) (data : List UInt8) :
    Fails (Error.Among [.validation]) (decode α cid data) := by
  refine .map ?_ _
  unfold decodeWith
  split
  · exact .mapError fun _ => List.mem_cons_self
  · rename_i hcbor
    rw [if_pos ((Cid.ensureSupported_eq_ok.mp h).resolve_left hcbor)]
    exact .mapError fun _ => List.mem_cons_self

/-- What is read as a tree is of a codec that can be read. -/
theorem Block.supported_of_decodeTree {cid : Cid} {data : List UInt8} {t : Ipld}
    (h : decodeTree cid data = .ok t) : cid.ensureSupported = .ok () := by
  refine Cid.ensureSupported_eq_ok.mpr ?_
  unfold decodeTree decodeWith at h
  split at h
  · rename_i hcbor
    exact .inl hcbor
  · split at h
    · rename_i hjson
      exact .inr hjson
    · cases h

theorem Kind.fails_decode (k : Kind) (cid : Cid) (data : List UInt8) :
    Fails (Error.Among [.validation, .unsupportedCodec]) (k.decode cid data) := by
  refine .bind (.map (Block.fails_decode k.Body cid data) _) fun d _ => ?_
  exact .bind (.mapError fun _ => List.mem_cons_self) fun _ _ => .ok _

theorem Kind.fails_decodeRaw_of_supported (k : Kind) {cid : Cid}
    (h : cid.ensureSupported = .ok ()) (data : List UInt8) :
    Fails (Error.Among [.validation]) (k.decodeRaw cid data) :=
  .map (Block.fails_decode_of_supported k.Body h data) _

theorem Kind.fails_decode_of_supported (k : Kind) {cid : Cid} (h : cid.ensureSupported = .ok ())
    (data : List UInt8) : Fails (Error.Among [.validation]) (k.decode cid data) := by
  refine .bind (k.fails_decodeRaw_of_supported h data) fun d _ => ?_
  exact .bind (.mapError fun _ => List.mem_cons_self) fun _ _ => .ok _

theorem Registry.fails_resolve (registry : Registry) (schema : Cid) :
    Fails (Error.Among [.unknownSchema]) (registry.resolve schema) := by
  unfold resolve
  split
  · exact .ok _
  · exact .error (List.mem_singleton.mpr rfl)

theorem Root.fails_resolve (registry : Registry) (root : Root) :
    Fails (Error.Among [.validation, .unsupportedCodec, .unknownSchema])
      (Root.resolve registry root) := by
  refine .mapM (fun f link => ?_) root
  refine .bind ((registry.fails_resolve link.schema).among (by simp)) fun kind _ => ?_
  split
  · exact .bind (link.data.fails_ensureSupported.among (by simp)) fun _ _ => .ok _
  · exact .error List.mem_cons_self

theorem Document.fails_into (f : Family) (d : Document) :
    Fails (Error.Among [.validation]) (d.into f) := by
  unfold into
  split
  · exact .ok _
  · exact .error (List.mem_singleton.mpr rfl)

/-! ## Writing -/

theorem Block.fails_encode {α : Type} [Shaped α] (a : α) :
    Fails (Error.Among [.internal]) (encode a) := by
  refine .bind ?_ fun tree _ => ?_
  · unfold canonical
    split
    · exact .ok _
    · exact .error (List.mem_singleton.mpr rfl)
  · unfold ofCanonical
    split
    · exact .ok _
    · exact .error (List.mem_singleton.mpr rfl)

namespace Metadata

theorem fails_validate (m : Metadata) : Fails (Error.Among [.validation]) m.validate :=
  .mapError fun _ => List.mem_singleton.mpr rfl

theorem fails_link (registry : Registry) (d : Document) :
    Fails (Error.Among [.configuration, .internal]) (link registry d) := by
  unfold link
  split
  · exact .error List.mem_cons_self
  · exact .bind ((Block.fails_encode d.body).among (by simp)) fun _ _ => .ok _

theorem fails_assemble (registry : Registry) (m : Metadata) :
    Fails (Error.Among [.configuration, .internal]) (m.assemble registry) := by
  refine .bind (.mapM (fun _ d => fails_link registry d.1) m) fun links _ => ?_
  exact .bind ((Block.fails_encode _).among (by simp)) fun _ _ => .ok _

end Metadata

theorem Archive.fails_ofBlocks (bs : List Block) :
    Fails (Error.Among [.validation]) (ofBlocks bs) := by
  cases bs with
  | nil => exact .error (List.mem_singleton.mpr rfl)
  | cons b bs => exact .ok _

theorem Archive.fails_ofBytes (bytes : List UInt8) :
    Fails (Error.Among [.transportFormat]) (ofBytes bytes) :=
  .mapError fun _ => List.mem_singleton.mpr rfl

end MarketDag
