import MarketDag.Proofs.Archive.Whole
import MarketDag.Proofs.Client.Upload
import MarketDag.Proofs.Dag.Failures

/-!
# What clients keep

A download only asks the store for blocks, so that it keeps whatever this keeps, and fails as this
does, or on account of what it has read (`Client.meets_download`).  An upload into memory fails
before it comes to the store, or is an import (`Client.perform_upload`).
-/

namespace MarketDag

/-! ## Downloads -/

theorem Meets.mapM {ε σ : Type} {p : σ → Prop} {fair : ε → Prop} {α β : Family → Type}
    {g : (f : Family) → α f → ExceptT ε (StateM σ) (β f)}
    (h : ∀ f a, Meets p (fun _ => True) fair (g f a)) (s : Slots α) :
    Meets p (fun _ => True) fair (s.mapM g) := by
  refine .bind (h _ _) fun _ _ => ?_
  refine .bind (h _ _) fun _ _ => ?_
  refine .bind (h _ _) fun _ _ => ?_
  exact .bind (h _ _) fun _ _ => .pure trivial

namespace Client

section

variable {σ : Type} {client : Client (StateM σ)} {p : σ → Prop} {fair : Error → Prop}
  (hget : ∀ cid, Meets p (fun data => Fails fair (cid.verify data)) fair
    (client.store.getBlock cid))
  (hfair : ∀ e, Error.Among [.validation, .unsupportedCodec, .unknownSchema] e → fair e)

include hget hfair

theorem meets_fetch {f : Family} (link : ResolvedLink f) :
    Meets p (fun _ => True) fair (client.fetch link) := by
  refine .bind (hget link.data) fun data hverify => ?_
  refine .lift_bind (((link.kind.fails_decode _ _).among (by simp)).mono hfair) fun document => ?_
  exact .lift_bind hverify fun _ => .pure trivial

/-- A download keeps what the store keeps when it is asked for blocks. -/
theorem meets_download (cid : Cid) : Meets p (fun _ => True) fair (client.download cid) := by
  refine .lift_bind ((cid.fails_ensureSupported.among (by simp)).mono hfair) fun _ => ?_
  refine .bind (hget cid) fun data hverify => ?_
  refine .lift_bind (((Block.fails_decode Root _ _).among (by simp)).mono hfair) fun root => ?_
  refine .lift_bind hverify fun _ => ?_
  refine .lift_bind ((Root.fails_resolve _ root).mono hfair) fun links => ?_
  refine .bind (.mapM (fun f link => meets_fetch hget hfair link) links) fun documents _ => ?_
  refine .lift ?_ fun _ _ => trivial
  exact .mapM (fun f d => ((Document.fails_into f d).among (by simp)).mono hfair) documents

end

end Client

/-! ## Uploads -/

/-- The archive of valid metadata. -/
def Metadata.archive (registry : Registry) (m : Metadata) : Except Error Archive := do
  m.validate
  let blocks ← m.assemble registry
  Archive.ofBlocks blocks

theorem Metadata.archive_eq_ok {registry : Registry} {m : Metadata} {a : Archive} :
    m.archive registry = .ok a ↔ m.validate = .ok () ∧
      ∃ bs, m.assemble registry = .ok bs ∧ Archive.ofBlocks bs = .ok a := by
  unfold archive
  constructor
  · intro h
    obtain ⟨_, hvalid, h⟩ := bind_eq_ok.mp h
    obtain ⟨bs, hassemble, h⟩ := bind_eq_ok.mp h
    exact ⟨hvalid, bs, hassemble, h⟩
  · rintro ⟨hvalid, bs, hassemble, h⟩
    exact bind_eq_ok.mpr ⟨(), hvalid, bind_eq_ok.mpr ⟨bs, hassemble, h⟩⟩

theorem Metadata.fails_archive (registry : Registry) (m : Metadata) :
    Fails (Error.Among [.validation, .configuration, .internal]) (m.archive registry) := by
  refine .bind (m.fails_validate.among (by simp)) fun _ _ => ?_
  refine .bind ((m.fails_assemble registry).among (by simp)) fun bs _ => ?_
  exact (Archive.fails_ofBlocks bs).among (by simp)

/-- Is the archive of metadata small enough for a machine to count its bytes, if there is one? -/
def Metadata.Addressable (registry : Registry) (m : Metadata) : Prop :=
  ∀ a, m.archive registry = .ok a → a.Addressable

theorem Metadata.Assembled.addressable {registry : Registry} {m : Metadata} {top : Block}
    {parts : Slots fun _ => Block} (h : m.Assembled registry top parts)
    (hfits : ∀ b ∈ top :: parts.toList, Archive.Fits b) : m.Addressable registry := by
  intro a ha
  obtain ⟨-, bs, hassemble, hbs⟩ := archive_eq_ok.mp ha
  rw [assemble_eq_ok.mpr ⟨top, parts, rfl, h⟩] at hassemble
  cases hassemble
  obtain ⟨-, hblocks, hheader⟩ := Archive.of_ofBlocks hbs
  have hlength : (top :: parts.toList).length = 5 := rfl
  refine Archive.addressable_of_fits hheader (hblocks ▸ hfits) ?_
  rw [hblocks, hlength]
  decide

/-- An upload into memory fails before it comes to the store, or is an import: a store in memory
always tells the root that it was given. -/
theorem Client.perform_upload (registry : Registry) (m : Metadata) (s : Memory) :
    perform (upload ⟨Memory.store, registry⟩ m) s =
      match m.archive registry with
      | .ok a => perform (Memory.store.importArchive a) s
      | .error e => (.error e, s) := by
  unfold upload Metadata.archive
  rw [perform_bind, perform_lift]
  cases m.validate with
  | error e => rfl
  | ok _ =>
    change perform (liftM (m.assemble registry) >>= _) s = _
    rw [perform_bind, perform_lift]
    cases m.assemble registry with
    | error e => rfl
    | ok bs =>
      change perform (liftM (Archive.ofBlocks bs) >>= _) s = _
      rw [perform_bind, perform_lift, bind_of_ok rfl, bind_of_ok rfl]
      cases hbs : Archive.ofBlocks bs with
      | error e => rfl
      | ok a =>
        change perform (Memory.store.importArchive a >>= _) s =
          perform (Memory.store.importArchive a) s
        rw [perform_bind, Memory.perform_importArchive]
        cases haccept : Memory.accept a with
        | error e => rfl
        | ok a' =>
          -- the root is in the header, which is always read back
          have hread := (Memory.accept_eq_ok.mp haccept).1
          change perform (if a'.root = a.root then pure a'.root else _) _ = _
          rw [if_pos (Archive.root_of_ofBytes_toBytes hbs hread)]
          rfl

end MarketDag
