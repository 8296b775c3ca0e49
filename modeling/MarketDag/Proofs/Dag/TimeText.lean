import MarketDag.Proofs.Dag.Codecs

/-!
# The text of a time

A source reads an instant from a text.  So bytes hold a record that begins with a time exactly if
they hold the record that begins with a text instead, and the time is read from this text
(`Cbor.decode_instant_iff`, `Json.decode_instant_iff`).  The two records are coupled in every field
(`Coupled`), and a source carries this over to the whole records by induction on their entries
(`Cbor.record_iff`, `Json.record_iff`).  The text in which the time of a fallback is written is told
by `Fallback.WrittenIn`, and any text can be written there.
-/

namespace MarketDag

/-! ## Coupled records -/

/-- Are the readers of two records coupled?  From slots in a relation a step of the first leads to
slots in this relation if the second goes along; and what the second leads to, if it has such slots
beside it, the first comes to from slots that are in the relation before. -/
structure Coupled {m : Type → Type} [Monad m] [MonadExceptOf DecodeFault m] {state σ τ α β : Type}
    (O : Outcome m state) (R : σ → τ → Prop) (Q : α → β → Prop) (start : σ) (start' : τ)
    (step : String → σ → m σ) (step' : String → τ → m τ)
    (finish : Arrangement → σ → Except DecodeFault α)
    (finish' : Arrangement → τ → Except DecodeFault β) : Prop where
  related : R start start'
  unique : ∀ a, R a start' → a = start
  forth : ∀ key a b a' s s', R a b → O.Gives s (step key a) a' s' →
    ∃ b', R a' b' ∧ O.Gives s (step' key b) b' s'
  back : ∀ key b a' b' s s', R a' b' → O.Gives s (step' key b) b' s' →
    ∃ a, R a b ∧ O.Gives s (step key a) a' s'
  finish_forth : ∀ arrangement a b v, R a b → finish arrangement a = .ok v →
    ∃ w, Q v w ∧ finish' arrangement b = .ok w
  finish_back : ∀ arrangement b v w, Q v w → finish' arrangement b = .ok w →
    ∃ a, R a b ∧ finish arrangement a = .ok v

section

variable {σ τ α β : Type} {R : σ → τ → Prop} {Q : α → β → Prop} {start : σ} {start' : τ}
  {finish : Arrangement → σ → Except DecodeFault α}
  {finish' : Arrangement → τ → Except DecodeFault β}

namespace Cbor

variable {step : String → σ → Read σ} {step' : String → τ → Read τ} {depth : Nat}

theorem readFields_forth (h : Coupled (outcome depth) R Q start start' step step' finish finish')
    {n : Nat} {a a' : σ} {b : τ} {s s' : List UInt8} (hab : R a b)
    (hread : readFields step depth n a s = .ok (a', s')) :
    ∃ b', R a' b' ∧ readFields step' depth n b s = .ok (b', s') := by
  induction n generalizing a b s with
  | zero =>
    cases hread
    exact ⟨b, hab, rfl⟩
  | succ n ih =>
    obtain ⟨key, t, hkey, hread⟩ := read_bind_eq_ok.mp hread
    obtain ⟨a₁, u, hstep, hread⟩ := read_bind_eq_ok.mp hread
    obtain ⟨b₁, hab, hstep'⟩ := h.forth key a b a₁ t u hab hstep
    obtain ⟨b', hab', hread'⟩ := ih hab hread
    exact ⟨b', hab', read_bind_eq_ok.mpr
      ⟨key, t, hkey, read_bind_eq_ok.mpr ⟨b₁, u, hstep', hread'⟩⟩⟩

theorem readFields_back (h : Coupled (outcome depth) R Q start start' step step' finish finish')
    {n : Nat} {a' : σ} {b b' : τ} {s s' : List UInt8} (hab : R a' b')
    (hread : readFields step' depth n b s = .ok (b', s')) :
    ∃ a, R a b ∧ readFields step depth n a s = .ok (a', s') := by
  induction n generalizing b s with
  | zero =>
    cases hread
    exact ⟨a', hab, rfl⟩
  | succ n ih =>
    obtain ⟨key, t, hkey, hread⟩ := read_bind_eq_ok.mp hread
    obtain ⟨b₁, u, hstep, hread⟩ := read_bind_eq_ok.mp hread
    obtain ⟨a₁, hab, hread'⟩ := ih hread
    obtain ⟨a, hab, hstep'⟩ := h.back key b a₁ b₁ t u hab hstep
    exact ⟨a, hab, read_bind_eq_ok.mpr
      ⟨key, t, hkey, read_bind_eq_ok.mpr ⟨a₁, u, hstep', hread'⟩⟩⟩

/-- Of coupled records the bytes of a map hold both or none. -/
theorem record_iff {name name' : String} {keys keys' : List String}
    (h : ∀ depth, Coupled (outcome depth) R Q start start' step step' finish finish')
    {s s' : List UInt8} {v : α} :
    (source.record name keys start step finish).run depth s = .ok (v, s') ↔
      ∃ w, Q v w ∧ (source.record name' keys' start' step' finish').run depth s = .ok (w, s') := by
  cases depth with
  | zero =>
    constructor
    · intro hread
      cases hread
    · rintro ⟨_, _, hread⟩
      cases hread
  | succ depth =>
    simp only [record_eq_ok]
    constructor
    · rintro ⟨n, t, a, hhead, hfields, hfinish⟩
      obtain ⟨b, hab, hfields'⟩ := readFields_forth (h depth) (h depth).related hfields
      obtain ⟨w, hvw, hfinish'⟩ := (h depth).finish_forth _ _ _ _ hab hfinish
      exact ⟨w, hvw, n, t, b, hhead, hfields', hfinish'⟩
    · rintro ⟨w, hvw, n, t, b, hhead, hfields, hfinish⟩
      obtain ⟨a, hab, hfinish'⟩ := (h depth).finish_back _ _ _ _ hvw hfinish
      obtain ⟨a₀, hstart, hfields'⟩ := readFields_back (h depth) hab hfields
      cases (h depth).unique _ hstart
      exact ⟨n, t, a, hhead, hfields', hfinish'⟩

end Cbor

namespace Json

variable {step : String → σ → Read σ} {step' : String → τ → Read τ}

theorem namedFields_forth
    (h : Coupled (Outcome.looking Json) R Q start start' step step' finish finish') {closed : Bool}
    {entries : List (String × Json)} {a a' : σ} {b : τ} (hab : R a b)
    (hread : namedFields step closed a entries = .ok a') :
    ∃ b', R a' b' ∧ namedFields step' closed b entries = .ok b' := by
  induction entries generalizing a b with
  | nil =>
    rw [namedFields] at hread
    split at hread
    · rename_i hclosed
      cases hread
      exact ⟨b, hab, if_pos hclosed⟩
    · cases hread
  | cons e entries ih =>
    obtain ⟨a₁, hstep, hread⟩ := bind_eq_ok.mp hread
    obtain ⟨b₁, hab, hstep', -⟩ := h.forth e.1 a b a₁ e.2 e.2 hab ⟨hstep, rfl⟩
    obtain ⟨b', hab', hread'⟩ := ih hab hread
    exact ⟨b', hab', bind_eq_ok.mpr ⟨b₁, hstep', hread'⟩⟩

theorem namedFields_back
    (h : Coupled (Outcome.looking Json) R Q start start' step step' finish finish') {closed : Bool}
    {entries : List (String × Json)} {a' : σ} {b b' : τ} (hab : R a' b')
    (hread : namedFields step' closed b entries = .ok b') :
    ∃ a, R a b ∧ namedFields step closed a entries = .ok a' := by
  induction entries generalizing b with
  | nil =>
    rw [namedFields] at hread
    split at hread
    · rename_i hclosed
      cases hread
      exact ⟨a', hab, if_pos hclosed⟩
    · cases hread
  | cons e entries ih =>
    obtain ⟨b₁, hstep, hread⟩ := bind_eq_ok.mp hread
    obtain ⟨a₁, hab, hread'⟩ := ih hread
    obtain ⟨a, hab, hstep', -⟩ := h.back e.1 b a₁ b₁ e.2 e.2 hab ⟨hstep, rfl⟩
    exact ⟨a, hab, bind_eq_ok.mpr ⟨a₁, hstep', hread'⟩⟩

theorem positionalFields_forth
    (h : Coupled (Outcome.looking Json) R Q start start' step step' finish finish')
    {keys left : List String} {items rest : List Json} {a a' : σ} {b : τ} (hab : R a b)
    (hread : positionalFields step keys a items = .ok (a', left, rest)) :
    ∃ b', R a' b' ∧ positionalFields step' keys b items = .ok (b', left, rest) := by
  induction keys generalizing items a b with
  | nil =>
    cases hread
    exact ⟨b, hab, rfl⟩
  | cons key keys ih =>
    cases items with
    | nil =>
      cases hread
      exact ⟨b, hab, rfl⟩
    | cons item items =>
      obtain ⟨a₁, hstep, hread⟩ := bind_eq_ok.mp hread
      obtain ⟨b₁, hab, hstep', -⟩ := h.forth key a b a₁ item item hab ⟨hstep, rfl⟩
      obtain ⟨b', hab', hread'⟩ := ih hab hread
      exact ⟨b', hab', bind_eq_ok.mpr ⟨b₁, hstep', hread'⟩⟩

theorem positionalFields_back
    (h : Coupled (Outcome.looking Json) R Q start start' step step' finish finish')
    {keys left : List String} {items rest : List Json} {a' : σ} {b b' : τ} (hab : R a' b')
    (hread : positionalFields step' keys b items = .ok (b', left, rest)) :
    ∃ a, R a b ∧ positionalFields step keys a items = .ok (a', left, rest) := by
  induction keys generalizing items b with
  | nil =>
    cases hread
    exact ⟨a', hab, rfl⟩
  | cons key keys ih =>
    cases items with
    | nil =>
      cases hread
      exact ⟨a', hab, rfl⟩
    | cons item items =>
      obtain ⟨b₁, hstep, hread⟩ := bind_eq_ok.mp hread
      obtain ⟨a₁, hab, hread'⟩ := ih hread
      obtain ⟨a, hab, hstep', -⟩ := h.back key b a₁ b₁ item item hab ⟨hstep, rfl⟩
      exact ⟨a, hab, bind_eq_ok.mpr ⟨a₁, hstep', hread'⟩⟩

/-- Of coupled records a JSON value holds both or none. -/
theorem record_iff {name : String} {keys : List String}
    (h : Coupled (Outcome.looking Json) R Q start start' step step' finish finish') {value : Json}
    {v : α} :
    (source.record name keys start step finish).run value = .ok v ↔
      ∃ w, Q v w ∧ (source.record name keys start' step' finish').run value = .ok w := by
  cases value with
  | object entries closed =>
    simp only [record_object_eq_ok]
    constructor
    · rintro ⟨hreserved, a, hfields, hfinish⟩
      obtain ⟨b, hab, hfields'⟩ := namedFields_forth h h.related hfields
      obtain ⟨w, hvw, hfinish'⟩ := h.finish_forth _ _ _ _ hab hfinish
      exact ⟨w, hvw, hreserved, b, hfields', hfinish'⟩
    · rintro ⟨w, hvw, hreserved, b, hfields, hfinish⟩
      obtain ⟨a, hab, hfinish'⟩ := h.finish_back _ _ _ _ hvw hfinish
      obtain ⟨a₀, hstart, hfields'⟩ := namedFields_back h hab hfields
      cases h.unique _ hstart
      exact ⟨hreserved, a, hfields', hfinish'⟩
  | list items closed =>
    -- whether keys or items are left does not depend on what was read
    simp only [record_list_eq_ok]
    constructor
    · rintro ⟨hclosed, a, left, hfields, hfinish⟩
      obtain ⟨b, hab, hfields'⟩ := positionalFields_forth h h.related hfields
      obtain ⟨w, hvw, hfinish'⟩ := h.finish_forth _ _ _ _ hab hfinish
      exact ⟨w, hvw, hclosed, b, left, hfields', hfinish'⟩
    · rintro ⟨w, hvw, hclosed, b, left, hfields, hfinish⟩
      obtain ⟨a, hab, hfinish'⟩ := h.finish_back _ _ _ _ hvw hfinish
      obtain ⟨a₀, hstart, hfields'⟩ := positionalFields_back h hab hfields
      cases h.unique _ hstart
      exact ⟨hclosed, a, left, hfields', hfinish'⟩
  | _ =>
    constructor
    · intro hread
      cases hread
    · rintro ⟨_, _, hread⟩
      cases hread

end Json

end

/-! ## The text of the first field -/

namespace Fields

/-- A record is made with a field that it has to have if this field and the others were read. -/
theorem finish_required_eq_ok {key name : String} {shape : Shape} {rest : Fields}
    {total index : Nat} {arrangement : Arrangement} {slot : Option shape.Value} {slots : rest.Slots}
    {v : (required key shape rest).Value} :
    (required key shape rest).finish name total arrangement index (slot, slots) = .ok v ↔
      ∃ a last, slot = some a ∧
        rest.finish name total arrangement (index + 1) slots = .ok last ∧ v = (a, last) := by
  cases slot with
  | none => exact ⟨nofun, fun ⟨_, _, h, _⟩ => nomatch h⟩
  | some a =>
    constructor
    · intro h
      obtain ⟨last, hlast, h⟩ := bind_eq_ok.mp h
      cases h
      exact ⟨a, last, rfl, hlast, rfl⟩
    · rintro ⟨_, last, h, hlast, rfl⟩
      cases h
      exact bind_eq_ok.mpr ⟨last, hlast, rfl⟩

section

variable {m : Type → Type} [Monad m] [MonadExceptOf DecodeFault m] {state : Type} {src : Source m}
  (O : Outcome m state)
  (hsrc : ∀ s t s', O.Gives s (src.leaf .instant) t s' ↔
    ∃ text, O.Gives s (src.leaf .text) text s' ∧ readInstant text = .ok t)

include hsrc

variable {key : String} {rest : Fields} {known : List String}

/-- A record that begins with a time is coupled with the record that begins with its text. -/
theorem coupled_instant_text (name : String) (total : Nat) :
    Coupled O
      (fun (a : (required key (.leaf .instant) rest).Slots)
          (b : (required key (.leaf .text) rest).Slots) =>
        Option.Rel (fun t s => readInstant s = .ok t) a.1 b.1 ∧ a.2 = b.2)
      (fun (v : (required key (.leaf .instant) rest).Value)
          (w : (required key (.leaf .text) rest).Value) =>
        readInstant w.1 = .ok v.1 ∧ v.2 = w.2)
      (required key (.leaf .instant) rest).empty (required key (.leaf .text) rest).empty
      ((required key (.leaf .instant) rest).readField src known)
      ((required key (.leaf .text) rest).readField src known)
      (fun arrangement => (required key (.leaf .instant) rest).finish name total arrangement 0)
      (fun arrangement => (required key (.leaf .text) rest).finish name total arrangement 0) where
  related := ⟨.none, rfl⟩
  unique := by
    rintro ⟨a, slots⟩ ⟨h, hslots⟩
    cases h
    exact Prod.ext rfl hslots
  forth := by
    rintro name ⟨a, slots⟩ ⟨b, _⟩ a' s s' ⟨hab, rfl⟩ h
    rw [readField] at h ⊢
    -- only the first field is read in another way, all others are the same in both
    rcases (gives_step_iff O).mp h with ⟨hname, rfl, t, hread, rfl⟩ | ⟨hname, last, hread, rfl⟩
    · rw [Shape.read] at hread
      obtain ⟨text, htext, ht⟩ := (hsrc ..).mp hread
      cases hab
      exact ⟨(some text, slots), ⟨.some ht, rfl⟩,
        (gives_step_iff O).mpr (.inl ⟨hname, rfl, text, htext, rfl⟩)⟩
    · exact ⟨(b, last), ⟨hab, rfl⟩, (gives_step_iff O).mpr (.inr ⟨hname, last, hread, rfl⟩)⟩
  back := by
    rintro name ⟨b, slots⟩ ⟨a', last⟩ b' s s' ⟨hab, hlast⟩ h
    dsimp only at hab hlast
    subst hlast
    rw [readField] at h
    rcases (gives_step_iff O).mp h with ⟨hname, rfl, text, hread, rfl⟩ | ⟨hname, last, hread, rfl⟩
    · rw [Shape.read] at hread
      cases hab with
      | some ht =>
        refine ⟨(none, slots), ⟨.none, rfl⟩, ?_⟩
        rw [readField]
        exact (gives_step_iff O).mpr
          (.inl ⟨hname, rfl, _, (hsrc ..).mpr ⟨text, hread, ht⟩, rfl⟩)
    · refine ⟨(a', slots), ⟨hab, rfl⟩, ?_⟩
      rw [readField]
      exact (gives_step_iff O).mpr (.inr ⟨hname, last, hread, rfl⟩)
  finish_forth := by
    rintro arrangement ⟨a, slots⟩ ⟨b, _⟩ v ⟨hab, rfl⟩ h
    obtain ⟨t, last, rfl, hlast, rfl⟩ := finish_required_eq_ok.mp h
    cases hab with
    | some ht => exact ⟨(_, last), ⟨ht, rfl⟩, finish_required_eq_ok.mpr ⟨_, last, rfl, hlast, rfl⟩⟩
  finish_back := by
    rintro arrangement ⟨b, slots⟩ ⟨t, last⟩ w ⟨ht, hlast⟩ h
    obtain ⟨text, _, rfl, hread, rfl⟩ := finish_required_eq_ok.mp h
    cases hlast
    exact ⟨(some t, slots), ⟨.some ht, rfl⟩, finish_required_eq_ok.mpr ⟨t, last, rfl, hread, rfl⟩⟩

end

end Fields

theorem Cbor.gives_instant_iff (depth : Nat) (s : List UInt8) (t : Instant) (s' : List UInt8) :
    (outcome depth).Gives s (source.leaf .instant) t s' ↔
      ∃ text, (outcome depth).Gives s (source.leaf .text) text s' ∧ readInstant text = .ok t := by
  change (readText depth >>= fun text => MonadExcept.ofExcept (readInstant text)) s = _ ↔
    ∃ text, readText depth s = _ ∧ _
  simp only [read_bind_eq_ok, ofExcept_eq_ok]
  constructor
  · rintro ⟨text, _, htext, ht, rfl⟩
    exact ⟨text, htext, ht⟩
  · rintro ⟨text, htext, ht⟩
    exact ⟨text, s', htext, ht, rfl⟩

theorem Json.gives_instant_iff (value : Json) (t : Instant) (value' : Json) :
    (Outcome.looking Json).Gives value (source.leaf .instant) t value' ↔
      ∃ text, (Outcome.looking Json).Gives value (source.leaf .text) text value' ∧
        readInstant text = .ok t := by
  change ((asText .text value >>= readInstant) = _ ∧ _) ↔ ∃ text, (asText .text value = _ ∧ _) ∧ _
  rw [bind_eq_ok]
  constructor
  · rintro ⟨⟨text, htext, ht⟩, hvalue⟩
    exact ⟨text, ⟨htext, hvalue⟩, ht⟩
  · rintro ⟨text, ⟨htext, hvalue⟩, ht⟩
    exact ⟨⟨text, htext, ht⟩, hvalue⟩

section

variable {name key : String} {rest : Fields} {bytes : List UInt8} {t : Instant} {vs : rest.Value}

theorem Cbor.read_instant_iff {depth : Nat} {s s' : List UInt8} :
    ((Shape.record name (.required key (.leaf .instant) rest)).read source).run depth s =
        .ok ((t, vs), s') ↔
      ∃ text, ((Shape.record name (.required key (.leaf .text) rest)).read source).run depth s =
        .ok ((text, vs), s') ∧ readInstant text = .ok t := by
  rw [Shape.read, Shape.read, record_iff fun depth =>
    Fields.coupled_instant_text (outcome depth) (gives_instant_iff depth) ..]
  constructor
  · rintro ⟨⟨text, _⟩, ⟨ht, rfl⟩, hread⟩
    exact ⟨text, hread, ht⟩
  · rintro ⟨text, hread, ht⟩
    exact ⟨(text, vs), ⟨ht, rfl⟩, hread⟩

/-- Bytes are a record that begins with a time if they are one that begins with a text, and the time
is read from it. -/
theorem Cbor.decode_instant_iff :
    decode (.record name (.required key (.leaf .instant) rest)) bytes = .ok (t, vs) ↔
      ∃ text, decode (.record name (.required key (.leaf .text) rest)) bytes = .ok (text, vs) ∧
        readInstant text = .ok t := by
  unfold decode
  simp only [readAll_eq_ok_iff]
  exact read_instant_iff

theorem Json.read_instant_iff {value : Json} :
    ((Shape.record name (.required key (.leaf .instant) rest)).read source).run value =
        .ok (t, vs) ↔
      ∃ text, ((Shape.record name (.required key (.leaf .text) rest)).read source).run value =
        .ok (text, vs) ∧ readInstant text = .ok t := by
  rw [Shape.read, Shape.read,
    record_iff (Fields.coupled_instant_text (.looking Json) gives_instant_iff ..)]
  constructor
  · rintro ⟨⟨text, _⟩, ⟨ht, rfl⟩, hread⟩
    exact ⟨text, hread, ht⟩
  · rintro ⟨text, hread, ht⟩
    exact ⟨(text, vs), ⟨ht, rfl⟩, hread⟩

theorem Json.decode_instant_iff :
    decode (.record name (.required key (.leaf .instant) rest)) bytes = .ok (t, vs) ↔
      ∃ text, decode (.record name (.required key (.leaf .text) rest)) bytes = .ok (text, vs) ∧
        readInstant text = .ok t := by
  unfold decode
  simp only [readAll_eq_ok_iff]
  constructor
  · rintro ⟨value, after, hparse, hend, hread⟩
    obtain ⟨text, hread, ht⟩ := read_instant_iff.mp hread
    exact ⟨text, ⟨value, after, hparse, hend, hread⟩, ht⟩
  · rintro ⟨text, ⟨value, after, hparse, hend, hread⟩, ht⟩
    exact ⟨value, after, hparse, hend, read_instant_iff.mpr ⟨text, hread, ht⟩⟩

end

/-! ## Fallbacks -/

namespace Fallback

/-- The form of a fallback whose time is left as the text that it is written in. -/
def textShape : Shape :=
  .record "OracleFallback" <|
    .required "fallback_time" (.leaf .text) <|
    .required "fallback_fsp" (.leaf .decimal) .nil

/-- Do bytes hold a fallback whose time is written as this text? -/
def WrittenIn (cid : Cid) (data : List UInt8) (time : String) (fsp : Decimal) : Prop :=
  Block.decodeWith cid data (Cbor.decode textShape) (Json.decode textShape) = .ok (time, fsp, ())

variable {cid : Cid} {data : List UInt8} {fsp : Decimal}

/-- A fallback is read from the bytes that hold one whose time is written as a text of this time. -/
theorem decodeRaw_eq_ok_iff {t : Instant} :
    Kind.oracleFallback.decodeRaw cid data = .ok ⟨.oracleFallback, (⟨t, fsp⟩ : Fallback)⟩ ↔
      ∃ time, WrittenIn cid data time fsp ∧ readInstant time = .ok t := by
  have hvalue : Kind.oracleFallback.decodeRaw cid data =
        .ok ⟨.oracleFallback, (⟨t, fsp⟩ : Fallback)⟩ ↔
      Block.decodeWith cid data (Cbor.decode (Shaped.shape Fallback))
        (Json.decode (Shaped.shape Fallback)) = .ok (t, fsp, ()) := by
    constructor
    · intro h
      obtain ⟨v, hv, h⟩ := Kind.decodeWith_of_decodeRaw h
      cases h
      exact hv
    · intro h
      exact Kind.decodeRaw_eq_ok.mpr ⟨_, map_eq_ok.mpr ⟨_, h, rfl⟩, rfl⟩
  rw [hvalue, Block.decodeWith_eq_ok]
  constructor
  · rintro (⟨hcid, h⟩ | ⟨hcid, h⟩)
    · obtain ⟨time, hread, ht⟩ := Cbor.decode_instant_iff.mp h
      exact ⟨time, Block.decodeWith_eq_ok.mpr (.inl ⟨hcid, hread⟩), ht⟩
    · obtain ⟨time, hread, ht⟩ := Json.decode_instant_iff.mp h
      exact ⟨time, Block.decodeWith_eq_ok.mpr (.inr ⟨hcid, hread⟩), ht⟩
  · rintro ⟨time, hwritten, ht⟩
    rcases Block.decodeWith_eq_ok.mp hwritten with ⟨hcid, hread⟩ | ⟨hcid, hread⟩
    · exact .inl ⟨hcid, Cbor.decode_instant_iff.mpr ⟨time, hread, ht⟩⟩
    · exact .inr ⟨hcid, Json.decode_instant_iff.mpr ⟨time, hread, ht⟩⟩

/-- The tree of a fallback whose time is written as a text. -/
def textTree (time : String) (fsp : Decimal) : Ipld :=
  .map [("fallback_fsp", .text fsp.canonicalText), ("fallback_time", .text time)]

theorem writes_textTree (time : String) (fsp : Decimal) :
    textShape.Writes (time, fsp, ()) (textTree time fsp) := by
  have htime : Leaf.Writes .text time (.text time) := ⟨_, rfl, by simp [Ipld.canonical]⟩
  have hfsp : Leaf.Writes .decimal fsp (.text fsp.canonicalText) :=
    ⟨_, rfl, by simp [Ipld.canonical]⟩
  have hkeys : "fallback_fsp" < "fallback_time" := by decide +kernel
  refine ⟨_, rfl, List.pairwise_pair.mpr hkeys, ?_, by simp [Fields.Spares]⟩
  simp [Fields.WritesAt, Shape.Writes, htime, hfsp]

/-- Every text can stand for the time of a fallback in a binary block. -/
theorem writtenIn_cbor {time : String} (hcid : cid.codec = Cid.dagCbor)
    (hsize : (Cbor.write (textTree time fsp)).length < UInt64.size) :
    WrittenIn cid (Cbor.write (textTree time fsp)) time fsp.normalize :=
  Block.decodeWith_eq_ok.mpr (.inl ⟨hcid,
    Cbor.decode_of_writes (by decide) (by decide) (writes_textTree time fsp) hsize⟩)

/-- Every text can stand for the time of a fallback in a JSON text. -/
theorem writtenIn_json {time : String} (hcid : cid.codec = Cid.dagJson) :
    WrittenIn cid (Utf8.encode (.ofList (Json.write (textTree time fsp)))) time fsp.normalize := by
  have hunreserved : textShape.Unreserved (time, fsp, ()) := by
    simp [textShape, Shape.Unreserved, Fields.Unreserved, Leaf.Unreserved]
  rw [Json.encode_ofList]
  exact Block.decodeWith_eq_ok.mpr (.inr ⟨hcid,
    Json.decode_of_writes (by decide) (by decide) (writes_textTree time fsp) hunreserved⟩)

end Fallback

end MarketDag
