import MarketDag.Proofs.Cbor.Faithful
import MarketDag.Proofs.Cbor.Record

/-!
# Nothing is read from fewer bytes than it is written with

Binary trees are written in their shortest form, so that whatever else is read as a value takes at
least as many bytes: a head (`takes_readHead`), a link (`takes_readLink`), a list of them
(`takes_list`).  The bytes are accounted for reader by reader (`Takes`).
-/

namespace MarketDag.Cbor

variable {α β : Type} {paid : Nat} {cost : α → Nat}

/-! ## Accounts -/

/-- Is what a value costs covered by what was paid before and the bytes that reading it takes? -/
def Takes (paid : Nat) (cost : α → Nat) (read : Scan α) : Prop :=
  ∀ bytes a rest, read bytes = .ok (a, rest) → cost a + rest.length ≤ paid + bytes.length

theorem Takes.bind {x : Scan α} {f : α → Scan β} {cost' : β → Nat} (hx : Takes paid cost x)
    (hf : ∀ a, Takes (cost a) cost' (f a)) : Takes paid cost' (x >>= f) := by
  intro bytes b rest h
  obtain ⟨a, mid, hfirst, hsecond⟩ := read_bind_eq_ok.mp h
  exact (hf a mid b rest hsecond).trans (hx bytes a mid hfirst)

theorem takes_pure {a : α} (h : cost a ≤ paid) : Takes paid cost (pure a) := by
  intro bytes _ _ heq
  cases heq
  exact Nat.add_le_add_right h _

theorem Takes.map {x : Scan α} {f : α → β} {cost' : β → Nat} (hx : Takes paid cost x)
    (hf : ∀ a, cost' (f a) ≤ cost a) : Takes paid cost' (f <$> x) := by
  rw [map_eq_pure_bind]
  exact hx.bind fun a => takes_pure (hf a)

/-- What was paid before is still there. -/
theorem Takes.after {x : Scan α} (hx : Takes 0 cost x) (paid : Nat) :
    Takes paid (fun a => cost a + paid) x := by
  intro bytes a rest h
  have := hx bytes a rest h
  change cost a + paid + rest.length ≤ _
  omega

theorem Takes.mono {x : Scan α} {cost' : α → Nat} (hx : Takes paid cost x)
    (hcost : ∀ a, cost' a ≤ cost a) : Takes paid cost' x := by
  intro bytes a rest h
  exact (Nat.add_le_add_right (hcost a) _).trans (hx bytes a rest h)

theorem takes_malformed : Takes paid cost malformed := fun _ _ _ h => nomatch h

theorem takes_throw (fault : DecodeFault) : Takes paid cost (throw fault : Scan α) :=
  fun _ _ _ h => nomatch h

/-! ## Bytes and heads -/

theorem takes_next : Takes 0 (fun _ => 1) next := by
  intro bytes b rest h
  cases bytes with
  | nil => cases h
  | cons b bytes =>
    cases h
    change 1 + rest.length ≤ 0 + (rest.length + 1)
    omega

theorem takes_peek : Takes 0 (fun _ => 0) peek := by
  intro bytes b rest h
  cases bytes with
  | nil => cases h
  | cons b bytes =>
    cases h
    exact le_rfl

theorem take_eq_ok {n : Nat} {bytes front rest : List UInt8}
    (h : take n bytes = .ok (front, rest)) : front.length = n ∧ bytes = front ++ rest := by
  unfold take at h
  split at h
  · rename_i front' rest' htake
    cases h
    exact ⟨front'.2, Multihash.takeExactly_eq_some htake⟩
  · cases h

theorem takes_take (n : Nat) : Takes 0 List.length (take n) := by
  intro bytes front rest h
  rw [(take_eq_ok h).2, List.length_append, Nat.zero_add]

theorem length_writeHead (major : Major) (n : Nat) :
    (writeHead major n).length =
      if n < 24 then 1 else if n < UInt8.size then 2 else if n < UInt16.size then 3
      else if n < UInt32.size then 5 else 9 := by
  unfold writeHead
  split_ifs <;> simp [BigEndian.length_encode]

theorem length_writeHead_mono (major : Major) {n m : Nat} (h : n ≤ m) :
    (writeHead major n).length ≤ (writeHead major m).length := by
  rw [length_writeHead, length_writeHead]
  simp only [UInt8.size, UInt16.size, UInt32.size]
  split_ifs <;> omega

/-- A number is written with as few bytes after the first one as it is read from. -/
theorem length_writeHead_le_of_followers {low count n : Nat} (major : Major)
    (hlow : followers? low = some count) (hcount : count ≠ 0) (hn : n < Nat.pow 256 count) :
    (writeHead major n).length ≤ count + 1 := by
  rw [length_writeHead]
  unfold followers? at hlow
  split_ifs at hlow
  · cases hlow
    exact absurd rfl hcount
  · cases hlow
    have hn : n < UInt8.size := hn
    split_ifs <;> omega
  · cases hlow
    have hn : n < UInt16.size := hn
    split_ifs <;> omega
  · cases hlow
    have hn : n < UInt32.size := hn
    split_ifs <;> omega
  · cases hlow
    split_ifs <;> omega

theorem takes_argument (major : Major) (low : Nat) :
    Takes 1 (fun n => (writeHead major n).length) (argument low) := by
  unfold argument
  split
  · exact takes_malformed
  · rename_i hlow
    -- no bytes follow only where the number is in the first byte
    have hsmall : low < 24 := by
      by_contra hlarge
      rw [followers?, if_neg hlarge] at hlow
      split_ifs at hlow <;> cases hlow
    refine takes_pure (le_of_eq ?_)
    rw [length_writeHead, if_pos hsmall]
  · rename_i count hcount hlow
    intro bytes n rest h
    rw [map_eq_pure_bind] at h
    obtain ⟨front, mid, htake, h⟩ := read_bind_eq_ok.mp h
    cases h
    obtain ⟨hlength, rfl⟩ := take_eq_ok htake
    have hn := BigEndian.decode_lt front
    rw [hlength] at hn
    have hhead := length_writeHead_le_of_followers major hlow hcount hn
    change (writeHead major (BigEndian.decode front)).length + rest.length ≤ 1 + _
    rw [List.length_append]
    omega

/-- The head of a number is no shorter than the one it is written with. -/
theorem takes_readHead (major : Major) :
    Takes 0 (fun n => (writeHead major n).length) (readHead major) := by
  refine takes_next.bind fun b => ?_
  split
  · exact takes_argument major _
  · exact takes_malformed

/-! ## Many values -/

theorem length_of_readMany {item : Scan α} {n : Nat} {bytes rest : List UInt8} {as : List α}
    (h : readMany item n bytes = .ok (as, rest)) : as.length = n := by
  induction n generalizing bytes as with
  | zero =>
    cases h
    rfl
  | succ n ih =>
    obtain ⟨a, mid, -, h⟩ := read_bind_eq_ok.mp h
    obtain ⟨as', end', hmany, h⟩ := read_bind_eq_ok.mp h
    cases h
    rw [List.length_cons, ih hmany]

theorem takes_readMany {item : Scan α} {write : α → List UInt8}
    (hitem : Takes 0 (fun a => (write a).length) item) (n : Nat) :
    Takes 0 (fun as => (as.flatMap write).length) (readMany item n) := by
  induction n with
  | zero => exact takes_pure le_rfl
  | succ n ih =>
    refine hitem.bind fun a => (ih.after _).bind fun as => takes_pure (le_of_eq ?_)
    rw [List.flatMap_cons, List.length_append, Nat.add_comm]

theorem takes_readUntilBreak {item : Scan α} {write : α → List UInt8}
    (hitem : Takes 0 (fun a => (write a).length) item) (fuel : Nat) :
    Takes 0 (fun as => (as.flatMap write).length + 1) (readUntilBreak item fuel) := by
  induction fuel with
  | zero => exact takes_malformed
  | succ fuel ih =>
    refine takes_peek.bind fun b => ?_
    split
    · exact takes_next.bind fun _ => takes_pure le_rfl
    · refine hitem.bind fun a => (ih.after _).bind fun as => takes_pure (le_of_eq ?_)
      rw [List.flatMap_cons, List.length_append]
      omega

/-! ## Texts, byte strings and links -/

/-- The bytes of a string come with a head, or with a byte in front and one behind. -/
theorem takes_readString (major : Major) (depth : Nat) :
    Takes 0 (fun bytes => min 2 (writeHead major bytes.length).length + bytes.length)
      (readString major depth) := by
  -- a string in one piece
  have hplain : Takes 0 (fun bytes => min 2 (writeHead major bytes.length).length + bytes.length)
      (readHead major >>= take) := by
    intro bytes front rest h
    obtain ⟨n, mid, hhead, htake⟩ := read_bind_eq_ok.mp h
    obtain ⟨rfl, rfl⟩ := take_eq_ok htake
    have hle : (writeHead major front.length).length + (front ++ rest).length ≤ 0 + bytes.length :=
      takes_readHead major _ _ _ hhead
    rw [List.length_append] at hle
    change min 2 _ + front.length + rest.length ≤ 0 + bytes.length
    omega
  induction depth with
  | zero =>
    refine takes_peek.bind fun b => ?_
    split
    · exact takes_malformed
    · exact hplain
  | succ depth ih =>
    refine takes_peek.bind fun b => ?_
    split
    · -- the byte that opens the string and the one that ends it stand for a head
      have hget : Takes 1 (fun _ => 1) (get : Scan (List UInt8)) := by
        intro bytes _ _ h
        cases h
        exact le_rfl
      have hchunk : Takes 0 (fun chunk => (id chunk).length) (readString major depth) :=
        ih.mono fun _ => Nat.le_add_left _ _
      refine takes_next.bind fun _ => hget.bind fun bytes =>
        ((takes_readUntilBreak hchunk _).after 1).map fun chunks => ?_
      rw [List.flatMap_id]
      omega
    · exact hplain

theorem takes_readText (depth : Nat) : Takes 0 (fun s => 1 + s.length) (readText depth) := by
  refine (takes_readString .text depth).bind fun bytes => ?_
  have hpos := List.length_pos_iff.mpr (writeHead_ne_nil .text bytes.length)
  unfold textOf
  split
  · rename_i s hs
    have hlength := Utf8.length_le_of_decode? hs
    rw [String.length_toList] at hlength
    exact takes_pure (by omega)
  · exact takes_malformed

/-- A short byte string has a head of at most two bytes, the number that chunks take. -/
theorem length_writeBytes_le {b b' : List UInt8} (hle : b.length ≤ b'.length)
    (hshort : b.length < UInt8.size) :
    (writeBytes b).length ≤ min 2 (writeHead .bytes b'.length).length + b'.length := by
  have htwo : (writeHead .bytes b.length).length ≤ 2 := by
    rw [length_writeHead, if_pos hshort]
    split <;> omega
  have hmono := length_writeHead_mono .bytes hle
  rw [writeBytes, List.length_append]
  omega

theorem takes_readLinkBytes (depth : Nat) :
    Takes 0 (fun cid => (writeBytes (0 :: cid.toBytes)).length) (readLinkBytes depth) := by
  refine takes_peek.bind fun b => ?_
  split
  · exact takes_malformed
  refine (takes_readString .bytes depth).bind fun bytes => ?_
  split
  · rename_i b bytes
    split
    · rename_i cid hcid
      -- a link has few bytes, so its head is no longer than the two bytes that are surely there
      have hle := Cid.length_toBytes_le_of_ofBytes hcid
      have hshort : (0 :: cid.toBytes).length < UInt8.size :=
        Nat.lt_of_le_of_lt (Nat.succ_le_succ cid.length_toBytes_le) (by decide)
      exact takes_pure (length_writeBytes_le (Nat.succ_le_succ hle) hshort)
    · exact takes_throw _
  · exact takes_throw _

theorem takes_readLink (depth : Nat) :
    Takes 0 (fun cid => (writeLink cid).length) (readLink depth) := by
  refine (takes_readHead .tag).bind fun n => ?_
  split
  · rename_i hn
    subst hn
    refine ((takes_readLinkBytes depth).after _).mono fun cid => ?_
    rw [writeLink, List.length_append, Nat.add_comm]
  · exact takes_malformed

/-- The items of a list take their bytes, and the list takes a head for their number. -/
theorem takes_list {item : Read α} {write : α → List UInt8} (depth : Nat)
    (hitem : ∀ depth, Takes 0 (fun a => (write a).length) (item.run depth)) :
    Takes 0 (fun as => (writeHead .list as.length).length + (as.flatMap write).length)
      (source.list item depth) := by
  cases depth with
  | zero => exact takes_malformed
  | succ depth =>
    intro bytes as rest h
    obtain ⟨n, mid, hhead, hmany⟩ := read_bind_eq_ok.mp h
    have hlist : (writeHead .list n).length + mid.length ≤ 0 + bytes.length :=
      takes_readHead .list _ _ _ hhead
    have hitems : (as.flatMap write).length + rest.length ≤ 0 + mid.length :=
      takes_readMany (hitem depth) n _ _ _ hmany
    -- as many items are read as the head says
    rw [← length_of_readMany hmany] at hlist
    change _ + (as.flatMap write).length + rest.length ≤ 0 + bytes.length
    omega

/-! ## Values of any shape -/

/-- Are no bytes added, whatever is read? -/
def Shrinks (read : Scan α) : Prop := Takes 0 (fun _ => 0) read

theorem Takes.shrinks {x : Scan α} (hx : Takes 0 cost x) : Shrinks x :=
  hx.mono fun _ => Nat.zero_le _

theorem shrinks_pure (a : α) : Shrinks (pure a) := takes_pure le_rfl

theorem shrinks_malformed : Shrinks (malformed : Scan α) := takes_malformed

theorem Shrinks.bind {x : Scan α} {f : α → Scan β} (hx : Shrinks x) (hf : ∀ a, Shrinks (f a)) :
    Shrinks (x >>= f) := Takes.bind hx hf

theorem Shrinks.map {x : Scan α} (hx : Shrinks x) (f : α → β) : Shrinks (f <$> x) :=
  Takes.map hx fun _ => le_rfl

theorem Shrinks.many {item : Scan α} (hitem : Shrinks item) (n : Nat) :
    Shrinks (readMany item n) :=
  have hnone : Takes 0 (fun _ => ([] : List UInt8).length) item := hitem
  (takes_readMany hnone n).shrinks

theorem shrinks_readSimple : Shrinks readSimple := by
  refine takes_next.shrinks.bind fun b => ?_
  split_ifs
  · exact shrinks_pure _
  · exact shrinks_pure _
  · exact shrinks_pure _
  · exact (takes_take 4).shrinks.map _
  · exact (takes_take 8).shrinks.map _
  · exact shrinks_malformed

theorem shrinks_readItem (depth : Nat) : Shrinks (readItem depth) := by
  have hhead (major : Major) : Shrinks (readHead major) := (takes_readHead major).shrinks
  have htake (n : Nat) : Shrinks (take n) := (takes_take n).shrinks
  have htext (bytes : List UInt8) : Shrinks (textOf bytes) := by
    unfold textOf
    split
    · exact shrinks_pure _
    · exact shrinks_malformed
  refine takes_peek.shrinks.bind fun b => ?_
  split
  · exact shrinks_malformed
  split
  · exact ((hhead _).bind fun n => shrinks_pure _).map _
  · exact ((hhead _).bind fun n => shrinks_pure _).map _
  · exact (hhead _).bind fun n => (htake n).bind fun _ => shrinks_pure _
  · exact (hhead _).bind fun n => (htake n).bind fun bytes => (htext bytes).bind fun _ =>
      shrinks_pure _
  · exact (hhead _).map _
  · exact (hhead _).map _
  · exact (takes_readLink depth).shrinks.map _
  · exact shrinks_readSimple

theorem shrinks_readBuffered (depth : Nat) : Shrinks (readBuffered depth) := by
  -- a list and a map take two of the depth, so the induction has to reach below the predecessor
  induction depth using Nat.strongRecOn with
  | ind depth ih =>
    cases depth with
    | zero =>
      rw [readBuffered]
      exact shrinks_malformed
    | succ depth =>
      rw [readBuffered]
      refine (shrinks_readItem depth).bind fun item => ?_
      cases item with
      | integer n =>
        dsimp only
        split
        · exact takes_throw _
        · exact shrinks_pure _
      | link cid => exact takes_throw _
      | list size =>
        cases depth with
        | zero => exact shrinks_malformed
        | succ depth => exact ((ih depth (by omega)).many size).map _
      | map size =>
        cases depth with
        | zero => exact shrinks_malformed
        | succ depth =>
          have hvalue := ih depth (by omega)
          have hentry := hvalue.bind fun key => hvalue.bind fun value => shrinks_pure (key, value)
          exact (hentry.many size).map _
      | _ => exact shrinks_pure _

/-! ## Records -/

/-- Where each entry adds its key and what its value costs, the fields that were read have been paid
for. -/
theorem takes_readFields {σ : Type} {cost : σ → Nat} {step : String → σ → Read σ} {depth : Nat}
    (hstep : ∀ key slots, Takes (1 + key.length + cost slots) cost ((step key slots).run depth))
    (n : Nat) (slots : σ) : Takes (cost slots) cost (readFields step depth n slots) := by
  induction n generalizing slots with
  | zero => exact takes_pure le_rfl
  | succ n ih =>
    exact ((takes_readText depth).after (cost slots)).bind fun key =>
      (hstep key slots).bind fun slots' => ih slots'

end MarketDag.Cbor
