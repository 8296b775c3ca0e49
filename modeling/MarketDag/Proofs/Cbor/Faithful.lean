import MarketDag.Proofs.Cbor.Head
import MarketDag.Proofs.Shape.Reader

/-!
# Binary trees are faithful

Whatever is written as a binary tree is read back, if its bytes are fewer than 2 ^ 64
(`faithful`).  So a value of a sound shape is read back from the bytes of its canonical tree
(`decode_write`).
-/

namespace MarketDag.Cbor

/-! ## Writing -/

theorem writeItems_eq (items : List Ipld) : writeItems items = items.flatMap write := by
  induction items with
  | nil => rfl
  | cons item items ih => rw [writeItems, ih, List.flatMap_cons]

theorem writeEntries_eq (entries : List (String × Ipld)) :
    writeEntries entries = entries.map fun e => (e.1, write e.2) := by
  induction entries with
  | nil => rfl
  | cons e entries ih => rw [writeEntries, ih, List.map_cons]

/-- The bytes of an entry: its key and its value. -/
def writeEntry (e : String × Ipld) : List UInt8 := writeText e.1 ++ write e.2

/-- A map is written entry by entry, in some order. -/
theorem write_map (entries : List (String × Ipld)) :
    ∃ entries' : List (String × Ipld), entries'.Perm entries ∧
      write (.map entries) =
        writeHead .map entries'.length ++ entries'.flatMap writeEntry := by
  have hperm := sortEntries_perm shorterBefore entries
  refine ⟨sortEntries shorterBefore entries, hperm, ?_⟩
  rw [write, writeEntries_eq, sortEntries_map, List.flatMap_map, hperm.length_eq]
  rfl

theorem length_write_map (entries : List (String × Ipld)) :
    (write (.map entries)).length =
      (writeHead .map entries.length).length + (entries.flatMap writeEntry).length := by
  obtain ⟨entries', hperm, hwrite⟩ := write_map entries
  rw [hwrite, List.length_append, hperm.length_eq, (hperm.flatMap_right writeEntry).length_eq]

theorem write_list (items : List Ipld) :
    write (.list items) = writeHead .list items.length ++ items.flatMap write := by
  rw [write, writeItems_eq]

theorem writeEntry_ne_nil (e : String × Ipld) : writeEntry e ≠ [] := by
  simp [writeEntry, writeText, writeHead_ne_nil]

/-- No tree but null begins with the byte of the missing value. -/
theorem write_eq_cons {t : Ipld} (h : t ≠ .null) :
    ∃ b bytes, write t = b :: bytes ∧ b ≠ nullByte := by
  -- the byte of null is of the simple major type, so a head of any other type differs from it
  have hhead : ∀ (major : Major) (n : Nat) (rest : List UInt8), major ≠ .simple →
      ∃ b bytes, writeHead major n ++ rest = b :: bytes ∧ b ≠ nullByte := by
    intro major n rest hmajor
    obtain ⟨low, bytes, hlow, hwrite, -⟩ := writeHead_eq_cons major n
    refine ⟨_, bytes ++ rest, by rw [hwrite]; rfl, fun heq => ?_⟩
    have hcode := congrArg majorCode heq
    rw [majorCode_first hlow] at hcode
    cases major <;> first | exact hmajor rfl | cases hcode
  cases t with
  | null => exact absurd rfl h
  | bool b => cases b <;> exact ⟨_, _, rfl, by decide⟩
  | integer n =>
    rw [write, writeInteger]
    split
    · rw [← List.append_nil (writeHead _ _)]
      exact hhead _ _ _ (by decide)
    · rw [← List.append_nil (writeHead _ _)]
      exact hhead _ _ _ (by decide)
  | float x => exact ⟨_, _, rfl, by decide⟩
  | text s => exact hhead _ _ _ (by decide)
  | bytes b => exact hhead _ _ _ (by decide)
  | list items => exact hhead _ _ _ (by decide)
  | map entries => exact hhead _ _ _ (by decide)
  | link cid =>
    rw [write, writeLink]
    exact hhead _ _ _ (by decide)

theorem write_ne_nil (t : Ipld) : write t ≠ [] := by
  by_cases h : t = .null
  · subst h
    exact List.cons_ne_nil _ _
  · obtain ⟨b, bytes, hwrite, -⟩ := write_eq_cons h
    rw [hwrite]
    exact List.cons_ne_nil _ _

/-- There are no more parts than bytes. -/
theorem length_le_flatMap {α : Type} {f : α → List UInt8} (hf : ∀ a, f a ≠ []) (as : List α) :
    as.length ≤ (as.flatMap f).length := by
  induction as with
  | nil => exact Nat.zero_le _
  | cons a as ih =>
    have hpos := List.length_pos_iff.mpr (hf a)
    rw [List.flatMap_cons, List.length_append, List.length_cons]
    omega

theorem length_le_flatMap_of_mem {α : Type} {f : α → List UInt8} {as : List α} {a : α}
    (h : a ∈ as) : (f a).length ≤ (as.flatMap f).length := by
  obtain ⟨before, after, rfl⟩ := List.append_of_mem h
  rw [List.flatMap_append, List.flatMap_cons, List.length_append, List.length_append]
  omega

/-- Where the bytes of a list have a size, so have the number of its items and their bytes. -/
theorem sizes_of_write_list {items : List Ipld} (h : (write (.list items)).length < UInt64.size) :
    items.length < UInt64.size ∧ ∀ t ∈ items, (write t).length < UInt64.size := by
  rw [write_list, List.length_append] at h
  have hcount := length_le_flatMap write_ne_nil items
  refine ⟨by omega, fun t ht => ?_⟩
  have hlength := length_le_flatMap_of_mem (f := write) ht
  omega

/-- Where the bytes of a map have a size, so have the number of its entries and their bytes, in the
order in which they are written. -/
theorem sizes_of_write_map {entries : List (String × Ipld)}
    (h : (write (.map entries)).length < UInt64.size) :
    ∃ entries' : List (String × Ipld), entries'.Perm entries ∧
      write (.map entries) = writeHead .map entries'.length ++ entries'.flatMap writeEntry ∧
      entries'.length < UInt64.size ∧ (entries'.flatMap writeEntry).length < UInt64.size ∧
      ∀ e ∈ entries', (writeEntry e).length < UInt64.size := by
  obtain ⟨entries', hperm, hwrite⟩ := write_map entries
  rw [hwrite, List.length_append] at h
  have hcount := length_le_flatMap writeEntry_ne_nil entries'
  refine ⟨entries', hperm, hwrite, by omega, by omega, fun e he => ?_⟩
  have hlength := length_le_flatMap_of_mem (f := writeEntry) he
  omega

theorem length_write_lt_of_entry {e : String × Ipld} (h : (writeEntry e).length < UInt64.size) :
    (write e.2).length < UInt64.size := by
  rw [writeEntry, List.length_append] at h
  omega

/-! ## Items -/

theorem readItem_text (depth : Nat) {s : String} (h : (writeText s).length < UInt64.size)
    (rest : List UInt8) : readItem depth (writeText s ++ rest) = .ok (.text s, rest) := by
  have hlength := Nat.lt_of_le_of_lt (length_encode_le s) h
  obtain ⟨b, hpeek, hmajor, hinfo, -⟩ :=
    peek_writeHead .text (Utf8.encode s).length (Utf8.encode s ++ rest)
  rw [writeText_append, readItem, read_bind hpeek, if_neg hinfo, hmajor]
  simp only [Major.code]
  rw [read_bind (readHead_writeHead .text hlength _), read_bind (take_append _ rest), textOf,
    Utf8.decode?_encode]
  rfl

theorem readItem_unsigned (depth : Nat) {n : Nat} (h : n < UInt64.size) (rest : List UInt8) :
    readItem depth (writeHead .unsigned n ++ rest) = .ok (.integer n, rest) := by
  obtain ⟨b, hpeek, hmajor, hinfo, -⟩ := peek_writeHead .unsigned n rest
  rw [readItem, read_bind hpeek, if_neg hinfo, hmajor]
  exact read_map ((read_bind (readHead_writeHead .unsigned h rest)).trans rfl)

theorem readItem_list (depth : Nat) {n : Nat} (h : n < UInt64.size) (rest : List UInt8) :
    readItem depth (writeHead .list n ++ rest) = .ok (.list n, rest) := by
  obtain ⟨b, hpeek, hmajor, hinfo, -⟩ := peek_writeHead .list n rest
  rw [readItem, read_bind hpeek, if_neg hinfo, hmajor]
  exact read_map (readHead_writeHead .list h rest)

theorem readItem_map (depth : Nat) {n : Nat} (h : n < UInt64.size) (rest : List UInt8) :
    readItem depth (writeHead .map n ++ rest) = .ok (.map n, rest) := by
  obtain ⟨b, hpeek, hmajor, hinfo, -⟩ := peek_writeHead .map n rest
  rw [readItem, read_bind hpeek, if_neg hinfo, hmajor]
  exact read_map (readHead_writeHead .map h rest)

theorem readItem_null (depth : Nat) (rest : List UInt8) :
    readItem depth (nullByte :: rest) = .ok (.null, rest) := rfl

/-! ## Many values -/

theorem readMany_flatMap {α β : Type} {read : Scan β} {write : α → List UInt8} {as : List α}
    {bs : List β}
    (h : List.Forall₂ (fun a b => ∀ rest, read (write a ++ rest) = .ok (b, rest)) as bs)
    (rest : List UInt8) :
    readMany read as.length (as.flatMap write ++ rest) = .ok (bs, rest) := by
  induction h with
  | nil => rfl
  | cons hab _ ih =>
    rw [List.flatMap_cons, List.append_assoc, List.length_cons, readMany, read_bind (hab _),
      read_bind ih]
    rfl

/-! ## Values of any shape -/

theorem readBuffered_text {depth : Nat} {s : String} (hdepth : 1 ≤ depth)
    (h : (writeText s).length < UInt64.size) (rest : List UInt8) :
    readBuffered depth (writeText s ++ rest) = .ok (.text s, rest) := by
  obtain ⟨k, rfl⟩ := Nat.exists_eq_add_of_le' hdepth
  rw [readBuffered, read_bind (readItem_text k h rest)]
  rfl

/-- The reader of an entry of any shape. -/
def readEntry (depth : Nat) : Scan (Buffered × Buffered) := do
  return (← readBuffered depth, ← readBuffered depth)

theorem readEntry_write {depth : Nat} {e : String × Ipld} {value : Buffered} (hdepth : 1 ≤ depth)
    (hsize : (writeEntry e).length < UInt64.size)
    (hread : ∀ rest, readBuffered depth (write e.2 ++ rest) = .ok (value, rest))
    (rest : List UInt8) :
    readEntry depth (writeEntry e ++ rest) = .ok ((.text e.1, value), rest) := by
  rw [writeEntry, List.length_append] at hsize
  rw [writeEntry, List.append_assoc, readEntry,
    read_bind (readBuffered_text hdepth (by omega) _), read_bind (hread rest)]
  rfl

/-- What is buffered where a plain tree is written represents it. -/
theorem readBuffered_write {h depth : Nat} {t : Ipld} (ht : t.PlainWithin h)
    (hdepth : 2 * h + 1 ≤ depth) (hsize : (write t).length < UInt64.size) :
    ∃ value, Represents t value ∧
      ∀ rest, readBuffered depth (write t ++ rest) = .ok (value, rest) := by
  obtain ⟨k, rfl⟩ := Nat.exists_eq_add_of_le' (Nat.le_of_add_left_le hdepth)
  -- a list or a map takes one from the budget for itself and one for what is in it
  cases t with
  | null =>
    refine ⟨.absent, .absent, fun rest => ?_⟩
    rw [write, List.singleton_append, readBuffered, read_bind (readItem_null k rest)]
    rfl
  | integer n =>
    obtain ⟨hlow, hhigh⟩ := Ipld.plainWithin_integer.mp ht
    refine ⟨.integer n, .integer n, fun rest => ?_⟩
    have hsmall : n.toNat < UInt64.size := by
      simp only [UInt64.size]
      omega
    rw [write, writeInteger, if_pos hlow, readBuffered,
      read_bind (readItem_unsigned k hsmall rest), Int.toNat_of_nonneg hlow]
    exact congrFun (if_neg (by omega)) rest
  | text s =>
    exact ⟨.text s, .text s, readBuffered_text (by omega) hsize⟩
  | list items =>
    cases h with
    | zero => exact ht.elim
    | succ h =>
      obtain ⟨j, rfl⟩ := Nat.exists_eq_add_of_le' (show 1 ≤ k by omega)
      obtain ⟨hcount, hsizes⟩ := sizes_of_write_list hsize
      have hitem : ∀ t ∈ items, ∃ value, Represents t value ∧
          ∀ rest, readBuffered j (write t ++ rest) = .ok (value, rest) := fun t hmem =>
        readBuffered_write (ht t hmem) (by omega) (hsizes t hmem)
      obtain ⟨values, hvalues⟩ := exists_forall₂ hitem
      refine ⟨.list values, .list (hvalues.imp fun _ _ h => h.1), fun rest => ?_⟩
      rw [write_list, List.append_assoc, readBuffered, read_bind (readItem_list _ hcount _)]
      exact read_map (readMany_flatMap (hvalues.imp fun _ _ h => h.2) rest)
  | map entries =>
    cases h with
    | zero => exact ht.elim
    | succ h =>
      obtain ⟨j, rfl⟩ := Nat.exists_eq_add_of_le' (show 1 ≤ k by omega)
      obtain ⟨entries', hperm, hwrite, hcount, -, hsizes⟩ := sizes_of_write_map hsize
      -- a key and its value are two items for the reader, written as one entry
      have hentry : ∀ e ∈ entries', ∃ v : Buffered × Buffered,
          (v.1 = .text e.1 ∧ Represents e.2 v.2) ∧
            ∀ rest, readEntry j (writeEntry e ++ rest) = .ok (v, rest) := by
        intro e hmem
        obtain ⟨value, hvalue, hread⟩ := readBuffered_write (ht e (hperm.mem_iff.mp hmem))
          (show 2 * h + 1 ≤ j by omega) (length_write_lt_of_entry (hsizes e hmem))
        exact ⟨(.text e.1, value), ⟨rfl, hvalue⟩, readEntry_write (by omega) (hsizes e hmem) hread⟩
      obtain ⟨values, hvalues⟩ := exists_forall₂ hentry
      have hentries := representsEntries_of_forall₂ (hvalues.imp fun _ _ h => h.1)
      refine ⟨.map values, .map hperm hentries, fun rest => ?_⟩
      rw [hwrite, List.append_assoc, readBuffered, read_bind (readItem_map _ hcount _)]
      exact read_map (readMany_flatMap (hvalues.imp fun _ _ h => h.2) rest)
  | _ => cases h <;> exact ht.elim

/-! ## The source -/

/-- With a budget of `d`, the reader gives `a` where the tree `t` is written. -/
def Reads {α : Type} (d : Nat) (t : Ipld) (x : Read α) (a : α) : Prop :=
  (write t).length < UInt64.size → ∀ rest, x d (write t ++ rest) = .ok (a, rest)

theorem readOptional_none {α : Type} (x : Read α) (d : Nat) (rest : List UInt8) :
    readOptional x d (write .null ++ rest) = .ok (none, rest) := rfl

theorem readOptional_some {α : Type} {x : Read α} {d : Nat} {t : Ipld} {a : α} (ht : t ≠ .null)
    {rest : List UInt8} (h : x d (write t ++ rest) = .ok (a, rest)) :
    readOptional x (d + 1) (write t ++ rest) = .ok (some a, rest) := by
  obtain ⟨b, bytes, hwrite, hb⟩ := write_eq_cons ht
  have hpeek : peek (write t ++ rest) = .ok (b, write t ++ rest) := by rw [hwrite]; rfl
  rw [readOptional, read_bind hpeek, if_neg hb]
  exact read_map h

/-- The bytes of a header. -/
def writeTexts (e : String × String) : List UInt8 := writeText e.1 ++ writeText e.2

theorem flatMap_writeEntry (texts : List (String × String)) :
    (texts.map fun e => (e.1, Ipld.text e.2)).flatMap writeEntry = texts.flatMap writeTexts := by
  rw [List.flatMap_map]
  rfl

/-- Headers are read one after the other. -/
theorem readHeaders_flatMap {depth : Nat} {texts : List (String × String)} {hs : Headers}
    (hsize : (texts.flatMap writeTexts).length < UInt64.size) (rest : List UInt8) :
    readHeaders depth texts.length hs (texts.flatMap writeTexts ++ rest) =
      .ok (texts.foldl (fun hs e => hs.insert e.1 e.2) hs, rest) := by
  induction texts generalizing hs with
  | nil => rfl
  | cons e texts ih =>
    rw [List.flatMap_cons, List.length_append, writeTexts, List.length_append] at hsize
    rw [List.flatMap_cons, writeTexts, List.append_assoc, List.append_assoc, List.length_cons,
      readHeaders, read_bind (readText_writeText depth (by omega) _),
      read_bind (readText_writeText depth (by omega) _), ih (by omega)]
    rfl

theorem readHeaders_write {hs : Headers} {t : Ipld} {depth : Nat}
    (h : Leaf.layout .headers hs = .ok t) (hsize : (write t.canonical).length < UInt64.size)
    (rest : List UInt8) :
    (readHead .map >>= fun n => readHeaders depth n .empty) (write t.canonical ++ rest) =
      .ok (hs, rest) := by
  obtain ⟨sorted, hsorted, htexts⟩ := layout_headers h
  rw [hsorted] at hsize ⊢
  obtain ⟨es', hperm, hwrite, hcount, hsmall, -⟩ := sizes_of_write_map hsize
  obtain ⟨texts, htexts, rfl⟩ := htexts es' hperm
  rw [List.length_map] at hcount hwrite
  rw [flatMap_writeEntry] at hwrite hsmall
  rw [hwrite, List.append_assoc, read_bind (readHead_writeHead .map hcount _),
    readHeaders_flatMap hsmall, Headers.foldl_insert_perm htexts]

theorem leaf_layout {leaf : Leaf} {v : leaf.Value} {t : Ipld} {d : Nat}
    (hleaf : leaf.Sound true = true) (h : leaf.layout v = .ok t) (hd : leaf.budget ≤ d) :
    Reads d t.canonical (readLeaf leaf) (leaf.normal v) := by
  -- a leaf is written as one item; only a choice and an option look at its first byte before
  intro hsize rest
  cases leaf with
  | text =>
    cases h
    exact readText_writeText d hsize rest
  | decimal =>
    obtain ⟨k, rfl⟩ := Nat.exists_eq_add_of_le' hd
    cases h
    change readDecimalItem k (writeText _ ++ rest) = _
    rw [readDecimalItem, read_bind (readItem_text k hsize rest)]
    simp only [readDecimal_canonicalText]
    rfl
  | date =>
    cases h
    change (readText d >>= _) (writeText _ ++ rest) = _
    rw [read_bind (readText_writeText d hsize rest), readDate_toText]
    rfl
  | instant =>
    obtain ⟨s, hs, rfl⟩ := layout_instant h
    change (readText d >>= _) (writeText _ ++ rest) = _
    rw [read_bind (readText_writeText d hsize rest), readInstant_canonical hs]
    rfl
  | link =>
    cases h
    exact readLink_writeLink d hsize rest
  | count =>
    cases h
    have hsmall : v.val < UInt64.size := Nat.lt_of_lt_of_le v.isLt (by decide)
    have hwrite : write (Ipld.integer v.val) = writeHead .unsigned v.val := rfl
    change (readHead .unsigned >>= _) (write (Ipld.integer v.val) ++ rest) = _
    rw [hwrite, read_bind (readHead_writeHead .unsigned hsmall rest), readCount_val]
    rfl
  | headers =>
    obtain ⟨k, rfl⟩ := Nat.exists_eq_add_of_le' hd
    exact readHeaders_write h hsize rest
  | choice names =>
    obtain ⟨k, rfl⟩ := Nat.exists_eq_add_of_le' hd
    cases h
    change readChoice names k (writeText (names.get v) ++ rest) = _
    -- a choice may stand as a text or as a map of one entry: the first byte tells which
    have hread := readText_writeText k hsize rest
    obtain ⟨b, hpeek, hmajor, -⟩ := peek_writeHead .text (Utf8.encode (names.get v)).length
      (Utf8.encode (names.get v) ++ rest)
    rw [← writeText_append] at hpeek
    rw [readChoice, read_bind hpeek, if_pos hmajor, read_bind hread,
      choose_get (of_decide_eq_true hleaf)]
    rfl
  | optional inner =>
    cases v with
    | none =>
      cases h
      exact readOptional_none (readLeaf inner) d rest
    | some v =>
      obtain ⟨k, rfl⟩ := Nat.exists_eq_add_of_le' (Nat.le_of_add_left_le hd)
      -- the value is there, and is not written as null, which would be read as its absence
      obtain ⟨hinner, hnever⟩ := Leaf.sound_inner hleaf
      have hnull := mt Ipld.canonical_eq_null_iff.mp (Leaf.layout_ne_null hnever h)
      have hread := leaf_layout hinner h (Nat.le_of_succ_le_succ hd) hsize rest
      exact readOptional_some hnull hread

/-- Fields are read one after the other. -/
theorem readFields_flatMap {σ : Type} {d : Nat} {step : String → σ → Read σ}
    {es : List (String × Ipld)} {start last : σ} (hsteps : Steps (Reads d) step es start last)
    (hsize : (es.flatMap writeEntry).length < UInt64.size) (rest : List UInt8) :
    readFields step d es.length start (es.flatMap writeEntry ++ rest) = .ok (last, rest) := by
  induction hsteps with
  | nil slots => rfl
  | @cons key t es _ _ _ head _ ih =>
    simp only [List.flatMap_cons, List.length_append, writeEntry] at hsize
    have hkey : (writeText key).length < UInt64.size := by omega
    rw [List.flatMap_cons, writeEntry, List.append_assoc, List.append_assoc, List.length_cons,
      readFields, read_bind (readText_writeText d hkey _)]
    exact (read_bind (head (by omega) _)).trans (ih (by omega))

/-- Whatever is written is read back. -/
def faithful : Faithful source true where
  Reads := Reads
  bind {_ _ _ _ _ f _ _} hx hf hsize rest := by
    refine Eq.trans (read_bind (f := fun a => f a _) (hx hsize rest)) ?_
    rw [hf]
    rfl
  leaf := leaf_layout
  list {_ d x ts as} hread hsize rest := by
    obtain ⟨hcount, hsizes⟩ := sizes_of_write_list hsize
    have hitems := ((List.forall₂_and_left ts as).mpr ⟨hsizes, hread⟩).imp fun _ _ h => h.2 h.1
    change (readHead .list >>= _) (write (.list ts) ++ rest) = _
    rw [write_list, List.append_assoc, read_bind (readHead_writeHead .list hcount _)]
    exact readMany_flatMap hitems rest
  optional_none _ rest := readOptional_none _ _ rest
  optional_some ht hread hsize rest := readOptional_some ht (hread hsize rest)
  record {_ _ d _ _ _ _ _ es _} hsteps hsize rest := by
    obtain ⟨es', hperm, hwrite, hcount, hsmall, -⟩ := sizes_of_write_map hsize
    obtain ⟨last, hsteps, hfinish⟩ := hsteps es' hperm
    change (readHead .map >>= _) (write (.map es) ++ rest) = _
    rw [hwrite, List.append_assoc, read_bind (readHead_writeHead .map hcount _),
      read_bind (readFields_flatMap hsteps hsmall rest), hfinish]
    rfl
  buffered {_ _ d _ f _} hplain hd hf hsize rest := by
    obtain ⟨value, hvalue, hread⟩ := readBuffered_write hplain hd hsize
    let next (value : Buffered) : Read _ := MonadExcept.ofExcept (f value)
    refine Eq.trans (read_bind (f := fun value => next value d) (hread rest)) ?_
    simp only [next]
    rw [hf value hvalue]
    rfl

/-- A value of a sound shape is read back from the bytes of every tree that stands for it, with its
decimals in canonical form. -/
theorem decode_of_writes {shape : Shape} {v : shape.Value} {t : Ipld}
    (hshape : shape.Sound true = true) (hbudget : shape.budget ≤ maxDepth) (h : shape.Writes v t)
    (hsize : (write t).length < UInt64.size) : decode shape (write t) = .ok (shape.normal v) := by
  have hread := shape.reads_of_writes faithful hshape v t h maxDepth hbudget hsize []
  rw [List.append_nil] at hread
  rw [decode, readAll]
  exact bind_eq_ok.mpr ⟨_, hread, rfl⟩

/-- A value of a sound shape is read back from the bytes of its canonical tree. -/
theorem decode_write {shape : Shape} {v : shape.Value} {t : Ipld} (hshape : shape.Sound true = true)
    (hbudget : shape.budget ≤ maxDepth) (h : shape.layout v = .ok t)
    (hsize : (write t.canonical).length < UInt64.size) :
    decode shape (write t.canonical) = .ok (shape.normal v) :=
  decode_of_writes hshape hbudget (shape.writes_canonical hshape h) hsize

end MarketDag.Cbor
