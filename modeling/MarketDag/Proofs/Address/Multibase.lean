import Mathlib.Data.List.TakeWhile
import Mathlib.Data.Nat.Digits.Lemmas
import MarketDag.Address.Multibase
import MarketDag.Proofs.Except

/-!
# Multibase: the round trip

Bytes are read back from groups of their bits (`unpack_pack`), and from the digits of one number
(`changeRadix_changeRadix`), zeros in front included.  A base whose symbols are told apart
(`Base.Exact`) so gives back the bytes that it has written.
-/

namespace MarketDag.Multibase

/-! ## Bits -/

@[simp] theorem length_toBits (width n : Nat) : (toBits width n).length = width := by
  induction width with
  | zero => rfl
  | succ width ih => rw [toBits, List.length_cons, ih]

theorem foldl_bits (bits : List Bool) (n : Nat) :
    bits.foldl (fun n b => 2 * n + b.toNat) n = 2 ^ bits.length * n + ofBits bits := by
  induction bits using List.reverseRecOn with
  | nil => simp [ofBits]
  | append_singleton bits b ih =>
    rw [ofBits, List.foldl_append, List.foldl_append, ih, List.length_append]
    simp only [List.foldl_cons, List.foldl_nil, List.length_singleton, ofBits, Nat.pow_succ]
    grind

theorem ofBits_cons (b : Bool) (bits : List Bool) :
    ofBits (b :: bits) = 2 ^ bits.length * b.toNat + ofBits bits := by
  rw [ofBits, List.foldl_cons, foldl_bits, Nat.mul_zero, Nat.zero_add]

theorem ofBits_lt (bits : List Bool) : ofBits bits < 2 ^ bits.length := by
  induction bits with
  | nil => decide
  | cons b bits ih =>
    have hb : b.toNat ≤ 1 := b.toNat_le
    have hmul : 2 ^ bits.length * b.toNat ≤ 2 ^ bits.length * 1 := Nat.mul_le_mul_left _ hb
    rw [ofBits_cons, List.length_cons, Nat.pow_succ]
    omega

theorem toBits_congr {width n m : Nat} (h : ∀ i < width, n.testBit i = m.testBit i) :
    toBits width n = toBits width m := by
  induction width with
  | zero => rfl
  | succ width ih =>
    rw [toBits, toBits, h width (Nat.lt_succ_self _), ih fun i hi => h i (Nat.lt_succ_of_lt hi)]

/-- Bits are those of the number that they make. -/
theorem toBits_ofBits (bits : List Bool) : toBits bits.length (ofBits bits) = bits := by
  induction bits with
  | nil => rfl
  | cons b bits ih =>
    have hbit (i : Nat) := Nat.testBit_two_pow_mul_add b.toNat (ofBits_lt bits) i
    have hhigh : (2 ^ bits.length * b.toNat + ofBits bits).testBit bits.length = b := by
      rw [hbit, if_neg (Nat.lt_irrefl _), Nat.sub_self]
      cases b <;> rfl
    have hlow : toBits bits.length (2 ^ bits.length * b.toNat + ofBits bits) = bits := by
      rw [toBits_congr fun i hi => (hbit i).trans (if_pos hi), ih]
    rw [List.length_cons, ofBits_cons, toBits, hhigh, hlow]

/-- The lowest bits of a number make its remainder. -/
theorem ofBits_toBits (width n : Nat) : ofBits (toBits width n) = n % 2 ^ width := by
  induction width with
  | zero => rw [Nat.pow_zero, Nat.mod_one]; rfl
  | succ width ih =>
    rw [toBits, ofBits_cons, length_toBits, ih, Nat.mod_pow_succ, Nat.toNat_testBit, Nat.add_comm]

/-! ## Groups -/

theorem groups_nil (width : Nat) : groups width [] = [] := by
  rw [groups, dif_pos (.inr rfl)]

theorem groups_of_ne_nil {width : Nat} {bits : List Bool} (hwidth : 0 < width)
    (hbits : bits ≠ []) :
    groups width bits =
      (bits.take width ++ List.replicate (width - (bits.take width).length) false) ::
        groups width (bits.drop width) := by
  rw [groups, dif_neg (by simp [hbits]; omega)]

theorem length_of_mem_groups {width : Nat} {bits group : List Bool} (hwidth : 0 < width)
    (h : group ∈ groups width bits) : group.length = width := by
  induction bits using groups.induct width with
  | case1 bits hend =>
    rw [groups, dif_pos hend] at h
    cases h
  | case2 bits hend ih =>
    rw [not_or] at hend
    rw [groups_of_ne_nil hwidth hend.2] at h
    rcases List.mem_cons.mp h with rfl | h
    · rw [List.length_append, List.length_replicate]
      have hle := List.length_take_le width bits
      omega
    · exact ih h

/-- Groups hold the bits, and fewer zeros at the end than fill one. -/
theorem flatten_groups {width : Nat} (hwidth : 0 < width) (bits : List Bool) :
    ∃ pad < width, (groups width bits).flatten = bits ++ List.replicate pad false := by
  induction bits using groups.induct width with
  | case1 bits hend =>
    obtain rfl : bits = [] := hend.resolve_left (by omega)
    exact ⟨0, hwidth, by rw [groups_nil]; rfl⟩
  | case2 bits hend ih =>
    rw [not_or] at hend
    obtain ⟨pad, hpad, hflat⟩ := ih
    -- only the last group can be short, and is filled up with zeros
    by_cases hlong : width ≤ bits.length
    · refine ⟨pad, hpad, ?_⟩
      have htake : (bits.take width).length = width := List.length_take_of_le hlong
      rw [groups_of_ne_nil hwidth hend.2, List.flatten_cons, hflat, htake, Nat.sub_self,
        List.replicate_zero, List.append_nil, ← List.append_assoc, List.take_append_drop]
    · have htake : bits.take width = bits := List.take_of_length_le (by omega)
      have hdrop : bits.drop width = [] := List.drop_of_length_le (by omega)
      have hpos : 0 < bits.length := List.length_pos_iff.mpr hend.2
      refine ⟨width - bits.length, by omega, ?_⟩
      rw [groups_of_ne_nil hwidth hend.2, htake, hdrop, groups_nil, List.flatten_cons,
        List.flatten_nil, List.append_nil]

/-- Bits that come in whole groups are cut into these. -/
theorem groups_flatten {width : Nat} (hwidth : 0 < width) {gs : List (List Bool)}
    (h : ∀ g ∈ gs, g.length = width) : groups width gs.flatten = gs := by
  induction gs with
  | nil => exact groups_nil width
  | cons g gs ih =>
    obtain ⟨hg, hgs⟩ := List.forall_mem_cons.mp h
    have hne : g ++ gs.flatten ≠ [] := by
      intro hnil
      rw [(List.append_eq_nil_iff.mp hnil).1] at hg
      exact absurd hg (by simp; omega)
    rw [List.flatten_cons, groups_of_ne_nil hwidth hne, List.take_left' hg, List.drop_left' hg,
      ih hgs, hg, Nat.sub_self, List.replicate_zero, List.append_nil]

/-- The bytes of groups of bits are the bytes that were cut into them. -/
theorem unpack_pack {width : Nat} (hwidth : 0 < width) (hle : width ≤ 8) (bytes : List UInt8) :
    unpack width (pack width bytes) = some bytes := by
  generalize hbits : (bytes.flatMap fun b => toBits 8 b.toNat) = bits
  have hlength : bits.length = 8 * bytes.length := by
    rw [← hbits, List.length_flatMap]
    simp [Nat.mul_comm]
  obtain ⟨pad, hpad, hflat⟩ := flatten_groups hwidth bits
  have hvalues : ((groups width bits).map ofBits).flatMap (toBits width) =
      bits ++ List.replicate pad false := by
    rw [List.flatMap_map, List.flatMap_def, ← hflat]
    congr 1
    refine (List.map_congr_left fun g hg => ?_).trans (List.map_id _)
    rw [← length_of_mem_groups hwidth hg, toBits_ofBits]
    rfl
  have hbytes : (groups 8 bits).map (fun g => (ofBits g).toUInt8) = bytes := by
    have hgroups : groups 8 (bytes.map fun b => toBits 8 b.toNat).flatten = _ :=
      groups_flatten (by decide) (by simp)
    rw [← List.flatMap_def, hbits] at hgroups
    rw [hgroups, List.map_map]
    refine (List.map_congr_left fun b _ => ?_).trans (List.map_id _)
    simp [ofBits_toBits]
  -- the padding is less than a group, so it makes no byte of its own
  have hwhole : (bits ++ List.replicate pad false).length / 8 * 8 = bits.length := by
    rw [List.length_append, List.length_replicate]
    omega
  have hleft : (bits ++ List.replicate pad false).drop bits.length = List.replicate pad false :=
    List.drop_left
  rw [unpack, pack, hbits, hvalues, hwhole, hleft, List.take_left, hbytes]
  simp [hpad]

theorem lt_of_mem_pack {width v : Nat} {bytes : List UInt8} (hwidth : 0 < width)
    (h : v ∈ pack width bytes) : v < 2 ^ width := by
  obtain ⟨group, hgroup, rfl⟩ := List.mem_map.mp h
  have hlt := ofBits_lt group
  rwa [length_of_mem_groups hwidth hgroup] at hlt

/-! ## One number -/

section

variable {radix source target : Nat}

theorem digits_eq (h : 2 ≤ radix) (n : Nat) : digits radix n = (Nat.digits radix n).reverse := by
  induction n using digits.induct radix with
  | case1 n hn ih =>
    rw [digits, dif_pos hn, ih, Nat.digits_of_two_le_of_pos h hn.2, List.reverse_cons]
  | case2 n hn =>
    obtain rfl : n = 0 := by omega
    rw [digits, dif_neg hn, Nat.digits_zero, List.reverse_nil]

theorem ofDigits_eq (radix : Nat) (ds : List Nat) :
    ofDigits radix ds = Nat.ofDigits radix ds.reverse := by
  rw [Nat.ofDigits_eq_foldr, List.foldr_reverse, ofDigits]
  congr 1
  funext n d
  rw [Nat.cast_id, Nat.mul_comm, Nat.add_comm]

theorem ofDigits_digits (h : 2 ≤ radix) (n : Nat) : ofDigits radix (digits radix n) = n := by
  rw [ofDigits_eq, digits_eq h, List.reverse_reverse, Nat.ofDigits_digits]

theorem lt_of_mem_digits (h : 2 ≤ radix) {n d : Nat} (hd : d ∈ digits radix n) : d < radix := by
  rw [digits_eq h, List.mem_reverse] at hd
  exact Nat.digits_lt_base h hd

/-- Digits without a zero in front are those of their number. -/
theorem digits_ofDigits (h : 2 ≤ radix) {ds : List Nat} (hlt : ∀ d ∈ ds, d < radix)
    (hhead : ∀ hne : ds ≠ [], ds.head hne ≠ 0) : digits radix (ofDigits radix ds) = ds := by
  have hdigits := Nat.digits_ofDigits radix h ds.reverse (by simpa using hlt) fun hne => by
    rw [List.getLast_reverse]
    exact hhead (by simpa using hne)
  rw [digits_eq h, ofDigits_eq, hdigits, List.reverse_reverse]

/-- The digits of a number have no zero in front. -/
theorem takeWhile_digits (h : 2 ≤ radix) (n : Nat) :
    (digits radix n).takeWhile (· = 0) = [] := by
  rw [digits_eq h]
  rcases Nat.eq_zero_or_pos n with rfl | hpos
  · rw [Nat.digits_zero]
    rfl
  · have hne : Nat.digits radix n ≠ [] := Nat.digits_ne_nil_iff_ne_zero.mpr hpos.ne'
    have hlast := Nat.getLast_digit_ne_zero radix hpos.ne'
    rw [← List.dropLast_append_getLast hne, List.reverse_append, List.reverse_singleton]
    exact List.takeWhile_cons_of_neg (by simpa using hlast)

theorem ofDigits_zeros (radix count : Nat) (ds : List Nat) :
    ofDigits radix (List.replicate count 0 ++ ds) = ofDigits radix ds := by
  induction count with
  | zero => rfl
  | succ count ih =>
    rw [List.replicate_succ, List.cons_append, ofDigits, List.foldl_cons, Nat.zero_mul]
    exact ih

theorem changeRadix_zeros (ht : 2 ≤ target) (count n : Nat) :
    changeRadix target source (List.replicate count 0 ++ digits target n) =
      List.replicate count 0 ++ digits source n := by
  have hzeros : (List.replicate count 0 ++ digits target n).takeWhile (· = 0) =
      List.replicate count 0 := by
    rw [List.takeWhile_append_of_pos (by simp), takeWhile_digits ht, List.append_nil]
  rw [changeRadix, hzeros, List.length_replicate, ofDigits_zeros, ofDigits_digits ht]

theorem lt_of_mem_changeRadix (ht : 2 ≤ target) {ds : List Nat} {d : Nat}
    (h : d ∈ changeRadix source target ds) : d < target := by
  rcases List.mem_append.mp h with hd | hd
  · rw [(List.mem_replicate.mp hd).2]
    omega
  · exact lt_of_mem_digits ht hd

/-- Digits are read back from those in another radix, zeros in front included. -/
theorem changeRadix_changeRadix (hs : 2 ≤ source) (ht : 2 ≤ target) {ds : List Nat}
    (h : ∀ d ∈ ds, d < source) :
    changeRadix target source (changeRadix source target ds) = ds := by
  have hzeros : List.replicate (ds.takeWhile (· = 0)).length 0 = ds.takeWhile (· = 0) := by
    refine (List.eq_replicate_of_mem fun d hd => ?_).symm
    simpa using List.mem_takeWhile_imp hd
  have hsplit : List.replicate (ds.takeWhile (· = 0)).length 0 ++ ds.dropWhile (· = 0) = ds := by
    rw [hzeros, List.takeWhile_append_dropWhile]
  have hrest : digits source (ofDigits source ds) = ds.dropWhile (· = 0) := by
    rw [← hsplit, ofDigits_zeros, hsplit]
    refine digits_ofDigits hs (fun d hd => h d (List.dropWhile_sublist _ |>.subset hd)) ?_
    intro hne
    exact of_decide_eq_false (List.head_dropWhile_not (· = 0) hne)
  rw [changeRadix.eq_def source, changeRadix_zeros ht, hrest, hsplit]

/-- The first digits of a number are those of its highest part. -/
theorem digits_eq_append (h : 2 ≤ radix) {n k : Nat} (hn : 0 < n / radix ^ k) :
    ∃ ds, digits radix n = digits radix (n / radix ^ k) ++ ds ∧ ds.length = k := by
  induction k with
  | zero => exact ⟨[], by rw [Nat.pow_zero, Nat.div_one, List.append_nil], rfl⟩
  | succ k ih =>
    rw [Nat.pow_succ, ← Nat.div_div_eq_div_mul] at hn ⊢
    have hpos : 0 < n / radix ^ k := Nat.pos_of_div_pos hn
    obtain ⟨ds, hds, hlength⟩ := ih hpos
    refine ⟨n / radix ^ k % radix :: ds, ?_, by rw [List.length_cons, hlength]⟩
    rw [hds, digits.eq_def radix (n / radix ^ k), dif_pos ⟨h, hpos⟩, List.append_assoc,
      List.singleton_append]

end

/-! ## Bases -/

namespace Base

variable {base : Base}

/-- Are the symbols of a base told apart? -/
def Exact (base : Base) : Prop := ∀ v < base.symbols.length, base.value? (base.symbol v) = some v

instance (base : Base) : Decidable base.Exact :=
  inferInstanceAs (Decidable (∀ v < base.symbols.length, base.value? (base.symbol v) = some v))

theorem Exact.values? (h : base.Exact) {vs : List Nat} (hvs : ∀ v ∈ vs, v < base.symbols.length) :
    base.values? (vs.map base.symbol) = some vs := by
  induction vs with
  | nil => rfl
  | cons v vs ih =>
    obtain ⟨hv, hvs⟩ := List.forall_mem_cons.mp hvs
    have hrest : (vs.map base.symbol).mapM base.value? = some vs := ih hvs
    rw [Base.values?, List.map_cons, List.mapM_cons, h v hv, hrest]
    rfl

theorem decode?_encodeGroups {width : Nat} (h : base.Exact) (hscheme : base.scheme = .grouped width)
    (hwidth : 0 < width) (hle : width ≤ 8) (hsize : 2 ^ width ≤ base.symbols.length)
    (bytes : List UInt8) : base.decode? (base.encodeGroups width bytes) = some bytes := by
  have hvalues : base.values? ((pack width bytes).map base.symbol) = some (pack width bytes) :=
    h.values? fun v hv => Nat.lt_of_lt_of_le (lt_of_mem_pack hwidth hv) hsize
  rw [decode?, hscheme]
  change base.values? ((pack width bytes).map base.symbol) >>= unpack width = some bytes
  rw [hvalues]
  exact unpack_pack hwidth hle bytes

theorem decode?_encodeNumber (h : base.Exact) (hscheme : base.scheme = .positional)
    (hsize : 2 ≤ base.symbols.length) (bytes : List UInt8) :
    base.decode? (base.encodeNumber bytes) = some bytes := by
  have hbytes : ∀ d ∈ bytes.map UInt8.toNat, d < 256 := by
    intro d hd
    obtain ⟨b, -, rfl⟩ := List.mem_map.mp hd
    exact b.toNat_lt
  have hvalues : base.values? (base.encodeNumber bytes) = some _ :=
    h.values? fun v hv => lt_of_mem_changeRadix hsize hv
  -- the number keeps its leading zeros in either base, so the bytes come back as they were
  have hback := changeRadix_changeRadix (by decide) hsize hbytes
  have hbyte : Nat.toUInt8 ∘ UInt8.toNat = id := by
    funext b
    simp
  rw [decode?, hscheme]
  change (base.values? (base.encodeNumber bytes) >>= fun ds => _) = some bytes
  rw [hvalues]
  change some ((changeRadix base.symbols.length 256 _).map Nat.toUInt8) = some bytes
  rw [hback, List.map_map, hbyte, List.map_id]

end Base

end MarketDag.Multibase
