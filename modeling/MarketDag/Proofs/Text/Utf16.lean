import MarketDag.Proofs.Text.Utf8
import MarketDag.Text.Marked

/-!
# UTF-16 with replacement characters

Two bytes are a unit, and one or two units a character.  Reading with replacement characters gives
the characters that stand there, one replacement character for each half without the other one, and
one for what the end cuts off (`Utf16.replaces_iff`).
-/

namespace MarketDag.Utf16

variable {bigEndian : Bool}

/-! ## Units -/

/-- The two bytes of a unit. -/
def bytesOf (bigEndian : Bool) (unit : Nat) : List UInt8 :=
  if bigEndian then [(unit / 256).toUInt8, (unit % 256).toUInt8]
  else [(unit % 256).toUInt8, (unit / 256).toUInt8]

/-- Are bytes those of some units, perhaps with one byte more? -/
structure HoldsUnits (bigEndian : Bool) (bytes : List UInt8) (us : List Nat) (odd : Bool) :
    Prop where
  lt : ∀ unit ∈ us, unit < 65536
  bytes_eq : ∃ left, bytes = us.flatMap (bytesOf bigEndian) ++ left ∧ left.length = odd.toNat

theorem units_bytesOf_append {unit : Nat} (h : unit < 65536) (bytes : List UInt8) :
    units bigEndian (bytesOf bigEndian unit ++ bytes) =
      (unit :: (units bigEndian bytes).1, (units bigEndian bytes).2) := by
  have hhigh : (unit / 256).toUInt8.toNat = unit / 256 := toNat_toUInt8 (by omega)
  have hlow : (unit % 256).toUInt8.toNat = unit % 256 := toNat_toUInt8 (by omega)
  have hunit : unit / 256 * 256 + unit % 256 = unit := Nat.div_add_mod' unit 256
  cases bigEndian <;> simp [bytesOf, units, hhigh, hlow, hunit]

theorem units_flatMap {us : List Nat} (h : ∀ unit ∈ us, unit < 65536) (bytes : List UInt8) :
    units bigEndian (us.flatMap (bytesOf bigEndian) ++ bytes) =
      (us ++ (units bigEndian bytes).1, (units bigEndian bytes).2) := by
  induction us with
  | nil => rfl
  | cons unit us ih =>
    obtain ⟨hunit, hus⟩ := List.forall_mem_cons.mp h
    rw [List.flatMap_cons, List.append_assoc, units_bytesOf_append hunit, ih hus]
    rfl

theorem bytesOf_unit (a b : UInt8) : a.toNat * 256 + b.toNat < 65536 ∧
    bytesOf true (a.toNat * 256 + b.toNat) = [a, b] ∧
    bytesOf false (a.toNat * 256 + b.toNat) = [b, a] := by
  have ha := a.toNat_lt
  have hb := b.toNat_lt
  have hhigh : (a.toNat * 256 + b.toNat) / 256 = a.toNat := by omega
  have hlow : (a.toNat * 256 + b.toNat) % 256 = b.toNat := by omega
  refine ⟨by omega, ?_, ?_⟩ <;> simp [bytesOf, hhigh, hlow]

theorem HoldsUnits.cons {unit : Nat} {bytes : List UInt8} {us : List Nat} {odd : Bool}
    (hunit : unit < 65536) (h : HoldsUnits bigEndian bytes us odd) :
    HoldsUnits bigEndian (bytesOf bigEndian unit ++ bytes) (unit :: us) odd := by
  obtain ⟨left, rfl, hleft⟩ := h.bytes_eq
  exact ⟨List.forall_mem_cons.mpr ⟨hunit, h.lt⟩, left, (List.append_assoc ..).symm, hleft⟩

theorem holdsUnits_units (bigEndian : Bool) (bytes : List UInt8) :
    HoldsUnits bigEndian bytes (units bigEndian bytes).1 (units bigEndian bytes).2 := by
  induction bytes using units.induct bigEndian with
  | case1 => exact ⟨List.forall_mem_nil _, [], rfl, rfl⟩
  | case2 b => exact ⟨List.forall_mem_nil _, [b], rfl, rfl⟩
  | case3 a b bytes ih =>
    obtain ⟨hab, htrue, -⟩ := bytesOf_unit a b
    obtain ⟨hba, -, hfalse⟩ := bytesOf_unit b a
    cases bigEndian with
    | true =>
      have h := HoldsUnits.cons hab ih
      rwa [htrue] at h
    | false =>
      have h := HoldsUnits.cons hba ih
      rwa [hfalse] at h

/-- Bytes are read as the units that they hold. -/
theorem holdsUnits_iff {bytes : List UInt8} {us : List Nat} {odd : Bool} :
    HoldsUnits bigEndian bytes us odd ↔ units bigEndian bytes = (us, odd) := by
  constructor
  · rintro ⟨hlt, left, rfl, hleft⟩
    rw [units_flatMap hlt]
    cases odd with
    | false =>
      obtain rfl := List.eq_nil_of_length_eq_zero hleft
      simp [units]
    | true =>
      obtain ⟨b, rfl⟩ := List.length_eq_one_iff.mp hleft
      simp [units]
  · intro h
    have hholds := holdsUnits_units bigEndian bytes
    rwa [h] at hholds

/-! ## Characters -/

/-- The one or two units of a character. -/
def unitsOf (c : Char) : List Nat :=
  if c.toNat < 0x10000 then [c.toNat]
  else [0xD800 + (c.toNat - 0x10000) / 0x400, 0xDC00 + (c.toNat - 0x10000) % 0x400]

/-- Are characters those of units, with replacement characters for halves without the other one and
for what the end cuts off? -/
inductive Replaces : List Nat → Bool → List Char → Prop where
  | nil : Replaces [] false []
  /-- One byte is left over. -/
  | cut : Replaces [] true [Utf8.replacement]
  /-- The end stands behind a first half, and perhaps one byte more. -/
  | cutLead {lead : Nat} {odd : Bool} (hlead : isLead lead = true) :
    Replaces [lead] odd [Utf8.replacement]
  | char (c : Char) {us : List Nat} {odd : Bool} {cs : List Char} (h : Replaces us odd cs) :
    Replaces (unitsOf c ++ us) odd (c :: cs)
  | lead {lead unit : Nat} {us : List Nat} {odd : Bool} {cs : List Char}
    (hlead : isLead lead = true) (hunit : isTrail unit = false) (h : Replaces (unit :: us) odd cs) :
    Replaces (lead :: unit :: us) odd (Utf8.replacement :: cs)
  | trail {trail : Nat} {us : List Nat} {odd : Bool} {cs : List Char}
    (htrail : isTrail trail = true) (h : Replaces us odd cs) :
    Replaces (trail :: us) odd (Utf8.replacement :: cs)

theorem isLead_iff {unit : Nat} : isLead unit = true ↔ 0xD800 ≤ unit ∧ unit ≤ 0xDBFF := by
  simp [isLead]

theorem isTrail_iff {unit : Nat} : isTrail unit = true ↔ 0xDC00 ≤ unit ∧ unit ≤ 0xDFFF := by
  simp [isTrail]

theorem isLead_of_isTrail {unit : Nat} (h : isTrail unit = true) : isLead unit = false := by
  rw [isTrail_iff] at h
  rw [← Bool.not_eq_true, isLead_iff]
  omega

/-- A first half with the second one is a character. -/
theorem unitsOf_join {lead trail : Nat} (hlead : isLead lead = true)
    (htrail : isTrail trail = true) : unitsOf (join lead trail) = [lead, trail] := by
  rw [isLead_iff] at hlead
  rw [isTrail_iff] at htrail
  have hc : (join lead trail).toNat = 0x10000 + (lead - 0xD800) * 0x400 + (trail - 0xDC00) :=
    Utf8.toNat_ofNat (by omega)
  rw [unitsOf, if_neg (by omega), hc]
  simp only [List.cons.injEq, and_true]
  omega

/-- Any other unit is a character. -/
theorem unitsOf_ofNat {unit : Nat} (hunit : unit < 65536) (hlead : isLead unit = false)
    (htrail : isTrail unit = false) : unitsOf (Char.ofNat unit) = [unit] := by
  rw [← Bool.not_eq_true, isLead_iff] at hlead
  rw [← Bool.not_eq_true, isTrail_iff] at htrail
  have hc : (Char.ofNat unit).toNat = unit := Utf8.toNat_ofNat (by omega)
  rw [unitsOf, hc, if_pos hunit]

theorem decodeUnitsLossy_of_plain {unit : Nat} (hlead : isLead unit = false) (odd : Bool)
    (us : List Nat) : decodeUnitsLossy odd (unit :: us) =
      (if isTrail unit then Utf8.replacement else Char.ofNat unit) :: decodeUnitsLossy odd us := by
  cases us <;> simp [decodeUnitsLossy, hlead]

theorem decodeUnitsLossy_unitsOf_append (c : Char) (odd : Bool) (us : List Nat) :
    decodeUnitsLossy odd (unitsOf c ++ us) = c :: decodeUnitsLossy odd us := by
  have hvalid := Utf8.toNat_valid c
  rw [unitsOf]
  split
  · -- a character of one unit is no half, since no character is a surrogate
    have hlead : isLead c.toNat = false := by
      rw [← Bool.not_eq_true, isLead_iff]
      omega
    have htrail : isTrail c.toNat = false := by
      rw [← Bool.not_eq_true, isTrail_iff]
      omega
    rw [List.singleton_append, decodeUnitsLossy_of_plain hlead, htrail, Char.ofNat_toNat]
    rfl
  · have hlead : isLead (0xD800 + (c.toNat - 0x10000) / 0x400) = true :=
      isLead_iff.mpr (by omega)
    have htrail : isTrail (0xDC00 + (c.toNat - 0x10000) % 0x400) = true :=
      isTrail_iff.mpr (by omega)
    have hc : 0x10000 + (0xD800 + (c.toNat - 0x10000) / 0x400 - 0xD800) * 0x400 +
        (0xDC00 + (c.toNat - 0x10000) % 0x400 - 0xDC00) = c.toNat := by omega
    have hjoin : join (0xD800 + (c.toNat - 0x10000) / 0x400)
        (0xDC00 + (c.toNat - 0x10000) % 0x400) = c := by
      rw [join, hc, Char.ofNat_toNat]
    rw [List.cons_append, List.singleton_append, decodeUnitsLossy, if_pos hlead, if_pos htrail,
      hjoin]

/-- Reading with replacement characters replaces halves and what is cut off. -/
theorem replaces_decodeUnitsLossy {us : List Nat} (hlt : ∀ unit ∈ us, unit < 65536) (odd : Bool) :
    Replaces us odd (decodeUnitsLossy odd us) := by
  -- a unit that is no first half, in front of others that are replaced already
  have hplain {unit : Nat} {us : List Nat} (hunit : unit < 65536)
      (hlead : ¬ isLead unit = true) (h : Replaces us odd (decodeUnitsLossy odd us)) :
      Replaces (unit :: us) odd (decodeUnitsLossy odd (unit :: us)) := by
    have hlead := eq_false_of_ne_true hlead
    rw [decodeUnitsLossy_of_plain hlead]
    cases htrail : isTrail unit with
    | true => exact .trail htrail h
    | false =>
      have hchar := Replaces.char (Char.ofNat unit) h
      rwa [unitsOf_ofNat hunit hlead htrail] at hchar
  induction us using decodeUnitsLossy.induct odd with
  | case1 hodd =>
    rw [hodd]
    exact .cut
  | case2 hodd =>
    rw [eq_false_of_ne_true hodd]
    exact .nil
  | case3 unit hlead =>
    rw [decodeUnitsLossy, if_pos hlead]
    exact .cutLead hlead
  | case4 unit hlead ih =>
    exact hplain (hlt unit List.mem_cons_self) hlead (ih (List.forall_mem_nil _))
  | case5 lead trail us hlead htrail ih =>
    have hchar := Replaces.char (join lead trail)
      (ih fun unit h => hlt unit (List.mem_cons_of_mem _ (List.mem_cons_of_mem _ h)))
    rw [unitsOf_join hlead htrail] at hchar
    rwa [decodeUnitsLossy, if_pos hlead, if_pos htrail]
  | case6 lead next us hlead hnext ih =>
    rw [decodeUnitsLossy, if_pos hlead, if_neg hnext]
    exact .lead hlead (eq_false_of_ne_true hnext) (ih (List.forall_mem_cons.mp hlt).2)
  | case7 unit next us hlead ih =>
    obtain ⟨hunit, hus⟩ := List.forall_mem_cons.mp hlt
    exact hplain hunit hlead (ih hus)

/-- The characters with replacement characters are the ones that are read. -/
theorem replaces_iff {us : List Nat} {odd : Bool} {cs : List Char}
    (hlt : ∀ unit ∈ us, unit < 65536) : Replaces us odd cs ↔ decodeUnitsLossy odd us = cs := by
  constructor
  · intro h
    clear hlt
    induction h with
    | nil => rfl
    | cut => rfl
    | cutLead hlead => rw [decodeUnitsLossy, if_pos hlead]
    | char c h ih => rw [decodeUnitsLossy_unitsOf_append, ih]
    | lead hlead hunit h ih =>
      rw [decodeUnitsLossy, if_pos hlead, if_neg (ne_true_of_eq_false hunit), ih]
    | trail htrail h ih =>
      rw [decodeUnitsLossy_of_plain (isLead_of_isTrail htrail), if_pos htrail, ih]
  · rintro rfl
    exact replaces_decodeUnitsLossy hlt odd

end MarketDag.Utf16
