import MarketDag.Proofs.Address.Cid
import MarketDag.Proofs.Address.Multibase

/-!
# Content identifiers as text: the round trip

An identifier of either form is read back from its text (`Cid.ofText_toText`), so that no two
identifiers have the same text (`Cid.toText_injective`).  The text of the old form has the length
and the beginning by which it is told from the new one (`Cid.toChars_v0`).
-/

namespace MarketDag

/-! ## Bases -/

namespace Multibase

theorem exact_base32Lower : base32Lower.Exact := by decide +kernel

theorem exact_base58btc : base58btc.Exact := by decide +kernel

/-- A character of one byte that begins no gateway. -/
def Simple (c : Char) : Prop := c.toNat < 0x80 ∧ c ≠ '/'

instance (c : Char) : Decidable (Simple c) := inferInstanceAs (Decidable (_ ∧ _))

theorem simple_base32Lower : ∀ c ∈ base32Lower.symbols, Simple c := by
  have hall : base32Lower.symbols.all (fun c => decide (Simple c)) = true := by decide +kernel
  exact fun c hc => of_decide_eq_true (List.all_eq_true.mp hall c hc)

theorem simple_base58btc : ∀ c ∈ base58btc.symbols, Simple c := by
  have hall : base58btc.symbols.all (fun c => decide (Simple c)) = true := by decide +kernel
  exact fun c hc => of_decide_eq_true (List.all_eq_true.mp hall c hc)

theorem Base.symbol_mem {base : Base} {v : Nat} (h : v < base.symbols.length) :
    base.symbol v ∈ base.symbols := by
  have hget : base.symbol v = base.symbols[v] := by simp [symbol, h]
  rw [hget]
  exact List.getElem_mem h

/-- The symbols of an old identifier: those of its highest digits, and 44 more. -/
theorem encodeNumber_sha256 {digest : List UInt8} (h : digest.length = 32) :
    ∃ ds : List Nat, ds.length = 44 ∧ (∀ d ∈ ds, d < 58) ∧
      base58btc.encodeNumber (0x12 :: 0x20 :: digest) =
        'Q' :: 'm' :: ds.map base58btc.symbol := by
  generalize hnumber : ofDigits 256 ((0x12 :: 0x20 :: digest).map UInt8.toNat) = n
  have hradix : base58btc.symbols.length = 58 := by decide +kernel
  have hdigest : Nat.ofDigits 256 (digest.map UInt8.toNat).reverse < 256 ^ 32 := by
    have hbyte : ∀ d ∈ (digest.map UInt8.toNat).reverse, d < 256 := by
      simp only [List.mem_reverse, List.forall_mem_map]
      exact fun b _ => b.toNat_lt
    simpa [h] using Nat.ofDigits_lt_base_pow_length (by decide) hbyte
  have hn : n = 256 ^ 32 * 0x1220 + Nat.ofDigits 256 (digest.map UInt8.toNat).reverse := by
    have hfront : Nat.ofDigits 256 [0x20, 0x12] = 0x1220 := by decide
    rw [← hnumber, ofDigits_eq]
    simp [Nat.ofDigits_append, h, hfront]
    omega
  -- the two first bytes alone decide the two highest digits, whatever the hash
  have hhigh : n / 58 ^ 44 = 1378 := by
    rw [hn]
    omega
  obtain ⟨ds, hds, hlength⟩ :
      ∃ ds, digits 58 n = digits 58 (n / 58 ^ 44) ++ ds ∧ ds.length = 44 :=
    digits_eq_append (by decide) (by rw [hhigh]; decide)
  have hfirst : digits 58 1378 = [23, 44] := by
    simp [digits]
  have hchange : changeRadix 256 58 ((0x12 :: 0x20 :: digest).map UInt8.toNat) =
      23 :: 44 :: ds := by
    rw [changeRadix, hnumber, hds, hhigh, hfirst]
    rfl
  refine ⟨ds, hlength, fun d hd => ?_, ?_⟩
  · have hmem : d ∈ digits 58 n := hds ▸ List.mem_append_right _ hd
    exact lt_of_mem_digits (by decide) hmem
  · rw [Base.encodeNumber, hradix, hchange]
    rfl

theorem Base.mem_symbols_of_mem_encodeNumber {base : Base} (h : 2 ≤ base.symbols.length)
    {bytes : List UInt8} {c : Char} (hc : c ∈ base.encodeNumber bytes) : c ∈ base.symbols := by
  obtain ⟨v, hv, rfl⟩ := List.mem_map.mp hc
  exact base.symbol_mem (lt_of_mem_changeRadix h hv)

theorem Base.mem_symbols_of_mem_encodeGroups {base : Base} {width : Nat} (hwidth : 0 < width)
    (h : 2 ^ width ≤ base.symbols.length) {bytes : List UInt8}
    {c : Char} (hc : c ∈ base.encodeGroups width bytes) : c ∈ base.symbols := by
  obtain ⟨v, hv, rfl⟩ := List.mem_map.mp hc
  exact base.symbol_mem (Nat.lt_of_lt_of_le (lt_of_mem_pack hwidth hv) h)

end Multibase

/-! ## Texts -/

namespace Cid

open Multibase

theorem afterGateway?_eq_none {cs : List Char} (h : ∀ c ∈ cs, Simple c) :
    afterGateway? cs = none := by
  induction cs with
  | nil => rfl
  | cons c cs ih =>
    obtain ⟨hc, hcs⟩ := List.forall_mem_cons.mp h
    have hgateway : gateway.isPrefixOf (c :: cs) = false := by
      have hslash : ('/' == c) = false := beq_false_of_ne (Ne.symm hc.2)
      change (('/' == c) && _) = false
      rw [hslash, Bool.false_and]
    rw [afterGateway?, if_neg (by rw [hgateway]; decide), ih hcs]

theorem length_encode_of_simple {cs : List Char} (h : ∀ c ∈ cs, Simple c) :
    (cs.flatMap Utf8.encodeChar).length = cs.length := by
  induction cs with
  | nil => rfl
  | cons c cs ih =>
    obtain ⟨hc, hcs⟩ := List.forall_mem_cons.mp h
    have hone : Utf8.encodeChar c = [c.toNat.toUInt8] := if_pos hc.1
    rw [List.flatMap_cons, hone, List.length_append, ih hcs, List.length_cons]
    exact Nat.add_comm _ _

theorem simple_of_mem_toChars {cid : Cid} {c : Char} (h : c ∈ cid.toChars) : Simple c := by
  cases cid with
  | v0 digest =>
    exact simple_base58btc c (Base.mem_symbols_of_mem_encodeNumber (by decide +kernel) h)
  | v1 codec hash =>
    rcases List.mem_cons.mp h with rfl | h
    · decide
    · have hsymbol := Base.mem_symbols_of_mem_encodeGroups (by decide) (by decide +kernel) h
      exact simple_base32Lower c hsymbol

/-- The text of the old form: 46 characters, of which the first two are always the same. -/
theorem toChars_v0 (digest : { bytes : List UInt8 // bytes.length = 32 }) :
    ∃ cs, (v0 digest).toChars = 'Q' :: 'm' :: cs ∧ cs.length = 44 := by
  obtain ⟨ds, hlength, -, hchars⟩ := encodeNumber_sha256 digest.2
  exact ⟨_, hchars, by rw [List.length_map, hlength]⟩

theorem ofText_of_decode? {s : String} {cs : List Char} {bytes : List UInt8}
    (hpath : (afterGateway? s.toList).getD s.toList = cs)
    (hsize : 2 ≤ (cs.flatMap Utf8.encodeChar).length)
    (hbytes : (if (cs.flatMap Utf8.encodeChar).length = 46 ∧ cs.take 2 = ['Q', 'm'] then
      base58btc.decode? cs else decode? cs) = some bytes) : ofText s = ofBytes bytes := by
  rw [ofText, hpath]
  dsimp only
  rw [if_neg (by omega), hbytes]

/-- An identifier is read back from its text. -/
@[simp] theorem ofText_toText (cid : Cid) : ofText cid.toText = .ok cid := by
  have hsimple : ∀ c ∈ cid.toChars, Simple c := fun c => simple_of_mem_toChars
  have hpath : (afterGateway? cid.toText.toList).getD cid.toText.toList = cid.toChars := by
    rw [toText, String.toList_ofList, afterGateway?_eq_none hsimple]
    rfl
  have hsize := length_encode_of_simple hsimple
  rw [← ofBytes_toBytes cid]
  cases cid with
  | v0 digest =>
    -- the old form is known by its size and its first two letters
    obtain ⟨cs, hchars, hlength⟩ := toChars_v0 digest
    have hold : (v0 digest).toChars.length = 46 := by rw [hchars]; simp [hlength]
    have hfront : (v0 digest).toChars.take 2 = ['Q', 'm'] := by rw [hchars]; rfl
    refine ofText_of_decode? hpath (by omega) ?_
    rw [if_pos ⟨hsize.trans hold, hfront⟩]
    exact Base.decode?_encodeNumber exact_base58btc rfl (by decide +kernel) _
  | v1 codec hash =>
    -- the mark of the base keeps the new form from being taken for the old one
    have hcode : (v1 codec hash).toChars.take 2 ≠ ['Q', 'm'] := by simp [toChars, base32Lower]
    have hfind : bases.find? (·.code = base32Lower.code) = some base32Lower := rfl
    have hback := Base.decode?_encodeGroups exact_base32Lower rfl (by decide) (by decide)
      (by decide +kernel) (v1 codec hash).toBytes
    have hlong : 2 ≤ (v1 codec hash).toChars.length := by
      have hne : base32Lower.encodeGroups 5 (v1 codec hash).toBytes ≠ [] := by
        intro hnil
        rw [hnil] at hback
        have hempty : base32Lower.decode? [] = some [] := by decide +kernel
        rw [hempty] at hback
        exact toBytes_ne_nil _ (Option.some.inj hback).symm
      have hpos := List.length_pos_iff.mpr hne
      rw [toChars, List.length_cons]
      omega
    refine ofText_of_decode? hpath (by omega) ?_
    rw [if_neg fun h => hcode h.2, toChars, decode?, hfind]
    exact hback

/-- No two identifiers have the same text. -/
theorem toText_injective {x y : Cid} (h : x.toText = y.toText) : x = y := by
  have hx := ofText_toText x
  rw [h, ofText_toText] at hx
  exact (Except.ok.inj hx).symm

end Cid

end MarketDag
