import Mathlib.Data.List.Basic
import MarketDag.Address.Cid

/-!
# SHA-256 over natural numbers

The digest with natural numbers in place of words (`Sha256.digest_eq`).  Each function over words
has one over numbers beside it, which takes the numbers of the arguments to the number of the
result, so that digests can be evaluated with the arithmetic of numerals.
-/

namespace MarketDag

namespace Sha256

/-! ## Rounds -/

def rotateNat (x n : Nat) : Nat := (x >>> n) ||| (x <<< (32 - n)) % UInt32.size

theorem toNat_rotateRight (x : UInt32) {n : UInt32} (hn : 0 < n.toNat ∧ n.toNat < 32) :
    (rotateRight x n).toNat = rotateNat x.toNat n.toNat := by
  have hle : n ≤ 32 := UInt32.le_iff_toNat_le.mpr (Nat.le_of_lt hn.2)
  have hleft : (32 - n).toNat = 32 - n.toNat := UInt32.toNat_sub_of_le _ _ hle
  have hshort : 32 - n.toNat < 32 := Nat.sub_lt (by decide) hn.1
  rw [rotateRight, rotateNat, UInt32.toNat_or, UInt32.toNat_shiftRight, UInt32.toNat_shiftLeft,
    hleft, Nat.mod_eq_of_lt hn.2, Nat.mod_eq_of_lt hshort]

/-- The numbers of the words of a vector. -/
def numbers {n : Nat} (words : Vector UInt32 n) : List Nat := words.toList.map UInt32.toNat

def nextNat (w : List Nat) : Nat :=
  match w with
  | w0 :: w1 :: _ :: _ :: _ :: _ :: _ :: _ :: _ :: w9 :: _ :: _ :: _ :: _ :: w14 :: _ =>
    let s0 := rotateNat w1 7 ^^^ rotateNat w1 18 ^^^ (w1 >>> 3)
    let s1 := rotateNat w14 17 ^^^ rotateNat w14 19 ^^^ (w14 >>> 10)
    (w0 + s0 + w9 + s1) % UInt32.size
  | _ => 0

theorem toNat_nextWord (w : Window) : (nextWord w).toNat = nextNat (numbers w) := by
  match w with
  | ⟨⟨[w0, w1, w2, w3, w4, w5, w6, w7, w8, w9, w10, w11, w12, w13, w14, w15]⟩, _⟩ =>
    simp [numbers, nextWord, nextNat, toNat_rotateRight]

def advanceNat (w : List Nat) : List Nat := w.tail ++ [nextNat w]

theorem numbers_advance (w : Window) : numbers (advance w) = advanceNat (numbers w) := by
  rw [advanceNat, ← toNat_nextWord]
  match w with
  | ⟨⟨[w0, w1, w2, w3, w4, w5, w6, w7, w8, w9, w10, w11, w12, w13, w14, w15]⟩, _⟩ =>
    simp [numbers, advance]

def mixNat (s : List Nat) (constant word : Nat) : List Nat :=
  match s with
  | [a, b, c, d, e, f, g, h] =>
    let s1 := rotateNat e 6 ^^^ rotateNat e 11 ^^^ rotateNat e 25
    let choice := (e &&& f) ^^^ ((UInt32.size - 1 - e) &&& g)
    let t1 := h + s1 + choice + constant + word
    let s0 := rotateNat a 2 ^^^ rotateNat a 13 ^^^ rotateNat a 22
    let majority := (a &&& b) ^^^ (a &&& c) ^^^ (b &&& c)
    [(t1 + (s0 + majority)) % UInt32.size, a, b, c, (d + t1) % UInt32.size, e, f, g]
  | _ => []

theorem numbers_mix (s : State) (constant word : UInt32) :
    numbers (mix s constant word) = mixNat (numbers s) constant.toNat word.toNat := by
  match s with
  | ⟨⟨[a, b, c, d, e, f, g, h]⟩, _⟩ => simp [numbers, mix, mixNat, toNat_rotateRight]

def roundNat (p : List Nat × List Nat) (constant : UInt32) : List Nat × List Nat :=
  (mixNat p.1 constant.toNat (p.2.headD 0), advanceNat p.2)

def compressNat (s block : List Nat) : List Nat :=
  s.zipWith (fun a b => (a + b) % UInt32.size) (roundConstants.foldl roundNat (s, block)).1

/-- The numbers of a state and of the words that the coming rounds use. -/
def numbersOf (p : State × Window) : List Nat × List Nat := (numbers p.1, numbers p.2)

theorem numbers_compress (s : State) (block : Window) :
    numbers (compress s block) = compressNat (numbers s) (numbers block) := by
  have hround (p : State × Window) (k : UInt32) :
      roundNat (numbersOf p) k = numbersOf (mix p.1 k p.2[0], advance p.2) := by
    have hhead : (numbers p.2).headD 0 = p.2[0].toNat := by
      rcases p.2 with ⟨⟨_ | ⟨w, ws⟩⟩, hsize⟩
      · cases hsize
      · rfl
    simp only [numbersOf, roundNat, hhead, numbers_mix, numbers_advance]
  have hstart : (numbers s, numbers block) = numbersOf (s, block) := rfl
  rw [compressNat, hstart, List.foldl_hom numbersOf hround, compress]
  simp [numbersOf, numbers, List.map_zipWith, List.zipWith_map, UInt32.toNat_add]

/-! ## Messages -/

def compressAllNat (s : List Nat) : List UInt32 → List Nat
  | w0 :: w1 :: w2 :: w3 :: w4 :: w5 :: w6 :: w7 ::
    w8 :: w9 :: w10 :: w11 :: w12 :: w13 :: w14 :: w15 :: rest =>
    compressAllNat
      (compressNat s ([w0, w1, w2, w3, w4, w5, w6, w7, w8, w9, w10, w11, w12, w13, w14, w15].map
        UInt32.toNat)) rest
  | _ => s

theorem numbers_compressAll (s : State) (words : List UInt32) :
    numbers (compressAll s words) = compressAllNat (numbers s) words := by
  fun_induction compressAll s words with
  | case1 s w0 w1 w2 w3 w4 w5 w6 w7 w8 w9 w10 w11 w12 w13 w14 w15 rest ih =>
    rw [ih, numbers_compress, compressAllNat]
    rfl
  | case2 s words hshort => rw [compressAllNat]; exact hshort

/-- The digest, by way of numbers. -/
def digestNat (message : List UInt8) : List UInt8 :=
  (compressAllNat (numbers initial) (words (pad message))).flatMap fun n => wordBytes (.ofNat n)

theorem digest_eq (message : List UInt8) : digest message = digestNat message := by
  rw [digest, digestNat, ← numbers_compressAll, numbers, List.flatMap_map]
  simp only [UInt32.ofNat_toNat]

end Sha256

/-! ## Identifiers -/

/-- The identifier of bytes, with a digest by way of numbers. -/
def Cid.numberedOfData (codec : UInt64) (data : List UInt8) : Cid :=
  .v1 codec ⟨Multihash.sha256Code, Sha256.digestNat data, by
    rw [← Sha256.digest_eq, Sha256.length_digest]
    decide⟩

theorem Cid.ofData_eq_numberedOfData (codec : UInt64) (data : List UInt8) :
    ofData codec data = numberedOfData codec data := by
  simp only [ofData, numberedOfData, Multihash.sha256, Sha256.digest_eq]

end MarketDag
