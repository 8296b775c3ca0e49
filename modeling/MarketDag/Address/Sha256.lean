/-!
# SHA-256

The digest of a byte string: the padded message is taken in blocks of sixteen words, each block
is mixed into an eight-word state over sixty-four rounds.  The widths are in the types, so that a
digest has thirty-two bytes by construction (`length_digest`).
-/

namespace MarketDag.Sha256

/-- The words of the state, in the order a to h. -/
abbrev State := Vector UInt32 8

/-- The sixteen message words that the coming rounds use. -/
abbrev Window := Vector UInt32 16

/-! ## Constants -/

/-- The state before the first block. -/
def initial : State :=
  #v[0x6a09e667, 0xbb67ae85, 0x3c6ef372, 0xa54ff53a, 0x510e527f, 0x9b05688c, 0x1f83d9ab, 0x5be0cd19]

/-- The constant of each round. -/
def roundConstants : List UInt32 :=
  [0x428a2f98, 0x71374491, 0xb5c0fbcf, 0xe9b5dba5, 0x3956c25b, 0x59f111f1, 0x923f82a4, 0xab1c5ed5,
   0xd807aa98, 0x12835b01, 0x243185be, 0x550c7dc3, 0x72be5d74, 0x80deb1fe, 0x9bdc06a7, 0xc19bf174,
   0xe49b69c1, 0xefbe4786, 0x0fc19dc6, 0x240ca1cc, 0x2de92c6f, 0x4a7484aa, 0x5cb0a9dc, 0x76f988da,
   0x983e5152, 0xa831c66d, 0xb00327c8, 0xbf597fc7, 0xc6e00bf3, 0xd5a79147, 0x06ca6351, 0x14292967,
   0x27b70a85, 0x2e1b2138, 0x4d2c6dfc, 0x53380d13, 0x650a7354, 0x766a0abb, 0x81c2c92e, 0x92722c85,
   0xa2bfe8a1, 0xa81a664b, 0xc24b8b70, 0xc76c51a3, 0xd192e819, 0xd6990624, 0xf40e3585, 0x106aa070,
   0x19a4c116, 0x1e376c08, 0x2748774c, 0x34b0bcb5, 0x391c0cb3, 0x4ed8aa4a, 0x5b9cca4f, 0x682e6ff3,
   0x748f82ee, 0x78a5636f, 0x84c87814, 0x8cc70208, 0x90befffa, 0xa4506ceb, 0xbef9a3f7, 0xc67178f2]

/-! ## Rounds -/

/-- A word turned right by `n` bits. -/
def rotateRight (x : UInt32) (n : UInt32) : UInt32 := (x >>> n) ||| (x <<< (32 - n))

/-- The message word sixteen rounds on. -/
def nextWord (w : Window) : UInt32 :=
  let s0 := rotateRight w[1] 7 ^^^ rotateRight w[1] 18 ^^^ (w[1] >>> 3)
  let s1 := rotateRight w[14] 17 ^^^ rotateRight w[14] 19 ^^^ (w[14] >>> 10)
  w[0] + s0 + w[9] + s1

/-- The window one round on. -/
def advance (w : Window) : Window := w.tail.push (nextWord w)

/-- One round on the state, with its constant and its message word. -/
def mix (s : State) (constant word : UInt32) : State :=
  let a := s[0]
  let e := s[4]
  let s1 := rotateRight e 6 ^^^ rotateRight e 11 ^^^ rotateRight e 25
  let choice := (e &&& s[5]) ^^^ ((~~~e) &&& s[6])
  let t1 := s[7] + s1 + choice + constant + word
  let s0 := rotateRight a 2 ^^^ rotateRight a 13 ^^^ rotateRight a 22
  let majority := (a &&& s[1]) ^^^ (a &&& s[2]) ^^^ (s[1] &&& s[2])
  #v[t1 + (s0 + majority), a, s[1], s[2], s[3] + t1, e, s[5], s[6]]

/-- All rounds over one block, added to the state before it. -/
def compress (s : State) (block : Window) : State :=
  let last := roundConstants.foldl
    (fun (p : State × Window) k => (mix p.1 k p.2[0], advance p.2)) (s, block)
  s.zipWith (· + ·) last.1

/-! ## Padding and blocks -/

/-- The big-endian bytes of a word. -/
def wordBytes (w : UInt32) : List UInt8 :=
  [(w >>> 24).toUInt8, (w >>> 16).toUInt8, (w >>> 8).toUInt8, w.toUInt8]

/-- The message with a one bit, zeros, and its length in bits in eight bytes, up to a multiple of
sixty-four bytes. -/
def pad (message : List UInt8) : List UInt8 :=
  let size := message.length
  let filler : List UInt8 := 0x80 :: List.replicate ((119 - size % 64) % 64) 0
  let bits := (size * 8).toUInt64
  message ++ filler ++ wordBytes (bits >>> 32).toUInt32 ++ wordBytes bits.toUInt32

/-- Four bytes as a big-endian word. -/
def word (a b c d : UInt8) : UInt32 :=
  (a.toUInt32 <<< 24) ||| (b.toUInt32 <<< 16) ||| (c.toUInt32 <<< 8) ||| d.toUInt32

/-- The words of a byte string; fewer than four bytes at its end are left out. -/
def words : List UInt8 → List UInt32
  | a :: b :: c :: d :: rest => word a b c d :: words rest
  | _ => []

/-- Takes the words sixteen at a time; fewer than sixteen at the end are left out. -/
def compressAll (s : State) : List UInt32 → State
  | w0 :: w1 :: w2 :: w3 :: w4 :: w5 :: w6 :: w7 ::
    w8 :: w9 :: w10 :: w11 :: w12 :: w13 :: w14 :: w15 :: rest =>
    compressAll
      (compress s #v[w0, w1, w2, w3, w4, w5, w6, w7, w8, w9, w10, w11, w12, w13, w14, w15]) rest
  | _ => s

/-- The digest of a message. -/
def digest (message : List UInt8) : List UInt8 :=
  (compressAll initial (words (pad message))).toList.flatMap wordBytes

/-- A digest has thirty-two bytes. -/
@[simp] theorem length_digest (message : List UInt8) : (digest message).length = 32 := by
  simp [digest, List.length_flatMap, wordBytes, List.map_const']

end MarketDag.Sha256
