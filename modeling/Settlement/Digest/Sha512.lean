import Settlement.Octets.Basic

/-!
# SHA-512

The hash of the signature scheme. A message is padded to whole blocks of 128
octets, and each block is folded into a chain of eight 64-bit words by eighty
rounds over the block's message schedule. `length_hash` states that a hash has
64 octets.
-/

namespace Settlement.Sha512

/-- The eight words that are carried from block to block. -/
structure Chain where
  a : UInt64
  b : UInt64
  c : UInt64
  d : UInt64
  e : UInt64
  f : UInt64
  g : UInt64
  h : UInt64

/-- The chain before the first block: fractions of the square roots of the first eight primes. -/
def Chain.initial : Chain where
  a := 0x6a09e667f3bcc908
  b := 0xbb67ae8584caa73b
  c := 0x3c6ef372fe94f82b
  d := 0xa54ff53a5f1d36f1
  e := 0x510e527fade682d1
  f := 0x9b05688c2b3e6c1f
  g := 0x1f83d9abfb41bd6b
  h := 0x5be0cd19137e2179

/-- The round constants: fractions of the cube roots of the first eighty primes. -/
def roundConstants : List UInt64 :=
  [0x428a2f98d728ae22, 0x7137449123ef65cd, 0xb5c0fbcfec4d3b2f,
   0xe9b5dba58189dbbc, 0x3956c25bf348b538, 0x59f111f1b605d019,
   0x923f82a4af194f9b, 0xab1c5ed5da6d8118, 0xd807aa98a3030242,
   0x12835b0145706fbe, 0x243185be4ee4b28c, 0x550c7dc3d5ffb4e2,
   0x72be5d74f27b896f, 0x80deb1fe3b1696b1, 0x9bdc06a725c71235,
   0xc19bf174cf692694, 0xe49b69c19ef14ad2, 0xefbe4786384f25e3,
   0x0fc19dc68b8cd5b5, 0x240ca1cc77ac9c65, 0x2de92c6f592b0275,
   0x4a7484aa6ea6e483, 0x5cb0a9dcbd41fbd4, 0x76f988da831153b5,
   0x983e5152ee66dfab, 0xa831c66d2db43210, 0xb00327c898fb213f,
   0xbf597fc7beef0ee4, 0xc6e00bf33da88fc2, 0xd5a79147930aa725,
   0x06ca6351e003826f, 0x142929670a0e6e70, 0x27b70a8546d22ffc,
   0x2e1b21385c26c926, 0x4d2c6dfc5ac42aed, 0x53380d139d95b3df,
   0x650a73548baf63de, 0x766a0abb3c77b2a8, 0x81c2c92e47edaee6,
   0x92722c851482353b, 0xa2bfe8a14cf10364, 0xa81a664bbc423001,
   0xc24b8b70d0f89791, 0xc76c51a30654be30, 0xd192e819d6ef5218,
   0xd69906245565a910, 0xf40e35855771202a, 0x106aa07032bbd1b8,
   0x19a4c116b8d2d0c8, 0x1e376c085141ab53, 0x2748774cdf8eeb99,
   0x34b0bcb5e19b48a8, 0x391c0cb3c5c95a63, 0x4ed8aa4ae3418acb,
   0x5b9cca4f7763e373, 0x682e6ff3d6b2b8a3, 0x748f82ee5defb2fc,
   0x78a5636f43172f60, 0x84c87814a1f0ab72, 0x8cc702081a6439ec,
   0x90befffa23631e28, 0xa4506cebde82bde9, 0xbef9a3f7b2c67915,
   0xc67178f2e372532b, 0xca273eceea26619c, 0xd186b8c721c0c207,
   0xeada7dd6cde0eb1e, 0xf57d4f7fee6ed178, 0x06f067aa72176fba,
   0x0a637dc5a2c898a6, 0x113f9804bef90dae, 0x1b710b35131c471b,
   0x28db77f523047d84, 0x32caab7b40c72493, 0x3c9ebe0a15c9bebc,
   0x431d67c49c100d4c, 0x4cc5d4becb3e42b6, 0x597f299cfc657e2a,
   0x5fcb6fab3ad6faec, 0x6c44198c4a475817]

/-- A word turned right by `n` bits, for `n` between one and sixty-three. -/
def rotateRight (w n : UInt64) : UInt64 := (w >>> n) ||| (w <<< (64 - n))

/-- One round: mixes a round constant and a word of the schedule into the chain. -/
def Chain.round (s : Chain) (constant word : UInt64) : Chain :=
  let sum1 := rotateRight s.e 14 ^^^ rotateRight s.e 18 ^^^ rotateRight s.e 41
  let choice := (s.e &&& s.f) ^^^ (s.e.complement &&& s.g)
  let t1 := s.h + sum1 + choice + constant + word
  let sum0 := rotateRight s.a 28 ^^^ rotateRight s.a 34 ^^^ rotateRight s.a 39
  let majority := (s.a &&& s.b) ^^^ (s.a &&& s.c) ^^^ (s.b &&& s.c)
  { a := t1 + (sum0 + majority), b := s.a, c := s.b, d := s.c,
    e := s.d + t1, f := s.e, g := s.f, h := s.g }

/-- The window of the next sixteen schedule words, moved on by one word. -/
def nextWindow (window : List UInt64) : List UInt64 :=
  let w0 := window.getD 0 0
  let w1 := window.getD 1 0
  let w9 := window.getD 9 0
  let w14 := window.getD 14 0
  let sigma0 := rotateRight w1 1 ^^^ rotateRight w1 8 ^^^ (w1 >>> 7)
  let sigma1 := rotateRight w14 19 ^^^ rotateRight w14 61 ^^^ (w14 >>> 6)
  window.drop 1 ++ [w0 + sigma0 + w9 + sigma1]

/-- Runs one round for each constant; the schedule starts with the sixteen words of the window. -/
def rounds : List UInt64 → Chain → List UInt64 → Chain
  | [], s, _ => s
  | constant :: rest, s, window =>
    rounds rest (s.round constant (window.getD 0 0)) (nextWindow window)

/-- Folds one block of sixteen words into the chain. -/
def Chain.absorb (s : Chain) (block : List UInt64) : Chain :=
  let r := rounds roundConstants s block
  { a := s.a + r.a, b := s.b + r.b, c := s.c + r.c, d := s.d + r.d,
    e := s.e + r.e, f := s.f + r.f, g := s.g + r.g, h := s.h + r.h }

/-- The chain's words as octets. -/
def Chain.octets (s : Chain) : Octets :=
  [s.a, s.b, s.c, s.d, s.e, s.f, s.g, s.h].flatMap fun w => Octets.bigEndian 8 w.toNat

/-- What is appended to a message of `length` octets: a set bit, zeros up to a whole number of
blocks, and the length in bits. -/
def padding (length : Nat) : Octets :=
  0x80 :: List.replicate ((239 - length % 128) % 128) 0 ++ Octets.bigEndian 16 (length * 8)

/-- The next `count` words of eight octets, and what follows them. -/
def takeWords : Nat → Octets → List UInt64 × Octets
  | 0, o => ([], o)
  | count + 1, o =>
    let (words, rest) := takeWords count (o.drop 8)
    (UInt64.ofNat (Octets.ofBigEndian (o.take 8)) :: words, rest)

/-- Folds `count` blocks of 128 octets into the chain. -/
def absorbBlocks : Nat → Chain → Octets → Chain
  | 0, s, _ => s
  | count + 1, s, o =>
    let (words, rest) := takeWords 16 o
    absorbBlocks count (s.absorb words) rest

/-- The hash of a message. -/
def hash (message : Octets) : Octets :=
  let padded := message ++ padding message.length
  (absorbBlocks (padded.length / 128) Chain.initial padded).octets

theorem length_octets (s : Chain) : s.octets.length = 64 := by
  simp [Chain.octets]

/-- A hash has 64 octets. -/
theorem length_hash (message : Octets) : (hash message).length = 64 := length_octets _

end Settlement.Sha512
