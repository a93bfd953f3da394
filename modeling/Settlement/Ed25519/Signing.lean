import Settlement.Digest.Sha512
import Settlement.Ed25519.Point

/-!
# Ed25519 signatures

Keys and signatures over messages, on plain octets. A signature is the octets
of a point `R` followed by those of a scalar `S`; `verify` asks that `S` be
reduced and that the octets of `[S]B - [k]A` be exactly those of `R`, without
clearing the cofactor. `length_publicKey` and `length_sign` give the sizes.
-/

namespace Settlement.Ed25519

/-- The order of the generator, `2 ^ 252 + 27742317777372353535851937790883648493`. -/
def groupOrder : Nat := 0x1000000000000000000000000000000014def9dea2f79cd65812631a5cf5d3ed

/-- A hash read as a scalar. -/
def hashScalar (o : Octets) : Nat := Octets.ofLittleEndian (Sha512.hash o) % groupOrder

/-- The weight of bit 254, the top bit of every secret scalar. -/
def scalarBit : Nat := 0x4000000000000000000000000000000000000000000000000000000000000000

/-- The secret scalar of a seed: a multiple of eight with bit 254 set. -/
def secretScalar (seed : Octets) : Nat :=
  let n := Octets.ofLittleEndian ((Sha512.hash seed).take 32)
  scalarBit + n % scalarBit / 8 * 8

/-- The part of a seed's hash that makes nonces. -/
def nonceKey (seed : Octets) : Octets := (Sha512.hash seed).drop 32

/-- The public key of a seed. -/
def publicKey (seed : Octets) : Octets := (Point.base.multiple (secretScalar seed)).encode

/-- The signature that a seed's holder makes over a message. -/
def sign (seed message : Octets) : Octets :=
  let nonce := hashScalar (nonceKey seed ++ message)
  let r := (Point.base.multiple nonce).encode
  let k := hashScalar (r ++ publicKey seed ++ message)
  r ++ Octets.littleEndian 32 ((nonce + k * secretScalar seed) % groupOrder)

/-- Whether octets are those of a point of the curve. -/
def isKey (key : Octets) : Bool := (Point.decode? key).isSome

/-- Whether a signature over a message is one of the key's holder. -/
def verify (key message signature : Octets) : Bool :=
  let r := signature.take 32
  let s := Octets.ofLittleEndian (signature.drop 32)
  match Point.decode? key with
  | none => false
  | some a =>
    -- a scalar that is not reduced would be a second signature over the same message
    s < groupOrder &&
      let k := hashScalar (r ++ key ++ message)
      ((Point.base.multiple s).add (a.negate.multiple k)).encode == r

@[simp] theorem length_publicKey (seed : Octets) : (publicKey seed).length = 32 := by
  simp [publicKey]

@[simp] theorem length_sign (seed message : Octets) : (sign seed message).length = 64 := by
  simp [sign]

end Settlement.Ed25519
