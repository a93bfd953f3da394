import Settlement.Digest.Blake3
import Settlement.Ed25519.Signing
import Settlement.Suite.Basic

/-!
# The standard suite

Ed25519 for keys and signatures, BLAKE3 for identifiers.
-/

namespace Settlement.Suite

/-- Ed25519 signatures and BLAKE3 identifiers. -/
def standard : Suite where
  isKey k := Ed25519.isKey k.octets
  publicKey s := ⟨⟨Ed25519.publicKey s.octets, Ed25519.length_publicKey _⟩⟩
  sign s message := ⟨⟨Ed25519.sign s.octets message, Ed25519.length_sign _ _⟩⟩
  verify k message signature := Ed25519.verify k.octets message signature.octets
  digest content := ⟨⟨Blake3.hash content, Blake3.length_hash _⟩⟩

end Settlement.Suite
