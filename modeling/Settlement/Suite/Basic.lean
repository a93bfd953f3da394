import Settlement.Octets.Hex
import Settlement.Text.Base64Url

/-!
# Keys, signatures and identifiers

The fixed-size values that a settlement is signed and named with, and
`Suite`, the algorithms behind them. Everything above this module takes its
suite as an argument, so what holds of a settlement is stated once for every
suite that has the needed laws.
-/

namespace Settlement

/-- A public key. Any 32 octets are one; whether a signer can stand behind it is for the suite
to say. -/
structure PublicKey where
  block : Block 32
deriving DecidableEq

/-- A signature over a message. -/
structure Signature where
  block : Block 64
deriving DecidableEq

/-- The name of a content: its hash. -/
structure Identifier where
  block : Block 32
deriving DecidableEq

/-- The secret from which a holder's keys are derived. -/
structure Seed where
  block : Block 32
deriving DecidableEq

/-- The algorithms that signatures and identifiers rest on. -/
structure Suite where
  /-- Whether a key can be the key of a signer. -/
  isKey : PublicKey → Bool
  /-- The public key of a seed. -/
  publicKey : Seed → PublicKey
  /-- The signature that a seed's holder makes over a message. -/
  sign : Seed → Octets → Signature
  /-- Whether a signature over a message verifies under a key. -/
  verify : PublicKey → Octets → Signature → Bool
  /-- The identifier of a content. -/
  digest : Octets → Identifier

/-- Why a signature over a message does not verify under a key. -/
inductive SignatureFault where
  | invalidKey
  | rejected
deriving DecidableEq, Repr

/-- The wording of a signature fault. -/
def SignatureFault.message : SignatureFault → String
  | .invalidKey => "invalid public key"
  | .rejected => "invalid signature"

namespace PublicKey

/-- The key's octets. -/
abbrev octets (k : PublicKey) : Octets := k.block.octets

/-- The key's symbols in base64url. -/
def symbols (k : PublicKey) : List Char := Base64Url.encode k.octets

/-- The key's text form. -/
def text (k : PublicKey) : String := String.ofList k.symbols

/-- The start of the text form, enough to tell keys apart in a log. -/
def summary (k : PublicKey) : String := s!"PublicKey({String.ofList (k.symbols.take 12)})"

/-- Verifies a signature over a message, telling an unusable key from a wrong signature. -/
def check (S : Suite) (k : PublicKey) (message : Octets) (signature : Signature) :
    Except SignatureFault Unit :=
  if !S.isKey k then .error .invalidKey
  else if S.verify k message signature then .ok ()
  else .error .rejected

/-- Whether a signature over a message verifies under a usable key. -/
def accepts (S : Suite) (k : PublicKey) (message : Octets) (signature : Signature) : Bool :=
  S.isKey k && S.verify k message signature

theorem check_eq_ok_iff {S : Suite} {k : PublicKey} {message : Octets} {signature : Signature} :
    k.check S message signature = .ok () ↔ k.accepts S message signature = true := by
  unfold check accepts
  cases S.isKey k <;> cases S.verify k message signature <;> simp

instance : Ord PublicKey := ⟨fun a b => compare a.octets b.octets⟩

end PublicKey

namespace Signature

/-- The signature's octets. -/
abbrev octets (s : Signature) : Octets := s.block.octets

/-- The signature of zeros, which stands where none has been made yet. -/
def zero : Signature := ⟨.replicate 64 0⟩

/-- The start of the signature in hexadecimal. -/
def summary (s : Signature) : String := s!"Signature({Hex.encode (s.octets.take 8)}...)"

end Signature

namespace Identifier

/-- The identifier's octets. -/
abbrev octets (i : Identifier) : Octets := i.block.octets

/-- The first sixteen hexadecimal digits. -/
def short (i : Identifier) : String := Hex.encode (i.octets.take 8)

/-- The short form, marked as an identifier. -/
def summary (i : Identifier) : String := s!"Identifier({i.short})"

/-- The identifier of several contents put one after another. -/
def ofParts (S : Suite) (parts : List Octets) : Identifier := S.digest parts.flatten

instance : Ord Identifier := ⟨fun a b => compare a.octets b.octets⟩

end Identifier

namespace Seed

/-- The seed's octets. -/
abbrev octets (s : Seed) : Octets := s.block.octets

/-- The seed that begins with the given octets and goes on in zeros. -/
def padded (o : Octets) : Seed :=
  ⟨.take 32 (o ++ List.replicate 32 0) (by simp)⟩

end Seed

end Settlement
