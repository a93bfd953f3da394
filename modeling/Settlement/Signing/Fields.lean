import Settlement.Cbor.Canonical
import Settlement.Suite.Basic

/-!
# Signed fields and signed messages

What is signed is a record of numbered fields, each declared at a level. The
record at a level holds the fields declared at or below it, so one object
gives a different message to each of its signers. A message starts with a
fixed domain and the level: a signature made at one level is never one over a
message of another.
-/

namespace Settlement

/-- The level at which a record is written or signed. -/
abbrev Level := UInt32

namespace Level

/-- The level at which the signer of a proof and the owner of a token sign. -/
def signer : Level := 1

/-- The level at which the first merger of an evidence signs. -/
def evidence : Level := signer + 1

/-- The level at which the merger with the given index signs. -/
def merger (index : Nat) : Level := evidence + UInt32.ofNat index

/-- The level at which a linker signs. -/
def linker : Level := signer + 10

/-- The level at which every field is present, signatures too. -/
def full : Level := 0xffffffff

end Level

/-- The records that can be told apart by the number they carry. -/
inductive Entity where
  | credit
  | value
  | valueProof
  | signerProof
  | credentialProof
  | contract
  | proofEvidence
  | linkedEvidence
  | linkage
  | ownerToken
deriving DecidableEq, Repr

/-- The number that stands in a record for its kind. -/
def Entity.number : Entity → UInt64
  | .credit => 1
  | .value => 2
  | .valueProof => 3
  | .signerProof => 4
  | .credentialProof => 5
  | .contract => 6
  | .proofEvidence => 7
  | .linkedEvidence => 8
  | .linkage => 9
  | .ownerToken => 10

/-- A numbered field of a record and the lowest level at which it is present. -/
structure Field where
  key : UInt64
  level : Level
  value : Cbor

namespace Field

/-- The field under key zero that is present at every level. -/
def always (number : UInt64) : Field := ⟨0, 0, .uint number⟩

/-- The field that says what a record is. -/
def entity (e : Entity) : Field := always e.number

/-- The record that the fields make at a level. -/
def record (level : Level) (fields : List Field) : Cbor :=
  .map ((fields.filter (·.level ≤ level)).map fun f => (.uint f.key, f.value))

end Field

/-- The octets in front of every signed message. -/
def signingDomain : Octets := Cbor.utf8 "ledger-link-sig-v0:"

/-- The message that is signed for a value at a level. -/
def signedMessage (level : Level) (v : Cbor) : Octets :=
  signingDomain ++ Octets.bigEndian 4 level.toNat ++ v.canonical

/-- A type whose values are signed as records of fields. -/
class Signable (α : Type) where
  /-- The fields, whatever their level. -/
  fields : Suite → α → List Field

namespace Signable

variable {α : Type} [Signable α]

/-- The record of a value at a level. -/
def record (S : Suite) (level : Level) (x : α) : Cbor := Field.record level (fields S x)

/-- The octets of the record at a level. -/
def canonical (S : Suite) (level : Level) (x : α) : Octets := (record S level x).canonical

/-- The message that is signed at a level. -/
def message (S : Suite) (level : Level) (x : α) : Octets := signedMessage level (record S level x)

end Signable

/-- A key as a field's value. -/
def PublicKey.cbor (k : PublicKey) : Cbor := .bytes k.octets

/-- A signature, or its absence, as a field's value. -/
def Signature.cborOf : Option Signature → Cbor
  | some s => .bytes s.octets
  | none => .null

end Settlement
