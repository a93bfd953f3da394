import Settlement.Account.Value

/-!
# Proofs

A proof is a signed assertion with a window of time: that an owner holds a
value, or that a key belongs to a credit. Who may sign, and the key whose
signature a proof has to carry, depend on the assertion:

* of a value: its owner;
* of a value with a signer slot: the owner, a merger of the credit, or the
  root key, as the slot says;
* of a credential: the merger that it names.
-/

namespace Settlement

/-- What a proof asserts. -/
inductive Assertion where
  /-- The value is held; its owner signs. -/
  | value (value : Value) (linker : PublicKey)
  /-- The value is held; the principal in the slot signs. -/
  | signer (value : Value) (slot : UInt8) (linker : PublicKey)
  /-- The subject belongs to the credit; the merger with the index signs. -/
  | credential (credit : Credit) (subject : PublicKey) (index : UInt8)
deriving DecidableEq

/-- Kinds of principals. -/
structure Principals where
  owner : Bool := false
  merger : Bool := false
  root : Bool := false
deriving DecidableEq, Repr

namespace Principals

/-- The kinds in either. -/
def union (a b : Principals) : Principals :=
  ⟨a.owner || b.owner, a.merger || b.merger, a.root || b.root⟩

/-- Whether every kind of `b` is one of `a`. -/
def contains (a b : Principals) : Bool :=
  (a.owner || !b.owner) && (a.merger || !b.merger) && (a.root || !b.root)

end Principals

namespace Assertion

/-- The slot of the owner. Slots from one on are those of the mergers. -/
def ownerSlot : UInt8 := 0

/-- The slot that is written for the root key. Any slot beyond the mergers is read as the root's. -/
def rootSlot : UInt8 := 255

/-- The kinds of principals that may sign. -/
def permitted : Assertion → Principals
  | .value .. => { owner := true }
  | .signer .. => { owner := true, merger := true, root := true }
  | .credential .. => { merger := true }

/-- The key whose signature is asked for, given the root key. -/
def signatureKey (root : Option PublicKey) : Assertion → Option PublicKey
  | .value v _ => some v.owner
  | .signer v slot _ =>
    if slot = ownerSlot then some v.owner
    else if slot.toNat ≤ v.credit.mergers.length then v.credit.merger? (slot.toNat - 1)
    else root
  | .credential c _ index => c.merger? index.toNat

/-- The credit whose mergers co-sign. -/
def credit : Assertion → Credit
  | .value v _ => v.credit
  | .signer v _ _ => v.credit
  | .credential c _ _ => c

/-- The value asserted, if it is one. -/
def value? : Assertion → Option Value
  | .value v _ => some v
  | .signer v _ _ => some v
  | .credential .. => none

/-- The linker named, if any. -/
def linker? : Assertion → Option PublicKey
  | .value _ linker => some linker
  | .signer _ _ linker => some linker
  | .credential .. => none

/-- The kind of record that a proof of the assertion is. -/
def entity : Assertion → Entity
  | .value .. => .valueProof
  | .signer .. => .signerProof
  | .credential .. => .credentialProof

/-- The fields of the assertion, all at the signer's level. -/
def fields (S : Suite) : Assertion → List Field
  | .value v linker =>
    [⟨3, .signer, Signable.record S .full v⟩, ⟨4, .signer, linker.cbor⟩]
  | .signer v slot linker =>
    [⟨3, .signer, Signable.record S .full v⟩, ⟨4, .signer, linker.cbor⟩,
     ⟨5, .signer, .uint slot.toUInt64⟩]
  | .credential c subject index =>
    [⟨6, .signer, Signable.record S .full c⟩, ⟨7, .signer, subject.cbor⟩,
     ⟨8, .signer, .uint index.toUInt64⟩]

end Assertion

/-- A signed assertion with a window of time. -/
structure Proof where
  assertion : Assertion
  signedMics : Mics
  expirationMics : Mics
  signature : Option Signature
deriving DecidableEq

namespace Proof

/-- An unsigned proof of an assertion. -/
def unsigned (a : Assertion) : Proof := ⟨a, 0, 0, none⟩

/-- An unsigned proof of a value, for its owner to sign. -/
def forValue (v : Value) (linker : PublicKey) : Proof := unsigned (.value v linker)

/-- An unsigned proof of a value whose signer is settled at signing. -/
def withSigner (v : Value) (linker : PublicKey) : Proof :=
  unsigned (.signer v Assertion.ownerSlot linker)

/-- An unsigned credential of a subject, for a merger to sign. -/
def credential (c : Credit) (subject : PublicKey) : Proof := unsigned (.credential c subject 0)

/-- The key whose signature the proof has to carry, given the root key. -/
def signatureKey (root : Option PublicKey) (p : Proof) : Option PublicKey :=
  p.assertion.signatureKey root

/-- The credit whose mergers co-sign. -/
def credit (p : Proof) : Credit := p.assertion.credit

/-- The value asserted, if it is one. -/
def value? (p : Proof) : Option Value := p.assertion.value?

/-- The linker named, if any. -/
def linker? (p : Proof) : Option PublicKey := p.assertion.linker?

instance : Signable Proof where
  fields S p :=
    [.entity p.assertion.entity,
     ⟨1, .signer, .int p.signedMics⟩,
     ⟨2, .signer, .int p.expirationMics⟩] ++
    p.assertion.fields S ++
    [⟨15, .full, Signature.cborOf p.signature⟩]

/-- The message that the proof's signer signs. -/
def signerMessage (S : Suite) (p : Proof) : Octets := Signable.message S .signer p

end Proof

end Settlement
