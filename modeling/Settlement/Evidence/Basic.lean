import Settlement.Evidence.Base

/-!
# Evidences

An evidence is a body with up to three co-signatures, one for each merger of
the body's credit. Each merger signs the body at a level of its own and no
other merger's signature, so co-signatures can be collected in any order.

There are two bodies: a proof alone, and one side of a link between two bases.
-/

namespace Settlement

/-- The signatures of the mergers, in the mergers' order; a slot may be empty. -/
structure MergerSignatures where
  slots : List (Option Signature)
  length_slots : slots.length = maxMergers
deriving DecidableEq

namespace MergerSignatures

/-- No signature at all. -/
def empty : MergerSignatures := ⟨List.replicate maxMergers none, List.length_replicate⟩

/-- The signature in a slot. -/
def get? (s : MergerSignatures) (index : Nat) : Option Signature := s.slots[index]?.join

/-- The signatures with one slot replaced; there is no slot beyond the third. -/
def set (s : MergerSignatures) (index : Nat) (signature : Option Signature) : MergerSignatures :=
  ⟨s.slots.set index signature, by rw [List.length_set, s.length_slots]⟩

/-- The number of filled slots. -/
def count (s : MergerSignatures) : Nat := s.slots.countP Option.isSome

/-- The slots as a field's value. -/
def cbor (s : MergerSignatures) : Cbor := .array (s.slots.map Signature.cborOf)

@[ext] theorem ext {a b : MergerSignatures} (h : a.slots = b.slots) : a = b := by
  cases a; cases b; simp_all

end MergerSignatures

/-- What the mergers of an evidence co-sign. -/
class EvidenceBody (β : Type) extends Signable β where
  /-- The proof whose credit supplies the mergers, if it is still there. -/
  proof? : β → Option Proof
  /-- Verifies every base in the body. -/
  verifyBases : Suite → β → Options → Except ValidationFault Unit

/-- A body and the signatures of its mergers. -/
structure Evidence (β : Type) where
  body : β
  signatures : MergerSignatures
deriving DecidableEq

namespace Evidence

variable {β : Type}

/-- A body that nobody has co-signed yet. -/
def ofBody (body : β) : Evidence β := ⟨body, .empty⟩

variable [EvidenceBody β]

instance : Signable (Evidence β) where
  fields S e := Signable.fields S e.body ++ [⟨15, .full, e.signatures.cbor⟩]

/-- The credit whose mergers co-sign. -/
def credit? (e : Evidence β) : Option Credit := (EvidenceBody.proof? e.body).map Proof.credit

/-- The message that the merger with the given index signs. -/
def mergerMessage (S : Suite) (e : Evidence β) (index : Nat) : Octets :=
  Signable.message S (.merger index) e

/-- The evidence with a signature in a merger's slot. -/
def attach (e : Evidence β) (index : Nat) (signature : Signature) :
    Except SigningFault (Evidence β) :=
  if maxMergers ≤ index then .error (.mergerIndexOutOfRange index)
  else .ok { e with signatures := e.signatures.set index (some signature) }

/-- The evidence co-signed by the merger with the given index, whose key the seed must have. -/
def sign (S : Suite) (e : Evidence β) (index : Nat) (seed : Seed) :
    Except SigningFault (Evidence β) :=
  if maxMergers ≤ index then .error (.mergerIndexOutOfRange index)
  else
    match e.credit? with
    | none => .error .missingCredit
    | some credit =>
      match credit.merger? index with
      | none => .error (.mergerIndexOutOfRange index)
      | some key =>
        if key ≠ S.publicKey seed then .error .keyMismatch
        else e.attach index (S.sign seed (e.mergerMessage S index))

/-- Checks the signatures of mergers that stand from `index` on. -/
def checkMergers (S : Suite) (e : Evidence β) : (index : Nat) → List PublicKey →
    Except ValidationFault Unit
  | _, [] => .ok ()
  | index, merger :: rest =>
    match e.signatures.get? index with
    | none => .error (.missingMergerSignature index)
    | some signature =>
      if merger.accepts S (e.mergerMessage S index) signature then
        e.checkMergers S (index + 1) rest
      else .error (.mergerSignatureFailed index)

/-- Checks the signatures of the first mergers, as many as the cap allows. -/
def checkSignatures (S : Suite) (e : Evidence β) (cap : Nat) : Except ValidationFault Unit :=
  match e.credit? with
  | none => .error .missingProof
  | some credit => e.checkMergers S 0 (credit.mergers.take cap)

/-- Verifies every base in the body. -/
def verifyBases (S : Suite) (e : Evidence β) (o : Options) : Except ValidationFault Unit :=
  EvidenceBody.verifyBases S e.body o

/-- Verifies every base, then the signatures of the first mergers. -/
def verify (S : Suite) (e : Evidence β) (cap : Nat) (o : Options) : Except ValidationFault Unit := do
  e.verifyBases S o
  e.checkSignatures S cap

end Evidence

/-- A single proof as the body of an evidence. -/
structure ProofBody where
  proof : Proof
deriving DecidableEq

instance : EvidenceBody ProofBody where
  fields S b := [.entity .proofEvidence, ⟨5, .evidence, Signable.record S .full b.proof⟩]
  proof? b := some b.proof
  verifyBases S b o := b.proof.verify S o

/-- A single proof co-signed by its mergers. -/
abbrev ProofEvidence := Evidence ProofBody

/-- What two parties agree on: an instant and the base of each. -/
structure Link (B : Type) where
  linkedMics : Mics
  base1 : B
  base2 : B
deriving DecidableEq

/-- One side of a link. The primary side's mergers are those of the first base, the secondary
side's those of the second. -/
structure Side (B : Type) where
  isPrimary : Bool
  link : Link B
deriving DecidableEq

/-- One side of a link, co-signed by its mergers. -/
abbrev LinkedEvidence (B : Type) := Evidence (Side B)

namespace Side

variable {B : Type}

/-- The base whose credit supplies the mergers. -/
def base (s : Side B) : B := if s.isPrimary then s.link.base1 else s.link.base2

variable [Base B]

instance : EvidenceBody (Side B) where
  fields S s :=
    [.entity .linkedEvidence,
     ⟨1, .evidence, .bool s.isPrimary⟩,
     ⟨2, .evidence, .int s.link.linkedMics⟩,
     ⟨3, .evidence, Signable.record S .full s.link.base1⟩,
     ⟨4, .evidence, Signable.record S .full s.link.base2⟩]
  proof? s := Base.proof? s.base
  verifyBases S s o := do
    Base.verify S s.link.base1 o
    Base.verify S s.link.base2 o

end Side

namespace LinkedEvidence

variable {B : Type}

/-- One side of a link that nobody has co-signed yet. -/
def of (isPrimary : Bool) (linkedMics : Mics) (base1 base2 : B) : LinkedEvidence B :=
  .ofBody ⟨isPrimary, linkedMics, base1, base2⟩

/-- One side of a link between contracts over the whole values of two proofs. -/
def ofProofs (isPrimary : Bool) (linkedMics : Mics) (proof1 proof2 : Proof) :
    LinkedEvidence Contract :=
  of isPrimary linkedMics (.wholeOf proof1) (.wholeOf proof2)

end LinkedEvidence

end Settlement
