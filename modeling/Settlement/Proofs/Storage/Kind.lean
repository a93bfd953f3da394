import Settlement.Proofs.WellFormed
import Settlement.Storage.Evidence

/-!
# Kinds of stored objects

Ten types of objects are stored by themselves, two of them over proofs and over
contracts; four of the types have a text form as well. A kind stands for a
type, so that a property of all stored objects is one statement, and a property
of two types a statement about two kinds.
-/

namespace Settlement.Storage

/-- The bases over which evidences and linkages are stored. -/
inductive BaseKind where
  | proof
  | contract
deriving DecidableEq

namespace BaseKind

/-- The type of the bases of a kind. -/
def Object : BaseKind → Type
  | .proof => Proof
  | .contract => Contract

instance : (k : BaseKind) → Stored k.Object
  | .proof => inferInstanceAs (Stored Proof)
  | .contract => inferInstanceAs (Stored Contract)

instance : (k : BaseKind) → Base k.Object
  | .proof => inferInstanceAs (Base Proof)
  | .contract => inferInstanceAs (Base Contract)

instance : (k : BaseKind) → DecidableEq k.Object
  | .proof => inferInstanceAs (DecidableEq Proof)
  | .contract => inferInstanceAs (DecidableEq Contract)

end BaseKind

/-- What is stored by itself. -/
inductive Kind where
  | credit
  | value
  | proof
  | contract
  | proofEvidence
  | linkedEvidence (base : BaseKind)
  | linkage (base : BaseKind)
  | token
deriving DecidableEq

namespace Kind

/-- The type of the objects of a kind. -/
def Object : Kind → Type
  | .credit => Credit
  | .value => Value
  | .proof => Proof
  | .contract => Contract
  | .proofEvidence => ProofEvidence
  | .linkedEvidence base => LinkedEvidence base.Object
  | .linkage base => Linkage base.Object
  | .token => OwnerToken

instance : (k : Kind) → Stored k.Object
  | .credit => inferInstanceAs (Stored Credit)
  | .value => inferInstanceAs (Stored Value)
  | .proof => inferInstanceAs (Stored Proof)
  | .contract => inferInstanceAs (Stored Contract)
  | .proofEvidence => inferInstanceAs (Stored ProofEvidence)
  | .linkedEvidence base => inferInstanceAs (Stored (LinkedEvidence base.Object))
  | .linkage base => inferInstanceAs (Stored (Linkage base.Object))
  | .token => inferInstanceAs (Stored OwnerToken)

/-- Every credit and every value in the object is well formed. -/
def WellFormed (S : Suite) : (k : Kind) → k.Object → Prop
  | .credit => Credit.WellFormed S
  | .value => Value.WellFormed S
  | .proof => Proof.WellFormed S
  | .contract => Base.WellFormed (B := Contract) S
  | .proofEvidence => fun e : ProofEvidence => e.body.proof.WellFormed S
  | .linkedEvidence base => fun e : LinkedEvidence base.Object => e.body.link.WellFormed S
  | .linkage base => fun l : Linkage base.Object => l.link.WellFormed S
  | .token => OwnerToken.WellFormed S

end Kind

/-- What has a text form. -/
inductive TextKind where
  | proof
  | linkage (base : BaseKind)
  | token
deriving DecidableEq

namespace TextKind

/-- The kind of what is stored in the text. -/
def kind : TextKind → Kind
  | .proof => .proof
  | .linkage base => .linkage base
  | .token => .token

instance : (k : TextKind) → Marked k.kind.Object
  | .proof => inferInstanceAs (Marked Proof)
  | .linkage base => inferInstanceAs (Marked (Linkage base.Object))
  | .token => inferInstanceAs (Marked OwnerToken)

end TextKind

end Settlement.Storage
