import Settlement.Evidence.Basic

/-!
# Linkages

A linkage joins the two evidences of one link and is signed by the linker that
both bases name. `Linkage.create?` joins evidences that verify,
`Linkage.verify` takes a linkage apart again and verifies all of it.
-/

namespace Settlement

/-- Why two evidences do not make a linkage. -/
inductive LinkageFault where
  | primaryArrangement
  | baseMismatch
  | linkedMicsMismatch (primary secondary : Mics)
  | invalidEvidence (isPrimary : Bool) (reason : ValidationFault)
deriving DecidableEq

/-- The wording of a linkage fault. -/
def LinkageFault.message : LinkageFault → String
  | .primaryArrangement => "exactly one evidence must be primary"
  | .baseMismatch => "evidences attest to different base proofs"
  | .linkedMicsMismatch primary secondary =>
    s!"linked mics differ: {primary.toInt} vs {secondary.toInt}"
  | .invalidEvidence isPrimary reason =>
    (if isPrimary then "primary" else "secondary") ++ s!" evidence is invalid: {reason.message}"

/-- A link with the signatures of both sides' mergers and of the linker. -/
structure Linkage (B : Type) where
  link : Link B
  primarySignatures : MergerSignatures
  secondarySignatures : MergerSignatures
  linkerSignature : Option Signature
deriving DecidableEq

namespace Linkage

variable {B : Type}

/-- The merger signatures of one side. -/
def signatures (l : Linkage B) (isPrimary : Bool) : MergerSignatures :=
  if isPrimary then l.primarySignatures else l.secondarySignatures

/-- The evidence of one side. -/
def evidence (l : Linkage B) (isPrimary : Bool) : LinkedEvidence B :=
  ⟨⟨isPrimary, l.link⟩, l.signatures isPrimary⟩

/-- An evidence overwritten with that of one side. -/
def fill (l : Linkage B) (isPrimary : Bool) (e : LinkedEvidence B) : LinkedEvidence B :=
  { e with
    body := { e.body with isPrimary := isPrimary, link := l.link }
    signatures := l.signatures isPrimary }

/-- The linkage of two evidences of which one is primary, before the linker signs. -/
def join (primary secondary : LinkedEvidence B) : Linkage B :=
  ⟨primary.body.link, primary.signatures, secondary.signatures, none⟩

/-- The linkage with the linker's signature attached. -/
def attach (l : Linkage B) (signature : Signature) : Linkage B :=
  { l with linkerSignature := some signature }

variable [Base B]

instance : Signable (Linkage B) where
  fields S l :=
    [.entity .linkage,
     ⟨1, .signer, .int l.link.linkedMics⟩,
     ⟨2, .signer, Signable.record S .full l.link.base1⟩,
     ⟨3, .signer, Signable.record S .full l.link.base2⟩,
     ⟨4, .linker, l.primarySignatures.cbor⟩,
     ⟨5, .linker, l.secondarySignatures.cbor⟩,
     ⟨15, .full, Signature.cborOf l.linkerSignature⟩]

/-- The linker that both bases name. -/
def sharedLinker (l : Linkage B) : Except ValidationFault PublicKey :=
  match Base.linker? l.link.base1, Base.linker? l.link.base2 with
  | some first, some second => if first = second then .ok first else .error .linkerMismatch
  | _, _ => .error .missingLinkerKey

/-- The linker that both bases name, if they agree on one. -/
def linker? (l : Linkage B) : Option PublicKey := l.sharedLinker.toOption

/-- The message that the linker signs. -/
def linkerMessage (S : Suite) (l : Linkage B) : Octets := Signable.message S .linker l

/-- The linkage signed by a seed's holder, who must be the linker that both bases name. -/
def sign (S : Suite) (l : Linkage B) (seed : Seed) : Except SigningFault (Linkage B) :=
  if l.linker? = some (S.publicKey seed) then .ok (l.attach (S.sign seed (l.linkerMessage S)))
  else .error .keyMismatch

/-- Checks that the bases agree on a linker and verifies both. -/
def verifyBases (S : Suite) (l : Linkage B) (o : Options) : Except ValidationFault Unit := do
  let _ ← l.sharedLinker
  Base.verify S l.link.base1 o
  Base.verify S l.link.base2 o

/-- Checks the linker's signature. -/
def checkLinkerSignature (S : Suite) (l : Linkage B) : Except ValidationFault Unit := do
  let linker ← l.sharedLinker
  match l.linkerSignature with
  | none => throw .missingLinkerSignature
  | some signature =>
    if linker.accepts S (l.linkerMessage S) signature then return ()
    else throw .signatureFailed

/-- Verifies the bases, both sides' merger signatures and the linker's. -/
def verify (S : Suite) (l : Linkage B) (o : Options) : Except ValidationFault Unit := do
  l.verifyBases S o
  (l.evidence true).checkSignatures S o.mergerCap
  (l.evidence false).checkSignatures S o.mergerCap
  l.checkLinkerSignature S

/-- Joins two evidences, of which the first one is primary. -/
def joinSides? [DecidableEq B] (S : Suite) (primary secondary : LinkedEvidence B) (o : Options) :
    Except LinkageFault (Linkage B) := do
  let p := primary.body.link
  let s := secondary.body.link
  if p.linkedMics ≠ s.linkedMics then
    throw (.linkedMicsMismatch p.linkedMics s.linkedMics)
  if p.base1 ≠ s.base1 ∨ p.base2 ≠ s.base2 then
    throw .baseMismatch
  (primary.verify S o.mergerCap o).mapError (.invalidEvidence true)
  (secondary.verify S o.mergerCap o).mapError (.invalidEvidence false)
  return join primary secondary

/-- Joins two evidences of one link, given in either order. -/
def create? [DecidableEq B] (S : Suite) (e1 e2 : LinkedEvidence B) (o : Options) :
    Except LinkageFault (Linkage B) :=
  if e1.body.isPrimary = e2.body.isPrimary then .error .primaryArrangement
  else if e1.body.isPrimary then joinSides? S e1 e2 o
  else joinSides? S e2 e1 o

end Linkage

end Settlement
