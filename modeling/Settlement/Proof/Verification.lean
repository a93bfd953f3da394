import Settlement.Proof.Basic
import Settlement.Proof.Fault

/-!
# Verifying proofs

A proof verifies when its window is sound and holds the instant of
verification, and its signature is that of the key it asks for.
-/

namespace Settlement.Proof

/-- Checks the window: first its length, then the instant against its two widened ends. -/
def checkWindow (p : Proof) (o : Options) : Except ValidationFault Unit :=
  let length := p.expirationMics.minus p.signedMics
  if length ≤ 0 ∨ o.policy.maxValid < length then
    .error (.invalidWindow p.signedMics p.expirationMics)
  else if o.ignoreExpiration then .ok ()
  else if o.now < p.signedMics.minus o.policy.margin then
    .error (.notYetValid o.now p.signedMics)
  else if p.expirationMics.plus o.policy.margin < o.now then
    .error (.expired o.now p.expirationMics)
  else .ok ()

/-- Checks the signature against the key that the proof asks for. -/
def checkSignature (S : Suite) (p : Proof) (o : Options) : Except ValidationFault Unit :=
  match p.signature with
  | none => .error .unsigned
  | some signature =>
    match p.signatureKey o.policy.root with
    | none => .error .signerUnresolved
    | some key =>
      if key.accepts S (p.signerMessage S) signature then .ok () else .error .signatureFailed

/-- Checks the window, then the signature. -/
def verify (S : Suite) (p : Proof) (o : Options) : Except ValidationFault Unit := do
  p.checkWindow o
  p.checkSignature S o

/-- Where a proof stands in its life. -/
inductive State where
  | unsigned
  | signed
  | verified
  | expired
  | invalid
deriving DecidableEq, Repr

/-- Whether the proof carries a signature, right or wrong. -/
def state (p : Proof) : State := if p.signature.isSome then .signed else .unsigned

/-- The state that verification leads to. Outside its window a sound proof is expired, on either
side. -/
def verifiedState (S : Suite) (p : Proof) (o : Options) : State :=
  if p.signature = none then .unsigned
  else
    match p.verify S o with
    | .ok () => .verified
    | .error (.expired ..) => .expired
    | .error (.notYetValid ..) => .expired
    | .error _ => .invalid

end Settlement.Proof
