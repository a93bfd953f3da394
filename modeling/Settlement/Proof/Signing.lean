import Settlement.Proof.Basic
import Settlement.Proof.Fault

/-!
# Signing proofs

A signer is first found among the principals that the assertion admits, then a
window is opened at the instant of signing, then the message is signed. A
refused key leaves no new proof.
-/

namespace Settlement

/-- The assertion as the candidate will sign it, with the candidate's place recorded. The owner
comes before the mergers, an earlier merger before a later one, and the root key last. -/
def Assertion.signedBy (candidate : PublicKey) (root : Option PublicKey) :
    Assertion → Except SigningFault Assertion
  | .value v linker =>
    if v.owner = candidate then .ok (.value v linker) else .error .signerNotPermitted
  | .signer v _ linker =>
    if v.owner = candidate then .ok (.signer v ownerSlot linker)
    else
      match v.credit.indexOf? candidate with
      | some i => .ok (.signer v (UInt8.ofNat i + 1) linker)
      | none =>
        if root = some candidate then .ok (.signer v rootSlot linker)
        else .error .signerNotPermitted
  | .credential c subject _ =>
    match c.indexOf? candidate with
    | some i => .ok (.credential c subject (UInt8.ofNat i))
    | none => .error .signerNotPermitted

namespace Policy

/-- The length of the window for a requested length: the request up to the longest, and the
longest for a request that is not positive. -/
def window (policy : Policy) (requested : Mics) : Mics :=
  if requested ≤ 0 then policy.maxValid else min requested policy.maxValid

/-- The end of a window that opens now. Long windows end at the start of a day, if that day
starts after now. -/
def expiration (policy : Policy) (requested now : Mics) : Mics :=
  let latest := now.plus (policy.window requested)
  if policy.truncateAbove < policy.window requested ∧ now < latest.startOfDay then
    latest.startOfDay
  else latest

end Policy

namespace Proof

/-- The proof with its signer settled and its window open, not yet signed. -/
def prepare (p : Proof) (candidate : PublicKey) (requested : Mics) (policy : Policy) (now : Mics) :
    Except SigningFault Proof := do
  let assertion ← p.assertion.signedBy candidate policy.root
  return ⟨assertion, now, policy.expiration requested now, none⟩

/-- The proof with a signature attached. -/
def attach (p : Proof) (signature : Signature) : Proof := { p with signature := some signature }

/-- The proof prepared for a seed's holder and signed. -/
def sign (S : Suite) (p : Proof) (seed : Seed) (requested : Mics) (policy : Policy) (now : Mics) :
    Except SigningFault Proof := do
  let prepared ← p.prepare (S.publicKey seed) requested policy now
  return prepared.attach (S.sign seed (prepared.signerMessage S))

end Proof

end Settlement
