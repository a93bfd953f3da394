import Settlement.Account.Value

/-!
# Faults of verification and of signing

Why a proof, an evidence or a linkage does not verify, and why a key may not
sign.
-/

namespace Settlement

/-- Why a proof, an evidence or a linkage does not verify. -/
inductive ValidationFault where
  | unsigned
  | signatureFailed
  | invalidWindow (signed expiration : Mics)
  | notYetValid (now signed : Mics)
  | expired (now expiration : Mics)
  | signerUnresolved
  | missingProof
  | missingMergerSignature (index : Nat)
  | mergerSignatureFailed (index : Nat)
  | missingLinkerKey
  | linkerMismatch
  | missingLinkerSignature
  /-- The amounts of a contract are out of range or out of order. -/
  | amounts (part whole : Point)
deriving DecidableEq

/-- The wording of a validation fault. -/
def ValidationFault.message : ValidationFault → String
  | .unsigned => "proof is not signed"
  | .signatureFailed => "signature verification failed"
  | .invalidWindow signed expiration =>
    s!"validity window is invalid: signed {signed.toInt}, expires {expiration.toInt}"
  | .notYetValid now signed => s!"proof is not yet valid: now {now.toInt}, signed {signed.toInt}"
  | .expired now expiration => s!"proof expired: now {now.toInt}, expired {expiration.toInt}"
  | .signerUnresolved => "signature key cannot be resolved"
  | .missingProof => "proof is not available (identifier-only contract)"
  | .missingMergerSignature index => s!"merger signature {index} is missing"
  | .mergerSignatureFailed index => s!"merger signature {index} failed verification"
  | .missingLinkerKey => "base proof carries no linker key"
  | .linkerMismatch => "bases name different linkers"
  | .missingLinkerSignature => "linker signature is missing"
  | .amounts part whole => s!"structural error: contract amounts {part.text} / {whole.text}"

/-- Why a key may not sign, or a signature may not be attached. -/
inductive SigningFault where
  | signerNotPermitted
  | mergerIndexOutOfRange (index : Nat)
  | keyMismatch
  | missingCredit
deriving DecidableEq, Repr

/-- The wording of a signing fault. -/
def SigningFault.message : SigningFault → String
  | .signerNotPermitted => "key is not a permitted signer for this proof"
  | .mergerIndexOutOfRange index => s!"merger index {index} is out of range"
  | .keyMismatch => "signing key does not match the expected signer"
  | .missingCredit => "no credit to resolve merger signers against"

end Settlement
