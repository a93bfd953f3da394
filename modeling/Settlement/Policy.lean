import Settlement.Instant
import Settlement.Suite.Basic

/-!
# Policies and verification options

The parameters that signers and verifiers share, and what one verification
adds to them: its instant, whether expiry counts, and how many mergers have to
have signed.
-/

namespace Settlement

/-- The most mergers that a credit has. -/
def maxMergers : Nat := 3

/-- Parameters that signers and verifiers share. -/
structure Policy where
  /-- The longest window of a proof. -/
  maxValid : Mics := 365 * Mics.day
  /-- Longer windows end at the start of a day. -/
  truncateAbove : Mics := 10 * Mics.day
  /-- The clock skew tolerated at both ends of a window. -/
  margin : Mics := 10 * Mics.second
  /-- The network's root key, which may sign where a proof allows it. -/
  root : Option PublicKey := none
deriving DecidableEq

/-- The terms of one verification. -/
structure Options where
  policy : Policy := {}
  /-- The instant at which windows are checked. -/
  now : Mics
  /-- Leaves out the comparison with `now`. -/
  ignoreExpiration : Bool := false
  /-- The number of mergers, from the first, whose signatures are asked for. -/
  mergerCap : Nat := maxMergers
deriving DecidableEq

end Settlement
