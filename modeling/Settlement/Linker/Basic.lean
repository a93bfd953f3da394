import Settlement.Linkage.Pool
import Settlement.Linker.Pending
import Settlement.Storage.Evidence

/-!
# Linkers

Both parties of a transfer send their evidence to the linker that their proofs
name. The linker joins two evidences and signs the linkage, or takes them one
at a time: the first side waits until the other arrives or its time is over.

A linker is a value; an operation that changes it gives the changed linker
beside its answer, also when the answer is a fault.
-/

namespace Settlement

/-- Why a linker refuses. -/
inductive LinkerFault where
  | validation (fault : ValidationFault)
  | linkage (fault : LinkageFault)
  | signing (fault : SigningFault)
  | data (fault : DataFault)
  /-- A base names another linker, or none. -/
  | notAddressed
deriving DecidableEq

/-- The wording of a linker fault. -/
def LinkerFault.message : LinkerFault → String
  | .validation fault => s!"validation error: {fault.message}"
  | .linkage fault => s!"linkage error: {fault.message}"
  | .signing fault => s!"signing error: {fault.message}"
  | .data fault => s!"decoding error: {fault.message}"
  | .notAddressed => "evidence is addressed to another linker"

/-- The parameters of a linker. -/
structure LinkerConfig where
  policy : Policy := {}
  /-- The number of mergers whose signatures each evidence needs. -/
  mergerCap : Nat := maxMergers
  poolCapacity : Nat := EvidencePool.defaultCapacity
  /-- How long an evidence waits for the other side. -/
  pendingTtl : Mics := 10 * Mics.minute
deriving DecidableEq

/-- The terms on which a linker verifies at an instant. -/
def LinkerConfig.optionsAt (c : LinkerConfig) (now : Mics) : Options :=
  { policy := c.policy, now := now, mergerCap := c.mergerCap }

/-- What becomes of a submitted evidence. -/
inductive SubmitOutcome (B : Type) where
  /-- It waits for the other side. -/
  | pending
  /-- It was waiting already. -/
  | duplicate
  /-- Another evidence of the same side waits, and goes on waiting. -/
  | conflict
  /-- The other side was waiting, and this is their linkage. -/
  | linked (l : Linkage B)

/-- A linker's secret, parameters, buffers and waiting evidences. -/
structure Linker (B : Type) where
  seed : Seed
  config : LinkerConfig
  pool : EvidencePool B
  pending : PendingTable B

namespace Linker

variable {B : Type}

/-- A linker at which nothing waits. -/
def new (seed : Seed) (config : LinkerConfig) : Linker B :=
  ⟨seed, config, .empty config.poolCapacity, .empty⟩

/-- The key that proofs name this linker by. -/
def publicKey (S : Suite) (k : Linker B) : PublicKey := S.publicKey k.seed

/-- The number of evidences that wait. -/
def pendingCount (k : Linker B) : Nat := k.pending.size

/-- Drops the evidences that have waited too long. -/
def dropExpired (k : Linker B) (now : Mics) : Linker B :=
  { k with pending := k.pending.dropExpired k.config.pendingTtl now }

/-- Drops the evidences that have waited too long, and counts them. -/
def purge (k : Linker B) (now : Mics) : Nat × Linker B :=
  (k.pendingCount - (k.dropExpired now).pendingCount, k.dropExpired now)

variable [Base B]

/-- Whether both bases name this linker. -/
def isAddressed (S : Suite) (k : Linker B) (e : LinkedEvidence B) : Bool :=
  Base.linker? e.body.link.base1 = some (k.publicKey S) &&
    Base.linker? e.body.link.base2 = some (k.publicKey S)

/-- Verifies a linkage in a buffer of the linker. -/
def verify (S : Suite) (k : Linker B) (l : Linkage B) (now : Mics) :
    Except LinkerFault Unit × Linker B :=
  let (result, pool) := l.verifyWithPool S (k.config.optionsAt now) k.pool
  (result.mapError .validation, { k with pool := pool })

/-- Checks that an evidence is addressed to this linker and verifies it. -/
def examine (S : Suite) (k : Linker B) (e : LinkedEvidence B) (now : Mics) :
    Except LinkerFault Unit :=
  if !k.isAddressed S e then .error .notAddressed
  else (e.verify S k.config.mergerCap (k.config.optionsAt now)).mapError .validation

variable [DecidableEq B]

/-- Joins two evidences, given in either order, and signs the linkage. -/
def link (S : Suite) (k : Linker B) (e1 e2 : LinkedEvidence B) (now : Mics) :
    Except LinkerFault (Linkage B) := do
  if !k.isAddressed S e1 || !k.isAddressed S e2 then
    throw .notAddressed
  let l ← (Linkage.create? S e1 e2 (k.config.optionsAt now)).mapError .linkage
  (l.sign S k.seed).mapError .signing

/-- Puts an admitted evidence into the table, or joins it with the other side that waits there. -/
def settle (S : Suite) (k : Linker B) (e : LinkedEvidence B) (now : Mics) :
    Except LinkerFault (SubmitOutcome B) × Linker B :=
  let key := e.body.link.key S
  match k.pending.find? key with
  | none => (.ok .pending, { k with pending := k.pending.insert ⟨key, e, now⟩ })
  | some w =>
    if w.evidence.body.isPrimary = e.body.isPrimary then
      (.ok (if w.evidence = e then .duplicate else .conflict), k)
    else
      -- the other side leaves the table before the two are joined
      ((k.link S w.evidence e now).map .linked, { k with pending := k.pending.erase key })

/-- Takes one side of a link. A refused evidence changes nothing; an admitted one first makes
evidences go that have waited too long. -/
def submit (S : Suite) (k : Linker B) (e : LinkedEvidence B) (now : Mics) :
    Except LinkerFault (SubmitOutcome B) × Linker B :=
  match k.examine S e now with
  | .error fault => (.error fault, k)
  | .ok () => (k.dropExpired now).settle S e now

/-- Takes one side of a link as stored octets. -/
def submitOctets [Stored B] (S : Suite) (k : Linker B) (o : Octets) (now : Mics) :
    Except LinkerFault (SubmitOutcome B) × Linker B :=
  match (Stored.ofOctets S o : Except DataFault (LinkedEvidence B)) with
  | .error fault => (.error (.data fault), k)
  | .ok e => k.submit S e now

end Linker

end Settlement
