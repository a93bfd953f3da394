import Settlement.Linkage.Basic

/-!
# Evidence pools

Verifying a linkage derives both of its evidences. A pool keeps the evidences
of earlier verifications so that they can be overwritten; a rented one goes
back when its guard is dropped, unless the pool is full. What a buffer held
before never shows: `Rented.load_eq`.
-/

namespace Settlement

/-- Idle evidences, the last one returned first, and how many may be idle. -/
structure EvidencePool (B : Type) where
  capacity : Nat
  idle : List (LinkedEvidence B)

/-- The guard of a rented buffer, which is empty until it is loaded if none was idle. -/
structure Rented (B : Type) where
  buffer : Option (LinkedEvidence B)

namespace Rented

variable {B : Type}

/-- One side's evidence, put in the place of what the buffer holds. -/
def load (r : Rented B) (l : Linkage B) (isPrimary : Bool) : LinkedEvidence B :=
  match r.buffer with
  | some e => l.fill isPrimary e
  | none => l.evidence isPrimary

/-- A loaded buffer is the evidence of its side, whatever it held. -/
theorem load_eq (r : Rented B) (l : Linkage B) (isPrimary : Bool) :
    r.load l isPrimary = l.evidence isPrimary := by
  unfold load
  split <;> rfl

end Rented

namespace EvidencePool

variable {B : Type}

/-- The number of buffers that a pool keeps if nothing else is said. -/
def defaultCapacity : Nat := 16

/-- A pool without idle buffers. -/
def empty (capacity : Nat) : EvidencePool B := ⟨capacity, []⟩

/-- The number of idle buffers. -/
def available (p : EvidencePool B) : Nat := p.idle.length

/-- Takes the buffer that was returned last, if any is idle. -/
def rent (p : EvidencePool B) : Rented B × EvidencePool B :=
  match p.idle with
  | [] => (⟨none⟩, p)
  | e :: rest => (⟨some e⟩, { p with idle := rest })

/-- Drops a guard: its buffer goes back while there is room. -/
def release (p : EvidencePool B) (r : Rented B) : EvidencePool B :=
  match r.buffer with
  | some e => if p.idle.length < p.capacity then { p with idle := e :: p.idle } else p
  | none => p

end EvidencePool

namespace Linkage

variable {B : Type} [Base B]

/-- Checks both sides' merger signatures and the linker's in a rented buffer, and says what the
guard holds at the end. -/
def verifyIn (S : Suite) (l : Linkage B) (o : Options) (r : Rented B) :
    Except ValidationFault Unit × Rented B :=
  let primary := r.load l true
  match primary.checkSignatures S o.mergerCap with
  | .error fault => (.error fault, ⟨some primary⟩)
  | .ok () =>
    let secondary := Rented.load ⟨some primary⟩ l false
    match secondary.checkSignatures S o.mergerCap with
    | .error fault => (.error fault, ⟨some secondary⟩)
    | .ok () => (l.checkLinkerSignature S, ⟨some secondary⟩)

/-- Verifies a linkage in a buffer of the pool. The pool is left alone if the bases do not
verify. -/
def verifyWithPool (S : Suite) (l : Linkage B) (o : Options) (pool : EvidencePool B) :
    Except ValidationFault Unit × EvidencePool B :=
  match l.verifyBases S o with
  | .error fault => (.error fault, pool)
  | .ok () =>
    -- from here on the guard is dropped whatever the result
    let (rented, rest) := pool.rent
    let (result, used) := l.verifyIn S o rented
    (result, rest.release used)

end Linkage

end Settlement
