import Settlement.Linkage.Basic
import Settlement.Proof.Signing

/-!
# Parties with fixed keys

Account holders whose keys follow from small numbers, and the evidences of a
transfer between two of them. They make settlements that anyone can reproduce.
-/

namespace Settlement.Fixture

/-- The instant at which fixtures sign. -/
def now : Mics := 1760000000000000

/-- The window of the proofs of fixtures. -/
def window : Mics := Mics.hour

/-- The seed that begins with two given octets. -/
def seed (party index : UInt8) : Seed := .padded [party, index]

/-- An account holder: an owner and the mergers of the owner's credit. -/
structure Party where
  owner : Seed
  mergers : List Seed

namespace Party

/-- The party with the given number; the owner has index zero, the mergers those that follow. -/
def numbered (number : UInt8) (mergerCount : Nat) : Party :=
  ⟨seed number 0, (List.range mergerCount).map fun i => seed number (UInt8.ofNat (i + 1))⟩

/-- The credit of the party. -/
def credit (S : Suite) (p : Party) : Credit := ⟨S.publicKey p.owner, p.mergers.map S.publicKey⟩

/-- What the party holds of its own credit. -/
def value (S : Suite) (p : Party) (point : Point) : Value :=
  ⟨S.publicKey p.owner, point, p.credit S⟩

/-- The owner's proof of an amount, for a linker. -/
def signedProof (S : Suite) (p : Party) (point : Point) (linker : PublicKey) (now : Mics) :
    Except SigningFault Proof :=
  (Proof.forValue (p.value S point) linker).sign S p.owner window {} now

/-- An evidence co-signed by the party's mergers in their order. -/
def cosign {β : Type} [EvidenceBody β] (S : Suite) (p : Party) (e : Evidence β) :
    Except SigningFault (Evidence β) :=
  p.mergers.zipIdx.foldlM (fun e (merger, index) => e.sign S index merger) e

end Party

/-- Parties with credits of one, two, three and again one merger, and so on. -/
def parties (count : Nat) : List Party :=
  (List.range count).map fun i => .numbered (UInt8.ofNat i + 10) (1 + i % 3)

/-- A transfer between two parties through one linker. -/
structure Transfer where
  linker : Seed
  payer : Party
  payee : Party

/-- The transfer between parties with the given numbers of mergers. -/
def transfer (payerMergers payeeMergers : Nat) : Transfer :=
  ⟨seed 255 0, .numbered 1 payerMergers, .numbered 2 payeeMergers⟩

namespace Transfer

/-- The evidences of both sides over bases made of the parties' proofs, fully co-signed. The
payer's side is the primary one. -/
def evidences {B : Type} [Base B] (S : Suite) (t : Transfer) (base : Proof → B) (point : Point) :
    Except SigningFault (LinkedEvidence B × LinkedEvidence B) := do
  let linker := S.publicKey t.linker
  let base1 := base (← t.payer.signedProof S point linker now)
  let base2 := base (← t.payee.signedProof S point linker now)
  let primary ← t.payer.cosign S (LinkedEvidence.of true now base1 base2)
  let secondary ← t.payee.cosign S (LinkedEvidence.of false now base1 base2)
  return (primary, secondary)

end Transfer

end Settlement.Fixture
