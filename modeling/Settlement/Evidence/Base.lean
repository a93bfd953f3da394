import Settlement.Proof.Verification

/-!
# Bases of a link

What two parties link: a proof, or a contract. A contract accounts part of a
whole amount to a proof and may be compacted to the proof's identifier; it is
signed by its hash and amounts alone, so compaction leaves every message as it
was. `Base` is what the rest of a settlement asks of either.
-/

namespace Settlement

/-- The proof of a contract, or what is left of it. -/
inductive ContractBody where
  | proof (p : Proof)
  | identifier (id : Identifier)
deriving DecidableEq

/-- A proof, or its identifier, with the amounts accounted to it. -/
structure Contract where
  body : ContractBody
  part : Point
  whole : Point
deriving DecidableEq

namespace Contract

/-- The contract of a proof with given amounts. -/
def ofProof (p : Proof) (part whole : Point) : Contract := ⟨.proof p, part, whole⟩

/-- The contract of a proof with the whole of its value, or nothing where it asserts none. -/
def wholeOf (p : Proof) : Contract :=
  let amount := (p.value?.map (·.point)).getD .zero
  ofProof p amount amount

/-- A contract that is compacted from the start. -/
def ofIdentifier (id : Identifier) (part whole : Point) : Contract := ⟨.identifier id, part, whole⟩

/-- The proof, if it has not been compacted. -/
def proof? (c : Contract) : Option Proof :=
  match c.body with
  | .proof p => some p
  | .identifier _ => none

/-- Whether the proof has been compacted. -/
def isStripped (c : Contract) : Bool := c.proof?.isNone

/-- The hash of the content: the proof with its signature, then both amounts. -/
def hash (S : Suite) (c : Contract) : Identifier :=
  match c.body with
  | .identifier id => id
  | .proof p =>
    .ofParts S [Signable.canonical S .full p, c.part.octets, c.whole.octets]

/-- The contract with its proof compacted. -/
def strip (S : Suite) (c : Contract) : Contract := ⟨.identifier (c.hash S), c.part, c.whole⟩

instance : Signable Contract where
  fields S c :=
    [.entity .contract,
     ⟨1, .signer, .bytes (c.hash S).octets⟩,
     ⟨2, .signer, .int c.part.units⟩,
     ⟨3, .signer, .int c.whole.units⟩]

/-- Checks that both amounts are in range and the part is no more than the whole. -/
def checkAmounts (c : Contract) : Except ValidationFault Unit :=
  if c.part.inRange && c.whole.inRange && c.part.units ≤ c.whole.units then .ok ()
  else .error (.amounts c.part c.whole)

/-- Checks the amounts, and of the proof what `check` checks. -/
def checkProof (c : Contract) (check : Proof → Except ValidationFault Unit) :
    Except ValidationFault Unit := do
  c.checkAmounts
  match c.proof? with
  | none => throw .missingProof
  | some p => check p

/-- Checks the amounts and the window of the proof. -/
def checkWindow (c : Contract) (o : Options) : Except ValidationFault Unit :=
  c.checkProof (·.checkWindow o)

/-- Checks the amounts and verifies the proof. -/
def verify (S : Suite) (c : Contract) (o : Options) : Except ValidationFault Unit :=
  c.checkProof (·.verify S o)

end Contract

/-- What an evidence or a linkage can be built over. -/
class Base (B : Type) extends Signable B where
  /-- The proof, if it is still there. -/
  proof? : B → Option Proof
  /-- Verifies the base itself. -/
  verify : Suite → B → Options → Except ValidationFault Unit

namespace Base

variable {B : Type} [Base B]

/-- The credit of the proof. -/
def credit? (b : B) : Option Credit := (proof? b).map Proof.credit

/-- The linker that the proof names. -/
def linker? (b : B) : Option PublicKey := (proof? b).bind Proof.linker?

end Base

instance : Base Proof where
  proof? := some
  verify S := Proof.verify S

instance : Base Contract where
  proof? := Contract.proof?
  verify S := Contract.verify S

end Settlement
