import Settlement.Linkage.Basic
import Settlement.Storage.Proof

/-!
# Stored contracts, evidences and linkages

The body of a contract is stored as an alternative, `Proof` or `Identifier`.
Evidences and linkages are stored over any base that is stored itself.
-/

namespace Settlement.Storage

instance : Stored ContractBody where
  cbor
    | .proof p => alternativeCbor "Proof" (Stored.cbor p)
    | .identifier id => alternativeCbor "Identifier" (Stored.cbor id)
  read S :=
    Reader.oneOf
      [("Proof", fun budget h => .proof <$> Stored.read S budget h),
       ("Identifier", fun budget h => .identifier <$> Stored.read S budget h)]

/-- A contract of which some members have been read. -/
structure ContractDraft where
  body : Option ContractBody := none
  part : Option Point := none
  whole : Option Point := none

/-- The contract of a full draft. -/
def ContractDraft.finish (d : ContractDraft) : Except DecodeFault Contract :=
  return {
    body := ← Reader.require d.body
    part := ← Reader.require d.part
    whole := ← Reader.require d.whole }

instance : Stored Contract where
  cbor c :=
    recordCbor
      [("body", Stored.cbor c.body), ("partial", Stored.cbor c.part),
       ("total", Stored.cbor c.whole)]
  read S :=
    Reader.record
      [.of "body" ContractDraft.body (fun d x => { d with body := some x }) (Stored.read S),
       .of "partial" ContractDraft.part (fun d x => { d with part := some x }) (Stored.read S),
       .of "total" ContractDraft.whole (fun d x => { d with whole := some x }) (Stored.read S)]
      {} ContractDraft.finish

instance : Stored MergerSignatures where
  cbor s := .array (s.slots.map (optionCbor Stored.cbor))
  read S budget h := do
    let slots ← Reader.exactly maxMergers (Reader.optional (Stored.read S)) budget h
    if h : slots.length = maxMergers then return ⟨slots, h⟩ else throw .unexpected

/-- An evidence of a single proof of which some members have been read. -/
structure ProofEvidenceDraft where
  proof : Option Proof := none
  signatures : Option MergerSignatures := none

/-- The evidence of a full draft. -/
def ProofEvidenceDraft.finish (d : ProofEvidenceDraft) : Except DecodeFault ProofEvidence :=
  return ⟨⟨← Reader.require d.proof⟩, ← Reader.require d.signatures⟩

instance : Stored ProofEvidence where
  cbor e :=
    recordCbor
      [("proof", Stored.cbor e.body.proof), ("merger_signatures", Stored.cbor e.signatures)]
  read S :=
    Reader.record
      [.of "proof" ProofEvidenceDraft.proof (fun d x => { d with proof := some x })
        (Stored.read S),
       .of "merger_signatures" ProofEvidenceDraft.signatures
        (fun d x => { d with signatures := some x }) (Stored.read S)]
      {} ProofEvidenceDraft.finish

variable {B : Type} [Stored B]

/-- One side of a link of which some members have been read. -/
structure LinkedEvidenceDraft (B : Type) where
  isPrimary : Option Bool := none
  linkedMics : Option Mics := none
  base1 : Option B := none
  base2 : Option B := none
  signatures : Option MergerSignatures := none

/-- The side of a full draft. -/
def LinkedEvidenceDraft.finish (d : LinkedEvidenceDraft B) :
    Except DecodeFault (LinkedEvidence B) := do
  let isPrimary ← Reader.require d.isPrimary
  let linkedMics ← Reader.require d.linkedMics
  let base1 ← Reader.require d.base1
  let base2 ← Reader.require d.base2
  return ⟨⟨isPrimary, linkedMics, base1, base2⟩, ← Reader.require d.signatures⟩

instance : Stored (LinkedEvidence B) where
  cbor e :=
    recordCbor
      [("is_primary", .bool e.body.isPrimary), ("linked_mics", .int e.body.link.linkedMics),
       ("base1", Stored.cbor e.body.link.base1), ("base2", Stored.cbor e.body.link.base2),
       ("merger_signatures", Stored.cbor e.signatures)]
  read S :=
    Reader.record
      [.of "is_primary" LinkedEvidenceDraft.isPrimary (fun d x => { d with isPrimary := some x })
        Reader.bool,
       .of "linked_mics" LinkedEvidenceDraft.linkedMics
        (fun d x => { d with linkedMics := some x }) Reader.int64,
       .of "base1" LinkedEvidenceDraft.base1 (fun d x => { d with base1 := some x })
        (Stored.read S),
       .of "base2" LinkedEvidenceDraft.base2 (fun d x => { d with base2 := some x })
        (Stored.read S),
       .of "merger_signatures" LinkedEvidenceDraft.signatures
        (fun d x => { d with signatures := some x }) (Stored.read S)]
      {} LinkedEvidenceDraft.finish

/-- A linkage of which some members have been read. -/
structure LinkageDraft (B : Type) where
  linkedMics : Option Mics := none
  base1 : Option B := none
  base2 : Option B := none
  primarySignatures : Option MergerSignatures := none
  secondarySignatures : Option MergerSignatures := none
  linkerSignature : Option (Option Signature) := none

/-- The linkage of a full draft. -/
def LinkageDraft.finish (d : LinkageDraft B) : Except DecodeFault (Linkage B) := do
  let linkedMics ← Reader.require d.linkedMics
  let base1 ← Reader.require d.base1
  let base2 ← Reader.require d.base2
  let primarySignatures ← Reader.require d.primarySignatures
  let secondarySignatures ← Reader.require d.secondarySignatures
  return ⟨⟨linkedMics, base1, base2⟩, primarySignatures, secondarySignatures,
    d.linkerSignature.join⟩

instance : Marked (Linkage B) where
  cbor l :=
    recordCbor
      [("linked_mics", .int l.link.linkedMics), ("base1", Stored.cbor l.link.base1),
       ("base2", Stored.cbor l.link.base2),
       ("primary_signatures", Stored.cbor l.primarySignatures),
       ("secondary_signatures", Stored.cbor l.secondarySignatures),
       ("linker_signature", optionCbor Stored.cbor l.linkerSignature)]
  read S :=
    Reader.record
      [.of "linked_mics" LinkageDraft.linkedMics (fun d x => { d with linkedMics := some x })
        Reader.int64,
       .of "base1" LinkageDraft.base1 (fun d x => { d with base1 := some x }) (Stored.read S),
       .of "base2" LinkageDraft.base2 (fun d x => { d with base2 := some x }) (Stored.read S),
       .of "primary_signatures" LinkageDraft.primarySignatures
        (fun d x => { d with primarySignatures := some x }) (Stored.read S),
       .of "secondary_signatures" LinkageDraft.secondarySignatures
        (fun d x => { d with secondarySignatures := some x }) (Stored.read S),
       .of "linker_signature" LinkageDraft.linkerSignature
        (fun d x => { d with linkerSignature := some x }) (Reader.optional (Stored.read S))]
      {} LinkageDraft.finish
  mark := 'L'

end Settlement.Storage
