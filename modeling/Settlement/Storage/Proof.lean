import Settlement.Proof.Basic
import Settlement.Storage.Basic

/-!
# Stored proofs

The assertion is stored as an alternative, `Value`, `Signer` or `Credential`,
and the proof as a record around it. A proof without a signature member is
unsigned.
-/

namespace Settlement.Storage

/-- An assertion of a value of which some members have been read. -/
structure ValueAssertionDraft where
  value : Option Value := none
  linker : Option PublicKey := none

/-- The assertion of a full draft. -/
def ValueAssertionDraft.finish (d : ValueAssertionDraft) : Except DecodeFault Assertion :=
  return .value (← Reader.require d.value) (← Reader.require d.linker)

/-- Reads the content of an assertion of a value. -/
def readValueAssertion (S : Suite) : ItemReader Assertion :=
  Reader.record
    [.of "value" ValueAssertionDraft.value (fun d x => { d with value := some x }) (Stored.read S),
     .of "linker_public_key" ValueAssertionDraft.linker (fun d x => { d with linker := some x })
      (Stored.read S)]
    {} ValueAssertionDraft.finish

/-- An assertion with a signer slot of which some members have been read. -/
structure SignerAssertionDraft where
  value : Option Value := none
  slot : Option UInt8 := none
  linker : Option PublicKey := none

/-- The assertion of a full draft. -/
def SignerAssertionDraft.finish (d : SignerAssertionDraft) : Except DecodeFault Assertion :=
  return .signer (← Reader.require d.value) (← Reader.require d.slot) (← Reader.require d.linker)

/-- Reads the content of an assertion with a signer slot. -/
def readSignerAssertion (S : Suite) : ItemReader Assertion :=
  Reader.record
    [.of "value" SignerAssertionDraft.value (fun d x => { d with value := some x }) (Stored.read S),
     .of "signer" SignerAssertionDraft.slot (fun d x => { d with slot := some x }) Reader.uint8,
     .of "linker_public_key" SignerAssertionDraft.linker (fun d x => { d with linker := some x })
      (Stored.read S)]
    {} SignerAssertionDraft.finish

/-- A credential of which some members have been read. -/
structure CredentialDraft where
  credit : Option Credit := none
  subject : Option PublicKey := none
  index : Option UInt8 := none

/-- The credential of a full draft. -/
def CredentialDraft.finish (d : CredentialDraft) : Except DecodeFault Assertion :=
  return .credential (← Reader.require d.credit) (← Reader.require d.subject)
    (← Reader.require d.index)

/-- Reads the content of a credential. -/
def readCredential (S : Suite) : ItemReader Assertion :=
  Reader.record
    [.of "credit" CredentialDraft.credit (fun d x => { d with credit := some x }) (Stored.read S),
     .of "subject" CredentialDraft.subject (fun d x => { d with subject := some x })
      (Stored.read S),
     .of "merger_index" CredentialDraft.index (fun d x => { d with index := some x }) Reader.uint8]
    {} CredentialDraft.finish

instance : Stored Assertion where
  cbor
    | .value v linker =>
      alternativeCbor "Value"
        (recordCbor [("value", Stored.cbor v), ("linker_public_key", Stored.cbor linker)])
    | .signer v slot linker =>
      alternativeCbor "Signer"
        (recordCbor
          [("value", Stored.cbor v), ("signer", .uint slot.toUInt64),
           ("linker_public_key", Stored.cbor linker)])
    | .credential c subject index =>
      alternativeCbor "Credential"
        (recordCbor
          [("credit", Stored.cbor c), ("subject", Stored.cbor subject),
           ("merger_index", .uint index.toUInt64)])
  read S :=
    Reader.oneOf
      [("Value", readValueAssertion S), ("Signer", readSignerAssertion S),
       ("Credential", readCredential S)]

/-- A proof of which some members have been read. -/
structure ProofDraft where
  assertion : Option Assertion := none
  signedMics : Option Mics := none
  expirationMics : Option Mics := none
  signature : Option (Option Signature) := none

/-- The proof of a full draft. -/
def ProofDraft.finish (d : ProofDraft) : Except DecodeFault Proof :=
  return {
    assertion := ← Reader.require d.assertion
    signedMics := ← Reader.require d.signedMics
    expirationMics := ← Reader.require d.expirationMics
    signature := d.signature.join }

instance : Marked Proof where
  cbor p :=
    recordCbor
      [("kind", Stored.cbor p.assertion), ("signed_mics", .int p.signedMics),
       ("expiration_mics", .int p.expirationMics),
       ("signature", optionCbor Stored.cbor p.signature)]
  read S :=
    Reader.record
      [.of "kind" ProofDraft.assertion (fun d x => { d with assertion := some x }) (Stored.read S),
       .of "signed_mics" ProofDraft.signedMics (fun d x => { d with signedMics := some x })
        Reader.int64,
       .of "expiration_mics" ProofDraft.expirationMics
        (fun d x => { d with expirationMics := some x }) Reader.int64,
       .of "signature" ProofDraft.signature (fun d x => { d with signature := some x })
        (Reader.optional (Stored.read S))]
      {} ProofDraft.finish
  mark := 'P'

end Settlement.Storage
