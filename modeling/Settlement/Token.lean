import Settlement.Proof.Fault
import Settlement.Storage.Basic

/-!
# Owner tokens

A token proves to the peer on one connection that its sender holds a key. The
signed message covers the connection's context, which the token does not
carry, so a token is of no use on another connection.
-/

namespace Settlement

/-- A key's signature over an instant, a salt, a credit and a connection's context. -/
structure OwnerToken where
  publicKey : PublicKey
  signature : Signature
  signedMics : Mics
  salt : UInt64
  credit : Option Credit
deriving DecidableEq

namespace OwnerToken

instance : Signable OwnerToken where
  fields S t :=
    [.entity .ownerToken,
     ⟨1, .signer, t.publicKey.cbor⟩,
     ⟨2, .signer, .int t.signedMics⟩,
     ⟨3, .signer, .uint t.salt⟩] ++
    (match t.credit with
      | some c => [⟨4, .signer, Signable.record S .full c⟩]
      | none => []) ++
    [⟨15, .full, .bytes t.signature.octets⟩]

/-- The message that the owner signs on a connection with the given context. -/
def ownerMessage (S : Suite) (t : OwnerToken) (context : Octets) : Octets :=
  signedMessage .signer
    (Field.record .signer (Signable.fields S t ++ [⟨5, .signer, .bytes context⟩]))

/-- The token of a seed's holder for a connection with the given context. -/
def sign (S : Suite) (seed : Seed) (context : Octets) (credit : Option Credit) (now : Mics)
    (salt : UInt64) : OwnerToken :=
  let blank : OwnerToken := ⟨S.publicKey seed, .zero, now, salt, credit⟩
  { blank with signature := S.sign seed (blank.ownerMessage S context) }

/-- Whether the token says when it was signed. -/
def isDated (t : OwnerToken) : Bool := t.signedMics ≠ 0

/-- Checks the date and the signature on a connection with the given context. -/
def verify (S : Suite) (t : OwnerToken) (context : Octets) : Except ValidationFault Unit :=
  if !t.isDated then .error .unsigned
  else if t.publicKey.accepts S (t.ownerMessage S context) t.signature then .ok ()
  else .error .signatureFailed

end OwnerToken

namespace Storage

/-- A token of which some members have been read. -/
structure OwnerTokenDraft where
  publicKey : Option PublicKey := none
  signature : Option Signature := none
  signedMics : Option Mics := none
  salt : Option UInt64 := none
  credit : Option (Option Credit) := none

/-- The token of a full draft. -/
def OwnerTokenDraft.finish (d : OwnerTokenDraft) : Except DecodeFault OwnerToken :=
  return {
    publicKey := ← Reader.require d.publicKey
    signature := ← Reader.require d.signature
    signedMics := ← Reader.require d.signedMics
    salt := ← Reader.require d.salt
    credit := d.credit.join }

instance : Marked OwnerToken where
  cbor t :=
    recordCbor
      [("public_key", Stored.cbor t.publicKey), ("signature", Stored.cbor t.signature),
       ("signed_mics", .int t.signedMics), ("salt", .uint t.salt),
       ("credit", optionCbor Stored.cbor t.credit)]
  read S :=
    Reader.record
      [.of "public_key" OwnerTokenDraft.publicKey (fun d x => { d with publicKey := some x })
        (Stored.read S),
       .of "signature" OwnerTokenDraft.signature (fun d x => { d with signature := some x })
        (Stored.read S),
       .of "signed_mics" OwnerTokenDraft.signedMics (fun d x => { d with signedMics := some x })
        Reader.int64,
       .of "salt" OwnerTokenDraft.salt (fun d x => { d with salt := some x }) Reader.uint64,
       .of "credit" OwnerTokenDraft.credit (fun d x => { d with credit := some x })
        (Reader.optional (Stored.read S))]
      {} OwnerTokenDraft.finish
  mark := 'O'

end Storage

end Settlement
