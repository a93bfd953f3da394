import Settlement.Storage.Record
import Settlement.Account.Value

/-!
# Stored values

The form in which values are kept and sent: with every member, signatures too,
in a fixed order. Reading starts at the front and leaves what follows the
value. A value may also be written as text: a mark and the stored octets in
base64url.
-/

namespace Settlement

/-- A type whose values are stored. -/
class Stored (α : Type) where
  /-- The value as it is stored. -/
  cbor : α → Cbor
  /-- Reads a stored value. -/
  read : Suite → Storage.ItemReader α

/-- A stored type that has a text form, told apart from others by its mark. -/
class Marked (α : Type) extends Stored α where
  mark : Char

namespace Stored

variable {α : Type} [Stored α]

/-- The octets that store a value. -/
def octets (x : α) : Octets := (cbor x).encode

/-- The value stored at the front of octets. -/
def ofOctets (S : Suite) (o : Octets) : Except DataFault α :=
  let reader : Storage.Reader α := do
    let h ← Storage.Reader.head
    read S Storage.depthLimit h
  match reader o with
  | .ok (x, _) => .ok x
  | .error fault => .error (.decoding fault)

end Stored

namespace Marked

variable {α : Type} [Marked α]

/-- The symbols of the text form. -/
def symbols (x : α) : List Char := mark α :: Base64Url.encode (Stored.octets x)

/-- The text form. -/
def text (x : α) : String := String.ofList (symbols x)

/-- Reads the text form. -/
def ofSymbols (S : Suite) (cs : List Char) : Except DataFault α :=
  match cs with
  | [] => .error (.text (.unmarked (mark α)))
  | c :: rest =>
    if c = mark α then do
      let o ← (Base64Url.decode rest).mapError (.text ∘ .symbols)
      Stored.ofOctets S o
    else .error (.text (.unmarked (mark α)))

/-- Reads the text form of a value. -/
def parse (S : Suite) (s : String) : Except DataFault α := ofSymbols S s.toList

end Marked

namespace Storage

variable {α : Type}

/-- A value or its absence as it is stored. -/
def optionCbor (cbor : α → Cbor) : Option α → Cbor
  | some x => cbor x
  | none => .null

instance : Stored PublicKey where
  cbor k := .bytes k.octets
  read _ budget h := PublicKey.mk <$> Reader.block 32 budget h

instance : Stored Signature where
  cbor s := .bytes s.octets
  read _ budget h := Signature.mk <$> Reader.block 64 budget h

instance : Stored Identifier where
  cbor i := .bytes i.octets
  read _ budget h := Identifier.mk <$> Reader.block 32 budget h

instance : Stored Point where
  cbor p := .int p.units
  read _ budget h := Point.mk <$> Reader.int64 budget h

/-- A credit of which some members have been read. -/
structure CreditDraft where
  originator : Option PublicKey := none
  mergers : Option (List PublicKey) := none

/-- The credit of a full draft, if it is well formed. -/
def CreditDraft.finish (S : Suite) (d : CreditDraft) : Except DecodeFault Credit := do
  let originator ← Reader.require d.originator
  let mergers ← Reader.require d.mergers
  (Credit.of S originator mergers).mapError .model

instance : Stored Credit where
  cbor c :=
    recordCbor
      [("originator", Stored.cbor c.originator),
       ("mergers", .array (c.mergers.map Stored.cbor))]
  read S :=
    Reader.record
      [.of "originator" CreditDraft.originator (fun d x => { d with originator := some x })
        (Stored.read S),
       .of "mergers" CreditDraft.mergers (fun d x => { d with mergers := some x })
        (Reader.list (Stored.read S))]
      {} (CreditDraft.finish S)

/-- A value of which some members have been read. -/
structure ValueDraft where
  owner : Option PublicKey := none
  point : Option Point := none
  credit : Option Credit := none

/-- The value of a full draft, if it is well formed. -/
def ValueDraft.finish (S : Suite) (d : ValueDraft) : Except DecodeFault Value := do
  let owner ← Reader.require d.owner
  let point ← Reader.require d.point
  let credit ← Reader.require d.credit
  (Value.of S owner point credit).mapError .model

instance : Stored Value where
  cbor v :=
    recordCbor
      [("owner", Stored.cbor v.owner), ("point", Stored.cbor v.point),
       ("credit", Stored.cbor v.credit)]
  read S :=
    Reader.record
      [.of "owner" ValueDraft.owner (fun d x => { d with owner := some x }) (Stored.read S),
       .of "point" ValueDraft.point (fun d x => { d with point := some x }) (Stored.read S),
       .of "credit" ValueDraft.credit (fun d x => { d with credit := some x }) (Stored.read S)]
      {} (ValueDraft.finish S)

end Storage

end Settlement
