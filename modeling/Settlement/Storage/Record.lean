import Settlement.Storage.Item

/-!
# Records and alternatives

A record is stored as a map from the names of its members to their values and
read member by member into a draft, in whatever order they come. An
alternative is stored as a map of one entry, from its name to its content.
-/

namespace Settlement.Storage

/-- A member of a record that is read into a draft of type `δ`. -/
structure Member (δ : Type) where
  name : String
  /-- Reads the member's value into the draft. -/
  read : Nat → δ → Reader δ

namespace Member

variable {δ α : Type}

/-- The member that a draft holds at one place. A second value for the place is refused before it
is read. -/
def of (name : String) (get : δ → Option α) (set : δ → α → δ) (item : ItemReader α) : Member δ where
  name := name
  read budget d := do
    if (get d).isSome then throw .unexpected
    let h ← Reader.head
    return set d (← item budget h)

end Member

namespace Reader

variable {δ α : Type}

/-- One entry of a record: a member's name and value, or an unknown name and any value. -/
def entry (members : List (Member δ)) (budget : Nat) (h : Head) (d : δ) : Reader δ := do
  let key ← name h
  match members.find? (fun m => Cbor.utf8 m.name = key) with
  | some m => m.read budget d
  -- an unknown member is dropped, and its value need only be well formed
  | none =>
    skip budget (← head)
    return d

/-- A record: its entries are read into a draft, from which `finish` makes the value. -/
def record (members : List (Member δ)) (empty : δ) (finish : δ → Except DecodeFault α) :
    ItemReader α := fun budget h => do
  match ← untag h with
  | .map length =>
    let inner ← enter budget
    finish (← elements (entry members inner) length empty)
  | _ => throw .unexpected

/-- The part of a draft that a record cannot do without. -/
def require : Option α → Except DecodeFault α
  | some x => .ok x
  | none => .error .unexpected

/-- The content of the alternative with the given name. -/
def content (alternatives : List (String × ItemReader α)) (budget : Nat) (key : Octets) :
    Reader α := do
  match alternatives.find? (fun a => Cbor.utf8 a.1 = key) with
  | some a =>
    let h ← head
    a.2 budget h
  | none => throw .unexpected

/-- One of several alternatives. A name without a map around it takes the next item as content. -/
def oneOf (alternatives : List (String × ItemReader α)) : ItemReader α := fun budget h => do
  match ← untag h with
  | .map (some 1) =>
    let inner ← enter budget
    content alternatives inner (← name (← head))
  -- the head of the bare name has been read already
  | .text length =>
    let inner ← enter budget
    content alternatives inner (← name (.text length))
  | _ => throw .unexpected

end Reader

/-- A record as it is stored. -/
def recordCbor (members : List (String × Cbor)) : Cbor :=
  .map (members.map fun (name, value) => (.text name, value))

/-- An alternative as it is stored. -/
def alternativeCbor (name : String) (content : Cbor) : Cbor := .map [(.text name, content)]

end Settlement.Storage
