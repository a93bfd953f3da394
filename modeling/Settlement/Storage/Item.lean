import Settlement.Storage.Skip

/-!
# Reading the parts of stored values

Readers for the items that stored values are made of. Each is given the budget
for nesting and a head. Tags in front of an item are dropped, except in front
of an optional one, which is absent only at a bare null.
-/

namespace Settlement.Storage

/-- Reads an item, given the budget for nesting and the item's head. -/
abbrev ItemReader (α : Type) := Nat → Head → Reader α

namespace Reader

/-- Goes on with the significant octets of a big integer, at most sixteen. -/
def bigPiece : (piece : Octets) → (significant : Octets) → Except DecodeFault Octets
  | [], significant => .ok significant
  | b :: rest, significant =>
    if significant.length = 16 then .error .unexpected
    else if significant = [] ∧ b = 0 then bigPiece rest significant
    else bigPiece rest (significant ++ [b])

/-- The magnitude of a big integer: a byte string after its tag. -/
def magnitude : Reader Nat := do
  match ← head with
  | .bytes length =>
    let segment (n : Nat) (significant : Octets) : Reader Octets :=
      pieces (fun _ => 16) bigPiece n n significant
    Octets.ofBigEndian <$> segments Head.bytesLength? segment length []
  | _ => throw .unexpected

/-- An integer, at most `fuel` tags on. -/
def integerWithin : (fuel : Nat) → Head → Reader Int
  | 0, _ => throw .endOfInput
  | fuel + 1, h =>
    match h with
    | .unsigned n => pure n
    | .negative n => pure (-1 - n)
    | .tag 2 => Int.ofNat <$> magnitude
    | .tag 3 => (fun n => -1 - Int.ofNat n) <$> magnitude
    | .tag _ => do integerWithin fuel (← head)
    | _ => throw .unexpected

/-- An integer between two bounds. -/
def integerIn (low high : Int) (h : Head) : Reader Int := do
  let n ← fun o => integerWithin (o.length + 1) h o
  if low ≤ n ∧ n ≤ high then return n else throw .unexpected

/-- A signed integer of 64 bits. -/
def int64 : ItemReader Int64 := fun _ h =>
  Int64.ofInt <$> integerIn Int64.minValue.toInt Int64.maxValue.toInt h

/-- An unsigned integer of 64 bits. -/
def uint64 : ItemReader UInt64 := fun _ h =>
  (fun n => UInt64.ofNat n.toNat) <$> integerIn 0 0xffffffffffffffff h

/-- An unsigned integer of 8 bits. -/
def uint8 : ItemReader UInt8 := fun _ h =>
  (fun n => UInt8.ofNat n.toNat) <$> integerIn 0 255 h

/-- True or false. -/
def bool : ItemReader Bool := fun _ h => do
  match ← untag h with
  | .simple 20 => pure false
  | .simple 21 => pure true
  | _ => throw .unexpected

/-- A string of exactly `n` octets, or an array that begins with so many small integers. -/
def block (n : Nat) : ItemReader (Block n) := fun budget h => do
  let o ← match ← untag h with
    | .bytes (some length) => if length ≤ stringLimit then octets length else throw .unexpected
    | .array length => do
      let inner ← enter budget
      firstElements (uint8 inner) n length
    | _ => throw .unexpected
  match Block.ofOctets? n o with
  | some b => pure b
  | none => throw .unexpected

/-- Nothing at a null or an undefined value, otherwise an item. -/
def optional {α : Type} (item : ItemReader α) : ItemReader (Option α) := fun budget h =>
  match h with
  -- null and undefined; behind a tag neither is an absence
  | .simple 22 | .simple 23 => pure none
  | h => some <$> item budget h

/-- Any number of items. A byte string without octets is read as no items. -/
def list {α : Type} (item : ItemReader α) : ItemReader (List α) := fun budget h => do
  match ← untag h with
  | .array length =>
    let inner ← enter budget
    List.reverse <$> elements (fun h xs => (· :: xs) <$> item inner h) length []
  | .bytes length => if ← skipBytes length then throw .unexpected else pure []
  | _ => throw .unexpected

/-- The first `n` items of an array. -/
def exactly {α : Type} (n : Nat) (item : ItemReader α) : ItemReader (List α) := fun budget h => do
  match ← untag h with
  | .array length =>
    let inner ← enter budget
    firstElements (item inner) n length
  | .bytes length =>
    let _ ← skipBytes length
    throw .unexpected
  | _ => throw .unexpected

/-- A name: a text or byte string of stated length. -/
def name (h : Head) : Reader Octets := do
  match ← untag h with
  | .text (some length) =>
    if length ≤ stringLimit then
      let o ← octets length
      if Utf8.isValid o then pure o else throw .malformed
    else throw .unexpected
  | .bytes (some length) => if length ≤ stringLimit then octets length else throw .unexpected
  | _ => throw .unexpected

end Reader

end Settlement.Storage
