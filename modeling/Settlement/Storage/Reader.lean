import Settlement.Cbor.Basic
import Settlement.Data.Fault

/-!
# Reading items from octets

A reader takes what it needs from the front of the octets and leaves the rest.
An item starts with a head; readers of items are given a head that has already
been read, so that a caller can look at it first.

Nesting is limited: `enter` takes one from a budget that is handed down to the
items inside.
-/

namespace Settlement.Storage

/-- Takes a value from the front of the octets, or says why it cannot. -/
abbrev Reader := StateT Octets (Except DecodeFault)

/-- The head of an item. A length may be left open; the item then ends at a stop. -/
inductive Head where
  | unsigned (n : Nat)
  /-- The integer `-1 - n`. -/
  | negative (n : Nat)
  | bytes (length : Option Nat)
  | text (length : Option Nat)
  | array (length : Option Nat)
  | map (length : Option Nat)
  | tag (number : Nat)
  | simple (number : Nat)
  /-- A float of any width; its bits are of no use to any reader. -/
  | float
  /-- The end of an item of open length. -/
  | stop
deriving DecidableEq, Repr

/-- The deepest nesting that is read. -/
def depthLimit : Nat := 256

/-- The longest string that is read as a key, a name or a fixed-size value. -/
def stringLimit : Nat := 4096

namespace Reader

/-- The next `n` octets. Only these are counted, not all that follows them. -/
def octets (n : Nat) : Reader Octets := fun o =>
  let front := o.take n
  if front.length = n then .ok (front, o.drop n) else .error .endOfInput

/-- What stands in front is read, and what follows is left. -/
theorem octets_append (a rest : Octets) : octets a.length (a ++ rest) = .ok (a, rest) := by
  simp [octets]

/-- The next octet. -/
def octet : Reader UInt8 := fun
  | [] => .error .endOfInput
  | b :: rest => .ok (b, rest)

/-- A number of the given width. -/
def number (width : Nat) : Reader Nat := Octets.ofBigEndian <$> octets width

/-- The argument of a head with the given five bits, or none for an open length. -/
def argument (info : Nat) : Reader (Option Nat) :=
  if info < 24 then pure (some info)
  else if info = 24 then some <$> number 1
  else if info = 25 then some <$> number 2
  else if info = 26 then some <$> number 4
  else if info = 27 then some <$> number 8
  else if info = 31 then pure none
  else throw .malformed

/-- The head that a major type, its five bits and its argument make. -/
def headOf (major : Cbor.Major) (info : Nat) : Option Nat → Except DecodeFault Head
  | some n =>
    match major with
    | .unsigned => .ok (.unsigned n)
    | .negative => .ok (.negative n)
    | .bytes => .ok (.bytes (some n))
    | .text => .ok (.text (some n))
    | .array => .ok (.array (some n))
    | .map => .ok (.map (some n))
    | .tag => .ok (.tag n)
    | .simple => .ok (if info ≤ 24 then .simple n else .float)
  | none =>
    match major with
    | .bytes => .ok (.bytes none)
    | .text => .ok (.text none)
    | .array => .ok (.array none)
    | .map => .ok (.map none)
    | .simple => .ok .stop
    | .unsigned | .negative | .tag => .error .malformed

/-- The next head, in full. -/
def head : Reader Head := do
  let b ← octet
  let info := b.toNat % 32
  headOf (.ofCode (b.toNat / 32)) info (← argument info)

/-- The budget left inside an item that nests. -/
def enter : Nat → Reader Nat
  | 0 => throw .tooDeep
  | budget + 1 => pure budget

/-- The first head that is no tag, at most `fuel` tags on. -/
def untagWithin : (fuel : Nat) → Head → Reader Head
  | 0, _ => throw .endOfInput
  | fuel + 1, .tag _ => do untagWithin fuel (← head)
  | _ + 1, h => pure h

/-- The first head that is no tag; a tag takes at least one octet. -/
def untag : Head → Reader Head
  | .tag number => fun o => untagWithin (o.length + 1) (.tag number) o
  | h => pure h

variable {δ : Type}

/-- Runs `step` for each of `count` elements. -/
def times (step : Head → δ → Reader δ) : (count : Nat) → δ → Reader δ
  | 0, d => pure d
  | count + 1, d => do times step count (← step (← head) d)

/-- Runs `step` for each element up to a stop, for at most `fuel` heads. -/
def untilStop (step : Head → δ → Reader δ) : (fuel : Nat) → δ → Reader δ
  | 0, _ => throw .endOfInput
  | fuel + 1, d => do
    match ← head with
    | .stop => pure d
    | h => untilStop step fuel (← step h d)

/-- Runs `step` for each element of an item of the given length. -/
def elements (step : Head → δ → Reader δ) : (length : Option Nat) → δ → Reader δ
  | some count, d => times step count d
  | none, d => fun o => untilStop step (o.length + 1) d o

/-- The first `count` elements of an item. What the item holds beyond them stays unread. -/
def firstElements {α : Type} (item : Head → Reader α) : (count : Nat) → (length : Option Nat) →
    Reader (List α)
  | 0, _ => pure []
  | _ + 1, some 0 => throw .unexpected
  | count + 1, some (left + 1) => do
    let x ← item (← head)
    return x :: (← firstElements item count (some left))
  | count + 1, none => do
    match ← head with
    | .stop => throw .unexpected
    | h =>
      let x ← item h
      return x :: (← firstElements item count none)

/-- Runs `segment` for each segment of a string of open length, `nested` levels within it. -/
def openSegments (lengthOf : Head → Option (Option Nat)) (segment : Nat → δ → Reader δ) :
    (fuel : Nat) → (nested : Nat) → δ → Reader δ
  | 0, _, _ => throw .endOfInput
  | fuel + 1, nested, d => do
    match ← head with
    | .stop => if nested = 0 then pure d else openSegments lengthOf segment fuel (nested - 1) d
    | h =>
      match lengthOf h with
      | none => throw .malformed
      | some none => openSegments lengthOf segment fuel (nested + 1) d
      | some (some n) => do openSegments lengthOf segment fuel nested (← segment n d)

/-- Runs `segment` for each segment of a string. -/
def segments (lengthOf : Head → Option (Option Nat)) (segment : Nat → δ → Reader δ) :
    (length : Option Nat) → δ → Reader δ
  | some n, d => segment n d
  | none, d => fun o => openSegments lengthOf segment (o.length + 1) 0 d o

/-- Reads `n` octets in pieces, each as long as `room` allows, and runs `step` for each piece. -/
def pieces (room : δ → Nat) (step : Octets → δ → Except DecodeFault δ) : (fuel : Nat) → (n : Nat) →
    δ → Reader δ
  | 0, _, d => pure d
  | fuel + 1, n, d =>
    if n = 0 then pure d
    else do
      let size := min (room d) n
      let piece ← octets size
      pieces room step fuel (n - size) (← step piece d)

end Reader

/-- The length in a byte string's head. -/
def Head.bytesLength? : Head → Option (Option Nat)
  | .bytes length => some length
  | _ => none

/-- The length in a text's head. -/
def Head.textLength? : Head → Option (Option Nat)
  | .text length => some length
  | _ => none

end Settlement.Storage
