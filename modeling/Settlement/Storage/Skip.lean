import Settlement.Storage.Reader
import Settlement.Text.Utf8

/-!
# Skipping items

An item under an unknown name is read to its end and dropped. It has to be
well formed, and nested no deeper than the budget.
-/

namespace Settlement.Storage.Reader

/-- The least magnitude, `2 ^ 127`, that is too large for a short negative big integer. -/
def negativeLimit : Nat := 0x80000000000000000000000000000000

/-- Reads a byte string whose head has been read and drops it; true if it held any octet. -/
def skipBytes (length : Option Nat) : Reader Bool :=
  segments Head.bytesLength? (fun n filled => do
    let _ ← octets n
    return filled || 0 < n) length false

/-- Goes on with a text after `carry`, the start of a character that is not whole yet. -/
def textPiece (piece carry : Octets) : Except DecodeFault Octets :=
  let left := Utf8.dropChars (carry ++ piece)
  if 3 < left.length then .error .malformed else .ok left

/-- Reads a segment of a text, which has to hold whole characters, and drops it. Long segments
are looked at in pieces, so an early fault is found although the segment's end is missing. -/
def skipTextSegment (n : Nat) : Reader Unit := do
  let carry ← pieces (fun carry : Octets => stringLimit - carry.length) textPiece n n []
  if carry ≠ [] then throw .malformed

/-- Reads a text whose head has been read and drops it. -/
def skipText (length : Option Nat) : Reader Unit :=
  segments Head.textLength? (fun n _ => skipTextSegment n) length ()

/-- Drops an item that nests, given the reader of items inside it, if any is in the budget. -/
def skipWithin (inner : Option (Head → Reader Unit)) : Head → Reader Unit
  | .unsigned _ | .negative _ | .float => pure ()
  | .simple n => if 20 ≤ n ∧ n ≤ 23 then pure () else throw .unexpected
  | .stop => throw .unexpected
  | .bytes length => do
    let _ ← skipBytes length
  | .text length => skipText length
  | .array length => do
    let item ← inside inner
    elements (fun h _ => item h) length ()
  | .map length => do
    let item ← inside inner
    elements (fun h _ => do
      item h
      item (← head)) length ()
  | .tag number => do
    let h ← head
    match h with
    | .bytes (some n) =>
      -- a short big integer is an item by itself and nests nothing
      if (number = 2 ∨ number = 3) ∧ n ≤ 16 then
        let magnitude ← Octets.ofBigEndian <$> octets n
        if number = 3 ∧ negativeLimit ≤ magnitude then throw .unexpected
      else (← inside inner) h
    | h => (← inside inner) h
where
  /-- The reader of items inside, which the budget has to allow. -/
  inside : Option (Head → Reader Unit) → Reader (Head → Reader Unit)
    | none => throw .tooDeep
    | some item => pure item

/-- Reads an item whose head has been read and drops it. -/
def skip : (budget : Nat) → Head → Reader Unit
  | 0 => skipWithin none
  | budget + 1 => skipWithin (some (skip budget))

end Settlement.Storage.Reader
