import Settlement.Octets.Basic

/-!
# Base64url without padding

Three octets are written as four symbols of the URL-safe alphabet; one or two
last octets as two or three symbols, with no padding after them. Reading
refuses padding and unused bits that are not zero, so an octet string has one
written form. A fault names the octet of the UTF-8 text at which it lies.
-/

namespace Settlement.Base64Url

/-- Why a text is not the base64url form of any octets. -/
inductive Fault where
  /-- An octet that is no symbol of the alphabet, or a pad where none may stand. -/
  | invalidSymbol (octet : UInt8) (offset : Nat)
  /-- The last group holds a single symbol; `length` counts the text up to its end. -/
  | invalidLength (length : Nat)
  /-- The text is padded. -/
  | padded
  /-- The last symbol carries bits that belong to no octet. -/
  | unusedBits (octet : UInt8) (offset : Nat)
deriving DecidableEq, Repr

/-- The wording of a fault. -/
def Fault.message : Fault → String
  | .invalidSymbol octet offset => s!"Invalid symbol {octet}, offset {offset}."
  | .invalidLength length => s!"Invalid input length: {length}"
  | .padded => "Invalid padding"
  | .unusedBits octet offset => s!"Invalid last symbol {octet}, offset {offset}."

/-- The symbol of a number below sixty-four. -/
def symbol (n : Nat) : Char :=
  if n < 26 then Char.ofNat ('A'.toNat + n)
  else if n < 52 then Char.ofNat ('a'.toNat + (n - 26))
  else if n < 62 then Char.ofNat ('0'.toNat + (n - 52))
  else if n = 62 then '-'
  else '_'

/-- The number a symbol stands for, given the symbol's octet. -/
def symbolValue? (b : UInt8) : Option Nat :=
  if 65 ≤ b ∧ b ≤ 90 then some (b.toNat - 65)
  else if 97 ≤ b ∧ b ≤ 122 then some (b.toNat - 97 + 26)
  else if 48 ≤ b ∧ b ≤ 57 then some (b.toNat - 48 + 52)
  else if b = 45 then some 62
  else if b = 95 then some 63
  else none

/-- The octet of the padding symbol, which this form never uses. -/
def pad : UInt8 := 61

/-- The symbols of an octet string. -/
def encode : Octets → List Char
  | [] => []
  | [a] => [symbol (a.toNat / 4), symbol (a.toNat % 4 * 16)]
  | [a, b] =>
    [symbol (a.toNat / 4), symbol (a.toNat % 4 * 16 + b.toNat / 16), symbol (b.toNat % 16 * 4)]
  | a :: b :: c :: rest =>
    symbol (a.toNat / 4) :: symbol (a.toNat % 4 * 16 + b.toNat / 16) ::
      symbol (b.toNat % 16 * 4 + c.toNat / 64) :: symbol (c.toNat % 64) :: encode rest

/-- The values of symbols that start at `offset`; the first octet outside the alphabet is the fault. -/
def symbolValues (offset : Nat) : Octets → Except Fault (List Nat)
  | [] => .ok []
  | b :: rest =>
    match symbolValue? b with
    | none => .error (.invalidSymbol b offset)
    | some v => do
      let vs ← symbolValues (offset + 1) rest
      return v :: vs

/-- The octets that up to four symbol values carry, and the bits left over. -/
def groupOctets : List Nat → Octets × Nat
  | [a, b, c, d] =>
    ([UInt8.ofNat (a * 4 + b / 16), UInt8.ofNat (b % 16 * 16 + c / 4),
      UInt8.ofNat (c % 4 * 64 + d)], 0)
  | [a, b, c] => ([UInt8.ofNat (a * 4 + b / 16), UInt8.ofNat (b % 16 * 16 + c / 4)], c % 4)
  | [a, b] => ([UInt8.ofNat (a * 4 + b / 16)], b % 16)
  | _ => ([], 0)

/-- Reads the last one to four octets of a text, the only ones among which a pad is told apart
from other octets outside the alphabet. -/
def decodeLast (offset : Nat) (group : Octets) : Except Fault Octets := do
  let symbols := group.takeWhile (· ≠ pad)
  let pads := group.dropWhile (· ≠ pad)
  let values ← symbolValues offset symbols
  -- a pad may neither come too early nor be followed by anything else
  if pads ≠ [] ∧ (symbols.length < 2 ∨ pads.any (· ≠ pad)) then
    throw (.invalidSymbol pad (offset + symbols.length))
  if symbols.length < 2 then
    throw (.invalidLength (offset + symbols.length))
  if pads ≠ [] then
    throw .padded
  -- a second spelling of the same octets would be one with other unused bits
  let (octets, unused) := groupOctets values
  if unused ≠ 0 then
    throw (.unusedBits (symbols.getLastD 0) (offset + symbols.length - 1))
  return octets

/-- Reads symbols that start at `offset`, group by group. -/
def decodeGroups (offset : Nat) : Octets → Except Fault Octets
  | a :: b :: c :: d :: e :: rest => do
    let values ← symbolValues offset [a, b, c, d]
    let tail ← decodeGroups (offset + 4) (e :: rest)
    return (groupOctets values).1 ++ tail
  | [] => .ok []
  | group => decodeLast offset group

/-- Reads the octets of a text. One symbol beyond whole groups is looked at before anything else. -/
def decodeOctets (text : Octets) : Except Fault Octets := do
  if text.length % 4 = 1 then
    let last := text.getLastD 0
    if last ≠ pad ∧ symbolValue? last = none then
      throw (.invalidSymbol last (text.length - 1))
  decodeGroups 0 text

/-- The octet string that a text writes. -/
def decode (text : List Char) : Except Fault Octets :=
  decodeOctets (text.flatMap String.utf8EncodeChar)

end Settlement.Base64Url
