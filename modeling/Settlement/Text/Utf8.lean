import Settlement.Octets.Basic

/-!
# UTF-8

Which octets at the front of a string make a character: no overlong form, no
surrogate, nothing above U+10FFFF.
-/

namespace Settlement.Utf8

/-- Whether an octet goes on with a character that an earlier one began. -/
def isContinuation (b : UInt8) : Bool := 0x80 ≤ b && b ≤ 0xbf

/-- The range of the second octet of a character that begins with `a`. -/
def secondInRange (a b : UInt8) : Bool :=
  if a = 0xe0 then 0xa0 ≤ b && b ≤ 0xbf
  else if a = 0xed then 0x80 ≤ b && b ≤ 0x9f
  else if a = 0xf0 then 0x90 ≤ b && b ≤ 0xbf
  else if a = 0xf4 then 0x80 ≤ b && b ≤ 0x8f
  else isContinuation b

/-- The number of octets of the character at the front, if there is a whole one. -/
def charLength? : Octets → Option Nat
  | [] => none
  | a :: rest =>
    if a < 0x80 then some 1
    else if 0xc2 ≤ a ∧ a ≤ 0xdf then
      match rest with
      | b :: _ => if isContinuation b then some 2 else none
      | _ => none
    else if 0xe0 ≤ a ∧ a ≤ 0xef then
      match rest with
      | b :: c :: _ => if secondInRange a b && isContinuation c then some 3 else none
      | _ => none
    else if 0xf0 ≤ a ∧ a ≤ 0xf4 then
      match rest with
      | b :: c :: d :: _ =>
        if secondInRange a b && isContinuation c && isContinuation d then some 4 else none
      | _ => none
    else none

/-- What is left after up to `fuel` whole characters at the front. -/
def dropCharsWithin : (fuel : Nat) → Octets → Octets
  | 0, o => o
  | fuel + 1, o =>
    match charLength? o with
    | some n => dropCharsWithin fuel (o.drop n)
    | none => o

/-- What is left from the first octet on that does not begin a whole character. -/
def dropChars (o : Octets) : Octets := dropCharsWithin o.length o

/-- Whether octets are characters from the first to the last. -/
def isValid (o : Octets) : Bool := (dropChars o).isEmpty

end Settlement.Utf8
