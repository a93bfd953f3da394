import Settlement.Octets.Basic

/-!
# Hexadecimal text

Octets are written as two lower-case digits each, the high half first.
-/

namespace Settlement.Hex

/-- The digit of a number below sixteen. -/
def digit (n : Nat) : Char :=
  if n < 10 then Char.ofNat ('0'.toNat + n) else Char.ofNat ('a'.toNat + (n - 10))

/-- Two digits for each octet. -/
def encode (o : Octets) : String :=
  String.ofList (o.flatMap fun b => [digit (b.toNat / 16), digit (b.toNat % 16)])

/-- The number a digit stands for, in either case. -/
def digitValue? (c : Char) : Option Nat :=
  if '0' ≤ c ∧ c ≤ '9' then some (c.toNat - '0'.toNat)
  else if 'a' ≤ c ∧ c ≤ 'f' then some (c.toNat - 'a'.toNat + 10)
  else if 'A' ≤ c ∧ c ≤ 'F' then some (c.toNat - 'A'.toNat + 10)
  else none

/-- The octets that pairs of digits write. -/
def decodeDigits? : List Char → Option Octets
  | [] => some []
  | [_] => none
  | high :: low :: rest => do
    let h ← digitValue? high
    let l ← digitValue? low
    let tail ← decodeDigits? rest
    return UInt8.ofNat (h * 16 + l) :: tail

/-- Reads pairs of digits of either case; refuses an odd digit and any other character. -/
def decode? (s : String) : Option Octets := decodeDigits? s.toList

end Settlement.Hex
