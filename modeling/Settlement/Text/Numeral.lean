/-!
# Decimal numerals of 64-bit integers

A numeral is an optional sign and at least one ASCII digit; leading zeros are
allowed. The fault reported is the first one met from the left, so a digit
that leaves the range comes before a later character that is no digit.
-/

namespace Settlement.Numeral

/-- Why a text is not the numeral of a 64-bit integer. -/
inductive Fault where
  | empty
  | invalidDigit
  | tooLarge
  | tooSmall
deriving DecidableEq, Repr

/-- The wording of a fault. -/
def Fault.message : Fault → String
  | .empty => "cannot parse integer from empty string"
  | .invalidDigit => "invalid digit found in string"
  | .tooLarge => "number too large to fit in target type"
  | .tooSmall => "number too small to fit in target type"

/-- The number an ASCII digit stands for. -/
def digitValue? (c : Char) : Option Nat :=
  if '0' ≤ c ∧ c ≤ '9' then some (c.toNat - '0'.toNat) else none

/-- Reads the digits of a number of the given sign after those that make up `value`. -/
def digits (negative : Bool) (value : Int) : List Char → Except Fault Int
  | [] => .ok value
  | c :: rest =>
    match digitValue? c with
    | none => .error .invalidDigit
    | some d =>
      let next := if negative then value * 10 - d else value * 10 + d
      if next < Int64.minValue.toInt then .error .tooSmall
      else if Int64.maxValue.toInt < next then .error .tooLarge
      else digits negative next rest

/-- The digits of a numeral, of which there must be one. -/
def unsigned (negative : Bool) : List Char → Except Fault Int
  | [] => .error .invalidDigit
  | cs => digits negative 0 cs

/-- The integer that a text writes. -/
def parse (text : List Char) : Except Fault Int64 :=
  Int64.ofInt <$> match text with
    | [] => .error .empty
    | '+' :: rest => unsigned false rest
    | '-' :: rest => unsigned true rest
    | cs => unsigned false cs

end Settlement.Numeral
