/-!
# Instants

Instants and spans of time in microseconds since the epoch, as 64-bit
integers. Sums and differences stop at the ends of the range instead of
leaving it; `toInt_plus` and `toInt_minus` give them over the integers.
-/

namespace Settlement

/-- Microseconds: an instant since the epoch, or a span. -/
abbrev Mics := Int64

namespace Mics

/-- The nearest representable number. -/
def clamp (n : Int) : Mics :=
  if n < Int64.minValue.toInt then Int64.minValue
  else if Int64.maxValue.toInt < n then Int64.maxValue
  else Int64.ofInt n

/-- The sum, held within range. -/
def plus (a b : Mics) : Mics := clamp (a.toInt + b.toInt)

/-- The difference, held within range. -/
def minus (a b : Mics) : Mics := clamp (a.toInt - b.toInt)

/-- One second. -/
def second : Mics := 1000000

/-- One minute. -/
def minute : Mics := 60 * second

/-- One hour. -/
def hour : Mics := 60 * minute

/-- One day. -/
def day : Mics := 24 * hour

/-- The start of the UTC day in which an instant lies. -/
def startOfDay (t : Mics) : Mics := t - Int64.ofInt (t.toInt % day.toInt)

theorem toInt_clamp (n : Int) :
    (clamp n).toInt = max Int64.minValue.toInt (min n Int64.maxValue.toInt) := by
  have hle : Int64.minValue.toInt ≤ Int64.maxValue.toInt := by decide
  unfold clamp
  split
  · omega
  · split
    · omega
    · rw [Int64.toInt_ofInt_of_le (by simpa using ‹¬ n < _›)]
      · omega
      · have : Int64.maxValue.toInt = 2 ^ 63 - 1 := by decide
        omega

theorem toInt_plus (a b : Mics) :
    (plus a b).toInt = max Int64.minValue.toInt (min (a.toInt + b.toInt) Int64.maxValue.toInt) :=
  toInt_clamp _

theorem toInt_minus (a b : Mics) :
    (minus a b).toInt = max Int64.minValue.toInt (min (a.toInt - b.toInt) Int64.maxValue.toInt) :=
  toInt_clamp _

end Mics

end Settlement
