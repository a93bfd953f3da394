import Settlement.Instant

/-!
# Instants over the integers

Sums and differences of instants are held within the range of 64-bit integers.
Compared with an instant they come out as the exact ones do: what is held at an
end of the range is beyond every instant that is not (`Mics.minus_le_iff`,
`Mics.lt_minus_iff`, `Mics.plus_lt_iff`). The start of a day is the one
difference that is not held, and it is exact outside the first day of the range.
-/

namespace Settlement

namespace Mics

theorem toInt_day : day.toInt = 86400000000 := by decide

theorem toInt_lower (t : Mics) : -9223372036854775808 ≤ t.toInt := Int64.le_toInt t

theorem toInt_upper (t : Mics) : t.toInt ≤ 9223372036854775807 := by
  have h := Int64.toInt_lt t
  omega

theorem toInt_minValue : Int64.minValue.toInt = -9223372036854775808 := by decide

theorem toInt_maxValue : Int64.maxValue.toInt = 9223372036854775807 := by decide

/-- The start of the UTC day of an instant, over the integers. -/
def dayStart (n : Int) : Int := day.toInt * (n / day.toInt)

theorem dayStart_le (n : Int) : dayStart n ≤ n :=
  Int.mul_ediv_self_le (by decide)

/-- The start of a day, unless the range starts within that day. -/
theorem toInt_startOfDay {t : Mics} (h : -9223372036854775808 + day.toInt ≤ t.toInt) :
    t.startOfDay.toInt = dayStart t.toInt := by
  have hday := toInt_day
  have hupper := toInt_upper t
  have hnonneg : 0 ≤ t.toInt % day.toInt := Int.emod_nonneg _ (by omega)
  have hlt : t.toInt % day.toInt < day.toInt := Int.emod_lt_of_pos _ (by omega)
  have hsplit : day.toInt * (t.toInt / day.toInt) + t.toInt % day.toInt = t.toInt :=
    Int.mul_ediv_add_emod _ _
  have hrest : (Int64.ofInt (t.toInt % day.toInt)).toInt = t.toInt % day.toInt := by
    refine Int64.toInt_ofInt_of_le ?_ ?_
    · omega
    · omega
  rw [startOfDay, Int64.toInt_sub, hrest, Int.bmod_eq_of_le (by omega) (by omega)]
  unfold dayStart
  omega

variable {a b c t : Mics}

theorem toInt_nonneg (h : 0 ≤ a) : 0 ≤ a.toInt := Int64.le_iff_toInt_le.mp h

theorem toInt_pos (h : 0 < a) : 0 < a.toInt := Int64.lt_iff_toInt_lt.mp h

theorem toInt_min (a b : Mics) : (min a b).toInt = min a.toInt b.toInt := by
  show (if a ≤ b then a else b).toInt = _
  by_cases h : a ≤ b
  · have hle := Int64.le_iff_toInt_le.mp h
    rw [if_pos h]
    omega
  · have hlt := Int64.lt_iff_toInt_lt.mp (Int64.not_le.mp h)
    rw [if_neg h]
    omega

/-! ## Comparisons with what is held within range -/

theorem zero_lt_minus_iff : 0 < a.minus b ↔ b.toInt < a.toInt := by
  rw [Int64.lt_iff_toInt_lt, Int64.toInt_zero, toInt_minus, toInt_minValue, toInt_maxValue]
  omega

theorem minus_le_of_toInt_le (h : a.toInt - b.toInt ≤ c.toInt) : a.minus b ≤ c := by
  have hlower := toInt_lower c
  rw [Int64.le_iff_toInt_le, toInt_minus, toInt_minValue]
  omega

/-- Below the end of the range nothing is lost: a difference beyond it is held at the end, and
still too long. -/
theorem minus_le_iff (hc : c < Int64.maxValue) :
    a.minus b ≤ c ↔ a.toInt - b.toInt ≤ c.toInt := by
  have hlt := Int64.lt_iff_toInt_lt.mp hc
  refine ⟨fun h => ?_, minus_le_of_toInt_le⟩
  rw [Int64.le_iff_toInt_le, toInt_minus] at h
  omega

/-- No instant lies before the start of the range, nor does one before a start held there. -/
theorem lt_minus_iff (hb : 0 ≤ b) : t < a.minus b ↔ t.toInt < a.toInt - b.toInt := by
  have hnonneg := toInt_nonneg hb
  have hlower := toInt_lower t
  have hupper := toInt_upper a
  rw [Int64.lt_iff_toInt_lt, toInt_minus, toInt_minValue, toInt_maxValue]
  omega

theorem plus_lt_iff (hb : 0 ≤ b) : a.plus b < t ↔ a.toInt + b.toInt < t.toInt := by
  have hnonneg := toInt_nonneg hb
  have hlower := toInt_lower a
  have hupper := toInt_upper t
  rw [Int64.lt_iff_toInt_lt, toInt_plus, toInt_minValue, toInt_maxValue]
  omega

/-! ## Monotonicity -/

theorem plus_le_plus (h : b ≤ c) : a.plus b ≤ a.plus c := by
  have hle := Int64.le_iff_toInt_le.mp h
  rw [Int64.le_iff_toInt_le, toInt_plus, toInt_plus]
  omega

/-- The more is taken away, the less is left, also where the range ends. -/
theorem minus_le_minus (h : b ≤ c) : a.minus c ≤ a.minus b := by
  have hle := Int64.le_iff_toInt_le.mp h
  rw [Int64.le_iff_toInt_le, toInt_minus, toInt_minus]
  omega

end Mics

end Settlement
