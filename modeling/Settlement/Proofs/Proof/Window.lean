import Settlement.Proof.Signing
import Settlement.Proofs.Instant
import Settlement.Proofs.Proof.Verification

/-!
# Windows of proofs

A window that is opened at signing ends where it would end over the integers
(`Policy.toInt_expiration`), also where it is cut at the start of a day or at
the end of time. So it is never empty and never longer than the longest one
(`Policy.expiration_bounds`). A verifier judges a sound window as if nothing
were held within range (`Proof.SoundWindow.checkWindow_eq`), and accepts it at
each of its instants, both ends included.
-/

namespace Settlement

namespace Policy

variable {policy : Policy} {requested now : Mics}

/-! ## Opening a window -/

/-- The length of a window for a requested length, over the integers. -/
def span (policy : Policy) (requested : Mics) : Int :=
  if requested.toInt ≤ 0 then policy.maxValid.toInt
  else min requested.toInt policy.maxValid.toInt

/-- The instant at which a window that opens now is over at the latest: the end of its length, or
of all time. -/
def latest (policy : Policy) (requested now : Mics) : Int :=
  min (now.toInt + policy.span requested) Int64.maxValue.toInt

theorem toInt_window (policy : Policy) (requested : Mics) :
    (policy.window requested).toInt = policy.span requested := by
  unfold window span
  simp only [Int64.le_iff_toInt_le, Int64.toInt_zero]
  split
  · rfl
  · exact Mics.toInt_min _ _

theorem span_bounds (requested : Mics) (hvalid : 0 < policy.maxValid) :
    0 < policy.span requested ∧ policy.span requested ≤ policy.maxValid.toInt := by
  have hpos := Mics.toInt_pos hvalid
  unfold span
  split <;> omega

theorem toInt_latest (hvalid : 0 < policy.maxValid) :
    (now.plus (policy.window requested)).toInt = policy.latest requested now := by
  have hpos := (span_bounds requested hvalid).1
  have hlower := Mics.toInt_lower now
  have hmin := Mics.toInt_minValue
  have hmax := Mics.toInt_maxValue
  rw [Mics.toInt_plus, toInt_window, latest]
  omega

/-- Where the start of a day is asked for at all, it is not before the start of the range. -/
theorem toInt_startOfDay_latest (hvalid : 0 < policy.maxValid)
    (hday : 0 ≤ now ∨ Mics.day ≤ policy.truncateAbove)
    (hlong : policy.truncateAbove < policy.window requested) :
    (now.plus (policy.window requested)).startOfDay.toInt =
      Mics.dayStart (policy.latest requested now) := by
  have hpos := (span_bounds requested hvalid).1
  have hlower := Mics.toInt_lower now
  have htoInt_day := Mics.toInt_day
  have hmax := Mics.toInt_maxValue
  have hlong' := Int64.lt_iff_toInt_lt.mp hlong
  rw [toInt_window] at hlong'
  rw [← toInt_latest hvalid]
  apply Mics.toInt_startOfDay
  rw [toInt_latest hvalid, latest]
  rcases hday with hnow | htruncate
  · have hnow' := Mics.toInt_nonneg hnow
    omega
  · -- the window is longer than a day, so its end is not in the first day of the range
    have htruncate' := Int64.le_iff_toInt_le.mp htruncate
    omega

/-- A window ends where it would end over the integers. -/
theorem toInt_expiration (hvalid : 0 < policy.maxValid)
    (hday : 0 ≤ now ∨ Mics.day ≤ policy.truncateAbove) :
    (policy.expiration requested now).toInt =
      if policy.truncateAbove.toInt < policy.span requested ∧
          now.toInt < Mics.dayStart (policy.latest requested now) then
        Mics.dayStart (policy.latest requested now)
      else policy.latest requested now := by
  unfold expiration
  simp only [Int64.lt_iff_toInt_lt, toInt_window]
  by_cases hlong : policy.truncateAbove.toInt < policy.span requested
  · have hlong' : policy.truncateAbove < policy.window requested := by
      rwa [Int64.lt_iff_toInt_lt, toInt_window]
    have hstart := toInt_startOfDay_latest hvalid hday hlong'
    rw [hstart]
    split
    · exact hstart
    · exact toInt_latest hvalid
  · rw [if_neg fun h => hlong h.1, if_neg fun h => hlong h.1]
    exact toInt_latest hvalid

/-- The end of a window lies after its start, by at most its length. -/
theorem expiration_bounds (requested : Mics) (hvalid : 0 < policy.maxValid)
    (hday : 0 ≤ now ∨ Mics.day ≤ policy.truncateAbove) (hnow : now < Int64.maxValue) :
    now.toInt < (policy.expiration requested now).toInt ∧
      (policy.expiration requested now).toInt ≤ now.toInt + policy.span requested := by
  have hpos := (span_bounds requested hvalid).1
  have hbefore := Int64.lt_iff_toInt_lt.mp hnow
  have hstart := Mics.dayStart_le (policy.latest requested now)
  rw [toInt_expiration hvalid hday]
  unfold latest at *
  split <;> omega

end Policy

namespace Proof

variable {p : Proof} {o : Options}

/-! ## Judging a window -/

/-- The window is not empty and no longer than the longest one. -/
structure SoundWindow (policy : Policy) (p : Proof) : Prop where
  opens : p.signedMics.toInt < p.expirationMics.toInt
  length_le : p.expirationMics.toInt - p.signedMics.toInt ≤ policy.maxValid.toInt

/-- The instant lies in the window, whose ends belong to it. -/
def Holds (p : Proof) (t : Mics) : Prop := p.signedMics ≤ t ∧ t ≤ p.expirationMics

/-- The instant lies in the window after the margin is added at both ends, whether or not there is
an instant at these ends. -/
structure Widened (policy : Policy) (p : Proof) (t : Mics) : Prop where
  le_now : p.signedMics.toInt - policy.margin.toInt ≤ t.toInt
  now_le : t.toInt ≤ p.expirationMics.toInt + policy.margin.toInt

theorem Holds.widened {policy : Policy} {t : Mics} (h : p.Holds t) (hmargin : 0 ≤ policy.margin) :
    p.Widened policy t := by
  have hnonneg := Mics.toInt_nonneg hmargin
  have hfrom := Int64.le_iff_toInt_le.mp h.1
  have hto := Int64.le_iff_toInt_le.mp h.2
  constructor <;> omega

theorem Widened.between {policy : Policy} {t1 t2 t3 : Mics} (h1 : p.Widened policy t1)
    (h3 : p.Widened policy t3) (h12 : t1 ≤ t2) (h23 : t2 ≤ t3) : p.Widened policy t2 := by
  have hle12 := Int64.le_iff_toInt_le.mp h12
  have hle23 := Int64.le_iff_toInt_le.mp h23
  have hfrom := h1.le_now
  have hto := h3.now_le
  constructor <;> omega

/-- A window that is empty or too long is refused at every instant. -/
theorem checkWindow_of_not_soundWindow (h : ¬ p.SoundWindow o.policy)
    (hmax : o.policy.maxValid < Int64.maxValue) :
    p.checkWindow o = .error (.invalidWindow p.signedMics p.expirationMics) := by
  unfold checkWindow
  apply if_pos
  apply Decidable.not_not.mp
  intro hlength
  rw [not_or, Int64.not_le, Int64.not_lt, Mics.zero_lt_minus_iff, Mics.minus_le_iff hmax]
    at hlength
  exact h ⟨hlength.1, hlength.2⟩

namespace SoundWindow

/-- The verdict on a sound window is that over the integers. -/
theorem checkWindow_eq (h : p.SoundWindow o.policy) (hmargin : 0 ≤ o.policy.margin) :
    p.checkWindow o =
      if o.ignoreExpiration then .ok ()
      else if o.now.toInt < p.signedMics.toInt - o.policy.margin.toInt then
        .error (.notYetValid o.now p.signedMics)
      else if p.expirationMics.toInt + o.policy.margin.toInt < o.now.toInt then
        .error (.expired o.now p.expirationMics)
      else .ok () := by
  have hlength : ¬ (p.expirationMics.minus p.signedMics ≤ 0 ∨
      o.policy.maxValid < p.expirationMics.minus p.signedMics) := by
    rw [not_or, Int64.not_le, Int64.not_lt, Mics.zero_lt_minus_iff]
    exact ⟨h.opens, Mics.minus_le_of_toInt_le h.length_le⟩
  unfold checkWindow
  simp only [hlength, if_false, Mics.lt_minus_iff hmargin, Mics.plus_lt_iff hmargin]

theorem checkWindow_eq_ok_iff (h : p.SoundWindow o.policy) (hmargin : 0 ≤ o.policy.margin) :
    p.checkWindow o = .ok () ↔ o.ignoreExpiration = true ∨ p.Widened o.policy o.now := by
  rw [h.checkWindow_eq hmargin]
  by_cases hignore : o.ignoreExpiration = true
  · rw [if_pos hignore]
    exact iff_of_true rfl (.inl hignore)
  · rw [if_neg hignore]
    by_cases hearly : o.now.toInt < p.signedMics.toInt - o.policy.margin.toInt
    · rw [if_pos hearly]
      exact iff_of_false nofun fun hnow => Int.not_le.mpr hearly (hnow.resolve_left hignore).le_now
    · rw [if_neg hearly]
      by_cases hlate : p.expirationMics.toInt + o.policy.margin.toInt < o.now.toInt
      · rw [if_pos hlate]
        exact iff_of_false nofun fun hnow => Int.not_le.mpr hlate (hnow.resolve_left hignore).now_le
      · rw [if_neg hlate]
        exact iff_of_true rfl (.inr ⟨Int.not_lt.mp hearly, Int.not_lt.mp hlate⟩)

theorem checkWindow_eq_notYetValid_iff (h : p.SoundWindow o.policy)
    (hmargin : 0 ≤ o.policy.margin) :
    p.checkWindow o = .error (.notYetValid o.now p.signedMics) ↔ o.ignoreExpiration = false ∧
      o.now.toInt < p.signedMics.toInt - o.policy.margin.toInt := by
  rw [h.checkWindow_eq hmargin]
  by_cases hignore : o.ignoreExpiration = true
  · simp [hignore]
  · rw [if_neg hignore]
    by_cases hearly : o.now.toInt < p.signedMics.toInt - o.policy.margin.toInt
    · simp [hignore, hearly]
    · rw [if_neg hearly]
      refine iff_of_false ?_ fun hnow => hearly hnow.2
      split <;> exact nofun

theorem checkWindow_eq_expired_iff (h : p.SoundWindow o.policy)
    (hmargin : 0 ≤ o.policy.margin) :
    p.checkWindow o = .error (.expired o.now p.expirationMics) ↔ o.ignoreExpiration = false ∧
      p.expirationMics.toInt + o.policy.margin.toInt < o.now.toInt := by
  rw [h.checkWindow_eq hmargin]
  by_cases hignore : o.ignoreExpiration = true
  · simp [hignore]
  · rw [if_neg hignore]
    by_cases hlate : p.expirationMics.toInt + o.policy.margin.toInt < o.now.toInt
    · -- what is over has begun, since the window is not empty
      have hearly : ¬ o.now.toInt < p.signedMics.toInt - o.policy.margin.toInt := by
        have hnonneg := Mics.toInt_nonneg hmargin
        have hopens := h.opens
        omega
      simp [hignore, hearly, hlate]
    · rw [if_neg hlate]
      refine iff_of_false ?_ fun hnow => hlate hnow.2
      split <;> exact nofun

end SoundWindow

section Verdicts

variable (hmargin : 0 ≤ o.policy.margin) (hmax : o.policy.maxValid < Int64.maxValue)

include hmax in
/-- Any other verdict than that the window is unsound is one on a sound window. -/
theorem checkWindow_eq_iff_and {r : Except ValidationFault Unit} {P : Prop}
    (hr : r ≠ .error (.invalidWindow p.signedMics p.expirationMics))
    (hsound : p.SoundWindow o.policy → (p.checkWindow o = r ↔ P)) :
    p.checkWindow o = r ↔ p.SoundWindow o.policy ∧ P := by
  by_cases h : p.SoundWindow o.policy
  · rw [hsound h]
    exact (and_iff_right h).symm
  · rw [checkWindow_of_not_soundWindow h hmax]
    exact iff_of_false hr.symm fun hand => h hand.1

include hmargin hmax in
/-- **The verdict on a window** is that over the integers: whether it is sound, and if so, on which
side of it the instant lies. -/
theorem checkWindow_verdicts :
    (p.checkWindow o = .ok () ↔ p.SoundWindow o.policy ∧
      (o.ignoreExpiration = true ∨ p.Widened o.policy o.now)) ∧
    (p.checkWindow o = .error (.invalidWindow p.signedMics p.expirationMics) ↔
      ¬ p.SoundWindow o.policy) ∧
    (p.checkWindow o = .error (.notYetValid o.now p.signedMics) ↔ p.SoundWindow o.policy ∧
      o.ignoreExpiration = false ∧ o.now.toInt < p.signedMics.toInt - o.policy.margin.toInt) ∧
    (p.checkWindow o = .error (.expired o.now p.expirationMics) ↔ p.SoundWindow o.policy ∧
      o.ignoreExpiration = false ∧
        p.expirationMics.toInt + o.policy.margin.toInt < o.now.toInt) := by
  refine ⟨?_, ?_, ?_, ?_⟩
  · exact checkWindow_eq_iff_and hmax nofun fun h => h.checkWindow_eq_ok_iff hmargin
  · constructor
    · intro hinvalid h
      rw [h.checkWindow_eq hmargin] at hinvalid
      split at hinvalid
      · cases hinvalid
      · split at hinvalid
        · cases hinvalid
        · split at hinvalid <;> cases hinvalid
    · intro h
      exact checkWindow_of_not_soundWindow h hmax
  · exact checkWindow_eq_iff_and hmax nofun fun h => h.checkWindow_eq_notYetValid_iff hmargin
  · exact checkWindow_eq_iff_and hmax nofun fun h => h.checkWindow_eq_expired_iff hmargin

end Verdicts

end Proof

end Settlement
