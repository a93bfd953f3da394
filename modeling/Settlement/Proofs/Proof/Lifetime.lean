import Settlement.Proofs.Proof.Signing

/-!
# Lifetimes of signed proofs

Whoever signs a proof fixes its window, whoever verifies it judges the window
anew, each with arithmetic that is held within range. The two agree to the
microsecond: a freshly signed proof verifies exactly within its window, widened
by the margin, is not yet valid before and expired after
(`Proof.signed_lifetime`). What the window is is said over the integers.
-/

namespace Settlement.Proof

variable {S : Suite} {p p' : Proof} {seed : Seed} {requested now : Mics} {policy : Policy}
  {o : Options}

/-- Where the signature is right, the window decides. -/
theorem verify_eq_checkWindow (h : p.checkSignature S o = .ok ()) :
    p.verify S o = p.checkWindow o := by
  unfold verify
  cases p.checkWindow o with
  | error fault => rfl
  | ok _ => exact h

/-- **A freshly signed proof is valid for exactly its window.** The start of the day at which a long
window ends is computed without leaving the range. The window opens at signing, is not empty, and
its length is the requested one up to the longest. It ends at its latest instant, or with the start
of that instant's day if the window is a long one and the day starts after signing. Whoever verifies
by the same policy accepts the proof from the margin before to the margin after the window, calls it
not yet valid before and expired after. -/
theorem signed_lifetime (hS : S.Signs) (hvalid : 0 < policy.maxValid) (hmargin : 0 ≤ policy.margin)
    (hday : 0 ≤ now ∨ Mics.day ≤ policy.truncateAbove) (hnow : now < Int64.maxValue)
    (hmergers : p.credit.mergers.length ≤ maxMergers)
    (h : p.sign S seed requested policy now = .ok p') :
    (policy.truncateAbove < policy.window requested →
      (now.plus (policy.window requested)).startOfDay.toInt =
        Mics.dayStart (policy.latest requested now)) ∧
    (p'.signedMics = now ∧ now.toInt < p'.expirationMics.toInt ∧
      p'.expirationMics.toInt ≤ now.toInt + policy.span requested) ∧
    p'.expirationMics.toInt =
      (if policy.truncateAbove.toInt < policy.span requested ∧
          now.toInt < Mics.dayStart (policy.latest requested now) then
        Mics.dayStart (policy.latest requested now)
      else policy.latest requested now) ∧
    ∀ o : Options, o.policy = policy → o.ignoreExpiration = false →
      (p'.verify S o = .ok () ↔ p'.Widened policy o.now) ∧
      (p'.verify S o = .error (.notYetValid o.now p'.signedMics) ↔
        o.now.toInt < p'.signedMics.toInt - policy.margin.toInt) ∧
      (p'.verify S o = .error (.expired o.now p'.expirationMics) ↔
        p'.expirationMics.toInt + policy.margin.toInt < o.now.toInt) := by
  obtain ⟨hsigned, hexpiration⟩ := window_of_sign h
  refine ⟨Policy.toInt_startOfDay_latest hvalid hday, ⟨hsigned, ?_⟩, ?_, ?_⟩
  · rw [hexpiration]
    exact Policy.expiration_bounds requested hvalid hday hnow
  · rw [hexpiration]
    exact Policy.toInt_expiration hvalid hday
  · intro o ho hignore
    have hwindow := soundWindow_of_sign hvalid hday hnow h
    rw [verify_eq_checkWindow (checkSignature_of_sign hS hmergers h ho)]
    subst ho
    refine ⟨?_, ?_, ?_⟩
    · rw [hwindow.checkWindow_eq_ok_iff hmargin, hignore]
      exact or_iff_right Bool.false_ne_true
    · rw [hwindow.checkWindow_eq_notYetValid_iff hmargin]
      exact and_iff_right hignore
    · rw [hwindow.checkWindow_eq_expired_iff hmargin]
      exact and_iff_right hignore

/-- A hundred of a credit of which the holder of a seed is the originator and the only merger. -/
def plainHolding (seed : Seed) : Value :=
  let key := Suite.plain.publicKey seed
  ⟨key, ⟨100⟩, ⟨key, [key]⟩⟩

/-- A proof signed five microseconds before the epoch, for as long as can be: its last day is cut
off, and with a margin of ten seconds it lasts until ten seconds past the start of that day. -/
theorem signed_lifetime_plainHolding :
    (Suite.plain.Signs ∧ (0 : Mics) < ({} : Policy).maxValid ∧ (0 : Mics) ≤ ({} : Policy).margin ∧
      (0 ≤ (-5 : Mics) ∨ Mics.day ≤ ({} : Policy).truncateAbove) ∧
      (-5 : Mics) < Int64.maxValue ∧
      (plainHolding (.padded [1])).credit.mergers.length ≤ maxMergers) ∧
    ∃ p', (forValue (plainHolding (.padded [1])) (Suite.plain.publicKey (.padded []))).sign .plain
        (.padded [1]) 0 {} (-5) = .ok p' ∧
      p'.expirationMics.toInt = 364 * Mics.day.toInt ∧
      p'.verify .plain { now := -10000005 } = .ok () ∧
      p'.verify .plain { now := -10000006 } = .error (.notYetValid (-10000006) (-5)) ∧
      p'.verify .plain { now := 31449610000000 } = .ok () ∧
      p'.verify .plain { now := 31449610000001 } =
        .error (.expired 31449610000001 p'.expirationMics) := by
  have hday : 0 ≤ (-5 : Mics) ∨ Mics.day ≤ ({} : Policy).truncateAbove := .inr (by decide)
  have hsign : ∃ p', (forValue (plainHolding (.padded [1]))
      (Suite.plain.publicKey (.padded []))).sign .plain (.padded [1]) 0 {} (-5) = .ok p' :=
    ⟨_, sign_eq_ok_iff.mpr ⟨_, .owner rfl, rfl⟩⟩
  obtain ⟨p', hp'⟩ := hsign
  obtain ⟨-, ⟨hsigned, -, -⟩, hexpiration, hverify⟩ := signed_lifetime Suite.plain_signs
    (by decide) (by decide) hday (by decide) (by decide) hp'
  have hend : p'.expirationMics.toInt = 364 * Mics.day.toInt := hexpiration.trans (by decide)
  have hlow : p'.signedMics.toInt = -5 := by rw [hsigned]; rfl
  have hmargin : ({} : Policy).margin.toInt = 10000000 := by decide
  refine ⟨⟨Suite.plain_signs, by decide, by decide, hday, by decide, by decide⟩, p', hp', hend,
    ?_, ?_, ?_, ?_⟩
  · refine (hverify { now := -10000005 } rfl rfl).1.mpr ⟨?_, ?_⟩
    · rw [hlow, hmargin]
      decide
    · rw [hend, hmargin]
      decide
  · rw [← hsigned]
    refine (hverify { now := -10000006 } rfl rfl).2.1.mpr ?_
    rw [hlow, hmargin]
    decide
  · refine (hverify { now := 31449610000000 } rfl rfl).1.mpr ⟨?_, ?_⟩
    · rw [hlow, hmargin]
      decide
    · rw [hend, hmargin]
      decide
  · refine (hverify { now := 31449610000001 } rfl rfl).2.2.mpr ?_
    rw [hend, hmargin]
    decide

end Settlement.Proof
