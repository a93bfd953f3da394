import Settlement.Proofs.Linkage.Lenience

/-!
# When a linkage verifies

Of all that is checked in a proof, a contract or a linkage, only the windows
look at the clock. So the instants at which any of them verifies are those of
its widened windows, all of them or none (`LastsFor`), and that the ends of
windows are held within range changes no verdict (`saturation_unseen`).
-/

namespace Settlement

open Storage (BaseKind)

variable {S : Suite} {o : Options}

/-- The same terms as of another instant. -/
def Options.asOf (o : Options) (t : Mics) : Options := { o with now := t }

/-- The check lasts for a window: whatever else it asks for is so at every instant or at none. -/
def LastsFor (check : Mics → Except ValidationFault Unit) (window : Mics → Prop) : Prop :=
  ∃ standing : Prop, ∀ t, check t = .ok () ↔ standing ∧ window t

namespace LastsFor

variable {check : Mics → Except ValidationFault Unit} {window : Mics → Prop}

theorem never_or_exactly (h : LastsFor check window) :
    (∀ t, check t ≠ .ok ()) ∨ ∀ t, check t = .ok () ↔ window t := by
  obtain ⟨standing, hiff⟩ := h
  by_cases hstanding : standing
  · exact .inr fun t => (hiff t).trans (and_iff_right hstanding)
  · exact .inl fun t hok => hstanding ((hiff t).mp hok).1

end LastsFor

namespace Proof

variable {p : Proof}

theorem verifiedState_eq_verified_iff :
    p.verifiedState S o = .verified ↔ p.verify S o = .ok () := by
  unfold verifiedState
  by_cases hunsigned : p.signature = none
  · rw [if_pos hunsigned]
    refine iff_of_false nofun fun hverify => ?_
    obtain ⟨signature, -, hsignature, -, -⟩ :=
      checkSignature_eq_ok_iff.mp (verify_eq_ok_iff.mp hverify).2
    rw [hunsigned] at hsignature
    cases hsignature
  · rw [if_neg hunsigned]
    split <;> simp_all

/-- A proof verifies for its window. -/
theorem lastsFor_verify (hmargin : 0 ≤ o.policy.margin) (hmax : o.policy.maxValid < Int64.maxValue)
    (hignore : o.ignoreExpiration = false) (p : Proof) :
    LastsFor (fun t => p.verify S (o.asOf t)) (p.Widened o.policy) := by
  refine ⟨p.SoundWindow o.policy ∧ p.checkSignature S o = .ok (), fun t => ?_⟩
  have hsignature : p.checkSignature S (o.asOf t) = p.checkSignature S o := rfl
  have hignore' : (o.asOf t).ignoreExpiration ≠ true := by
    intro h
    exact Bool.false_ne_true (hignore.symm.trans h)
  have hwindow : p.checkWindow (o.asOf t) = .ok () ↔
      p.SoundWindow o.policy ∧ p.Widened o.policy t :=
    (checkWindow_verdicts (o := o.asOf t) hmargin hmax).1.trans
      (and_congr_right fun _ => or_iff_right hignore')
  rw [verify_eq_ok_iff, hwindow, hsignature]
  exact and_right_comm

end Proof

/-! ## Bases and linkages -/

/-- The instant lies in the widened window of the base's proof, which is still there. -/
def Base.Widened {B : Type} [Base B] (policy : Policy) (b : B) (t : Mics) : Prop :=
  ∃ p, Base.proof? b = some p ∧ p.Widened policy t

section Lasting

variable (hmargin : 0 ≤ o.policy.margin) (hmax : o.policy.maxValid < Int64.maxValue)
  (hignore : o.ignoreExpiration = false)

include hmargin hmax hignore

/-- A contract verifies for the window of its proof. -/
theorem Contract.lastsFor_verify (c : Contract) :
    LastsFor (fun t => c.verify S (o.asOf t)) (Base.Widened o.policy c) := by
  cases hproof : c.proof? with
  | none =>
      refine ⟨False, fun t => iff_of_false (fun h => ?_) fun h => h.1⟩
      obtain ⟨-, p, hp, -⟩ := verify_eq_ok_iff.mp h
      rw [hproof] at hp
      cases hp
  | some p =>
      obtain ⟨standing, hiff⟩ := p.lastsFor_verify (S := S) hmargin hmax hignore
      have hwidened : ∀ t, Base.Widened o.policy c t ↔ p.Widened o.policy t := by
        intro t
        show (∃ q, c.proof? = some q ∧ q.Widened o.policy t) ↔ _
        rw [hproof]
        simp
      refine ⟨c.checkAmounts = .ok () ∧ standing, fun t => ?_⟩
      rw [verify_eq_ok_iff, hproof, hwidened]
      simp [hiff, and_assoc]

theorem BaseKind.lastsFor_verify {k : BaseKind} (b : k.Object) :
    LastsFor (fun t => Base.verify S b (o.asOf t)) (Base.Widened o.policy b) := by
  cases k with
  | proof =>
      obtain ⟨standing, hiff⟩ := Proof.lastsFor_verify (S := S) hmargin hmax hignore b
      refine ⟨standing, fun t => (hiff t).trans (and_congr_right fun _ => ?_)⟩
      exact ⟨fun h => ⟨b, rfl, h⟩, fun ⟨p, hp, h⟩ => Option.some.inj hp ▸ h⟩
  | contract => exact Contract.lastsFor_verify hmargin hmax hignore b

/-- A linkage verifies for what its two windows have in common. -/
theorem Linkage.lastsFor_verify {k : BaseKind} (l : Linkage k.Object) :
    LastsFor (fun t => l.verify S (o.asOf t)) (fun t =>
      Base.Widened o.policy l.link.base1 t ∧ Base.Widened o.policy l.link.base2 t) := by
  obtain ⟨standing1, hiff1⟩ :=
    BaseKind.lastsFor_verify (S := S) hmargin hmax hignore l.link.base1
  obtain ⟨standing2, hiff2⟩ :=
    BaseKind.lastsFor_verify (S := S) hmargin hmax hignore l.link.base2
  refine ⟨(∃ key, l.sharedLinker = .ok key) ∧ (standing1 ∧ standing2) ∧
    (l.evidence true).checkSignatures S o.mergerCap = .ok () ∧
    (l.evidence false).checkSignatures S o.mergerCap = .ok () ∧
    l.checkLinkerSignature S = .ok (), fun t => ?_⟩
  have hcap : (o.asOf t).mergerCap = o.mergerCap := rfl
  rw [verify_eq_ok_iff, verifyBases_eq_ok_iff, hiff1 t, hiff2 t, hcap]
  constructor
  · rintro ⟨⟨hshared, ⟨h1, hwindow1⟩, h2, hwindow2⟩, hsignatures⟩
    exact ⟨⟨hshared, ⟨h1, h2⟩, hsignatures⟩, hwindow1, hwindow2⟩
  · rintro ⟨⟨hshared, ⟨h1, h2⟩, hsignatures⟩, hwindow1, hwindow2⟩
    exact ⟨⟨hshared, ⟨h1, hwindow1⟩, h2, hwindow2⟩, hsignatures⟩

/-- A linkage verifies at no instant, or it has both proofs still and verifies exactly where their
widened windows meet. -/
theorem Linkage.never_or_within {k : BaseKind} (l : Linkage k.Object) :
    (∀ t, l.verify S (o.asOf t) ≠ .ok ()) ∨
      ∃ p1 p2, Base.proof? l.link.base1 = some p1 ∧ Base.proof? l.link.base2 = some p2 ∧
        ∀ t, l.verify S (o.asOf t) = .ok () ↔
          p1.Widened o.policy t ∧ p2.Widened o.policy t := by
  by_cases hever : ∃ t, l.verify S (o.asOf t) = .ok ()
  · right
    obtain ⟨t0, hok⟩ := hever
    have hiff : ∀ t, l.verify S (o.asOf t) = .ok () ↔
        Base.Widened o.policy l.link.base1 t ∧ Base.Widened o.policy l.link.base2 t :=
      (l.lastsFor_verify hmargin hmax hignore).never_or_exactly.resolve_left fun h => h t0 hok
    obtain ⟨⟨p1, hp1, -⟩, p2, hp2, -⟩ := (hiff t0).mp hok
    refine ⟨p1, p2, hp1, hp2, fun t => ?_⟩
    rw [hiff t]
    unfold Base.Widened
    simp [hp1, hp2]
  · left
    intro t hok
    exact hever ⟨t, hok⟩

end Lasting

/-- **Holding sums and differences within range changes no verdict.** On any window a proof is
judged as over the integers: unsound unless it is positive and no longer than the longest one, then
not yet valid, expired or accepted by the exact ends that the margin gives it. So the instants at
which a proof is verified are an interval, namely none or its widened window, and those at which a
linkage verifies are none, or what the widened windows of its two proofs have in common. -/
theorem saturation_unseen (S : Suite) (o : Options) (hmargin : 0 ≤ o.policy.margin)
    (hmax : o.policy.maxValid < Int64.maxValue) :
    (∀ p : Proof,
      (p.checkWindow o = .ok () ↔ p.SoundWindow o.policy ∧
        (o.ignoreExpiration = true ∨ p.Widened o.policy o.now)) ∧
      (p.checkWindow o = .error (.invalidWindow p.signedMics p.expirationMics) ↔
        ¬ p.SoundWindow o.policy) ∧
      (p.checkWindow o = .error (.notYetValid o.now p.signedMics) ↔ p.SoundWindow o.policy ∧
        o.ignoreExpiration = false ∧ o.now.toInt < p.signedMics.toInt - o.policy.margin.toInt) ∧
      (p.checkWindow o = .error (.expired o.now p.expirationMics) ↔ p.SoundWindow o.policy ∧
        o.ignoreExpiration = false ∧
          p.expirationMics.toInt + o.policy.margin.toInt < o.now.toInt)) ∧
    (o.ignoreExpiration = false →
      (∀ p : Proof,
        ((∀ t, p.verifiedState S (o.asOf t) ≠ .verified) ∨
          ∀ t, p.verifiedState S (o.asOf t) = .verified ↔ p.Widened o.policy t) ∧
        ∀ t1 t2 t3, t1 ≤ t2 → t2 ≤ t3 → p.verifiedState S (o.asOf t1) = .verified →
          p.verifiedState S (o.asOf t3) = .verified →
          p.verifiedState S (o.asOf t2) = .verified) ∧
      ∀ (k : BaseKind) (l : Linkage k.Object),
        (∀ t, l.verify S (o.asOf t) ≠ .ok ()) ∨
          ∃ p1 p2, Base.proof? l.link.base1 = some p1 ∧ Base.proof? l.link.base2 = some p2 ∧
            ∀ t, l.verify S (o.asOf t) = .ok () ↔
              p1.Widened o.policy t ∧ p2.Widened o.policy t) := by
  refine ⟨fun p => Proof.checkWindow_verdicts hmargin hmax, fun hignore => ⟨fun p => ?_, ?_⟩⟩
  · have hlasts := (p.lastsFor_verify (S := S) hmargin hmax hignore).never_or_exactly
    simp only [ne_eq, Proof.verifiedState_eq_verified_iff]
    refine ⟨hlasts, fun t1 t2 t3 h12 h23 h1 h3 => ?_⟩
    have hiff := hlasts.resolve_left fun hnever => hnever t1 h1
    exact (hiff t2).mpr (((hiff t1).mp h1).between ((hiff t3).mp h3) h12 h23)
  · intro k l
    exact l.never_or_within hmargin hmax hignore

/-- A window over the whole range is too long, although its length is held at the end of the range.
The plain linkage verifies from ten seconds before its proofs are signed to ten seconds after they
expire, and not a microsecond longer. -/
theorem saturation_unseen_plainLinkage :
    ((0 : Mics) ≤ ({} : Policy).margin ∧ ({} : Policy).maxValid < Int64.maxValue) ∧
    ({ Linker.plainProof (.padded [1]) with
        signedMics := Int64.minValue, expirationMics := Int64.maxValue } : Proof).checkWindow
      { now := 4 } = .error (.invalidWindow Int64.minValue Int64.maxValue) ∧
    (Linker.plainProof (.padded [1])).verifiedState .plain { now := -3000000 } = .verified ∧
    plainLinkage.verify .plain { now := -10000000 } = .ok () ∧
    plainLinkage.verify .plain { now := 10000010 } = .ok () ∧
    plainLinkage.verify .plain { now := 10000011 } ≠ .ok () := by
  have hmargin : (0 : Mics) ≤ ({} : Policy).margin := by decide
  have hmax : ({} : Policy).maxValid < Int64.maxValue := by decide
  obtain ⟨hwindow, hinstants⟩ := saturation_unseen .plain { now := 4 } hmargin hmax
  obtain ⟨hproof, hlinkage⟩ := hinstants rfl
  have hstate : ∀ t, (Linker.plainProof (.padded [1])).verifiedState .plain { now := t } =
      .verified ↔ (Linker.plainProof (.padded [1])).Widened {} t :=
    (hproof _).1.resolve_left fun hnever => hnever 4 (by decide +kernel)
  obtain ⟨p1, p2, hp1, hp2, hiff⟩ := (hlinkage .proof plainLinkage).resolve_left fun hnever =>
    hnever 4 (by decide +kernel)
  obtain rfl := Option.some.inj hp1
  obtain rfl := Option.some.inj hp2
  -- the plain proofs are signed at the epoch for ten microseconds, and the margin is ten seconds
  have hwidened : ∀ (seed : Seed) (t : Mics), (Linker.plainProof seed).Widened {} t ↔
      -10000000 ≤ t.toInt ∧ t.toInt ≤ 10000010 := by
    intro seed t
    have hfrom : (Linker.plainProof seed).signedMics.toInt = 0 := rfl
    have hto : (Linker.plainProof seed).expirationMics.toInt = 10 := rfl
    have hlength : ({} : Policy).margin.toInt = 10000000 := by decide
    constructor
    · intro h
      have hle_now := h.le_now
      have hnow_le := h.now_le
      omega
    · intro h
      constructor <;> omega
  refine ⟨⟨hmargin, hmax⟩, (hwindow _).2.1.mpr ?_, (hstate _).mpr ?_, (hiff _).mpr ?_,
    (hiff _).mpr ?_, fun h => ?_⟩
  · rintro ⟨-, hlength⟩
    exact absurd hlength (by decide)
  · exact (hwidened _ _).mpr (by decide)
  · exact ⟨(hwidened _ _).mpr (by decide), (hwidened _ _).mpr (by decide)⟩
  · exact ⟨(hwidened _ _).mpr (by decide), (hwidened _ _).mpr (by decide)⟩
  · exact absurd ((hwidened _ _).mp ((hiff _).mp h).1) (by decide)

end Settlement
