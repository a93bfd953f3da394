import Settlement.Proofs.Linkage.Verification
import Settlement.Proofs.Linker.Matching

/-!
# Why two evidences do not make a linkage

Several things can stand against linking two evidences at once, on either of
them (`Objection`), and they are ranked: how the sides are arranged, what is
linked, the evidence of the primary side, that of the secondary side. Creation
names the first objection of all (`Linkage.create?_eq_error_iff`), with the values
of the side where it lies and not of the argument, so that the order of the
arguments is never seen: `Linkage.create?_reports_first`.
-/

namespace Settlement

/-- Where a fault stands among all that can be found in two evidences. -/
def LinkageFault.rank : LinkageFault → Nat
  | .primaryArrangement => 0
  | .linkedMicsMismatch _ _ => 1
  | .baseMismatch => 2
  | .invalidEvidence true _ => 3
  | .invalidEvidence false _ => 4

namespace Linkage

variable {B : Type} {e1 e2 primary secondary : LinkedEvidence B}

/-- Of two evidences, in either order, one is of the primary side and the other is not. -/
inductive Opposed (e1 e2 : LinkedEvidence B) : LinkedEvidence B → LinkedEvidence B → Prop
  | given (h1 : e1.body.isPrimary = true) (h2 : e2.body.isPrimary = false) : Opposed e1 e2 e1 e2
  | swapped (h1 : e1.body.isPrimary = false) (h2 : e2.body.isPrimary = true) : Opposed e1 e2 e2 e1

theorem exists_opposed (h : e1.body.isPrimary ≠ e2.body.isPrimary) :
    ∃ primary secondary, Opposed e1 e2 primary secondary := by
  cases h1 : e1.body.isPrimary with
  | true =>
      rw [h1] at h
      exact ⟨e1, e2, .given h1 (Bool.eq_not_of_ne (Ne.symm h))⟩
  | false =>
      rw [h1] at h
      exact ⟨e2, e1, .swapped h1 (Bool.eq_not_of_ne (Ne.symm h))⟩

namespace Opposed

theorem isPrimary_ne (h : Opposed e1 e2 primary secondary) :
    e1.body.isPrimary ≠ e2.body.isPrimary := by
  cases h with
  | given h1 h2 =>
      rw [h1, h2]
      exact Bool.true_eq_false.mp
  | swapped h1 h2 =>
      rw [h1, h2]
      exact Bool.false_ne_true

theorem swap (h : Opposed e1 e2 primary secondary) : Opposed e2 e1 primary secondary := by
  cases h with
  | given h1 h2 => exact .swapped h2 h1
  | swapped h1 h2 => exact .given h2 h1

/-- Each side is one of the two evidences. -/
theorem unique {primary' secondary' : LinkedEvidence B} (h : Opposed e1 e2 primary secondary)
    (h' : Opposed e1 e2 primary' secondary') : primary' = primary ∧ secondary' = secondary := by
  cases h with
  | given h1 _ =>
      cases h' with
      | given => exact ⟨rfl, rfl⟩
      | swapped h1' _ => exact absurd (h1'.symm.trans h1) Bool.false_ne_true
  | swapped h1 _ =>
      cases h' with
      | given h1' _ => exact absurd (h1.symm.trans h1') Bool.false_ne_true
      | swapped => exact ⟨rfl, rfl⟩

theorem link_eq_iff (h : Opposed e1 e2 primary secondary) :
    primary.body.link = secondary.body.link ↔ e1.body.link = e2.body.link := by
  cases h with
  | given => exact Iff.rfl
  | swapped => exact eq_comm

end Opposed

variable [Base B] {S : Suite} {o : Options} {fault : LinkageFault}

/-- What stands against linking two evidences, whatever else does. -/
inductive Objection (S : Suite) (o : Options) (e1 e2 : LinkedEvidence B) : LinkageFault → Prop
  | arrangement (hsame : e1.body.isPrimary = e2.body.isPrimary) :
      Objection S o e1 e2 .primaryArrangement
  | linkedMics {primary secondary : LinkedEvidence B} (hsides : Opposed e1 e2 primary secondary)
      (hmics : primary.body.link.linkedMics ≠ secondary.body.link.linkedMics) :
      Objection S o e1 e2
        (.linkedMicsMismatch primary.body.link.linkedMics secondary.body.link.linkedMics)
  | bases {primary secondary : LinkedEvidence B} (hsides : Opposed e1 e2 primary secondary)
      (hbases : primary.body.link.base1 ≠ secondary.body.link.base1 ∨
        primary.body.link.base2 ≠ secondary.body.link.base2) :
      Objection S o e1 e2 .baseMismatch
  | primary {primary secondary : LinkedEvidence B} {reason : ValidationFault}
      (hsides : Opposed e1 e2 primary secondary)
      (hverify : primary.verify S o.mergerCap o = .error reason) :
      Objection S o e1 e2 (.invalidEvidence true reason)
  | secondary {primary secondary : LinkedEvidence B} {reason : ValidationFault}
      (hsides : Opposed e1 e2 primary secondary)
      (hverify : secondary.verify S o.mergerCap o = .error reason) :
      Objection S o e1 e2 (.invalidEvidence false reason)

/-- The objection that comes before all others. -/
structure FirstObjection (S : Suite) (o : Options) (e1 e2 : LinkedEvidence B)
    (fault : LinkageFault) : Prop where
  objection : Objection S o e1 e2 fault
  rank_le : ∀ other, Objection S o e1 e2 other → fault.rank ≤ other.rank

/-- There is one objection of each rank at most: one value is named for each side, and each
evidence fails for one reason. -/
theorem Objection.eq_of_rank_eq {other : LinkageFault} (h : Objection S o e1 e2 fault)
    (hother : Objection S o e1 e2 other) (hrank : fault.rank = other.rank) : fault = other := by
  cases h with
  | arrangement =>
      cases hother with
      | arrangement => rfl
      | _ => cases hrank
  | linkedMics hsides =>
      cases hother with
      | linkedMics hsides' =>
          obtain ⟨rfl, rfl⟩ := hsides.unique hsides'
          rfl
      | _ => cases hrank
  | bases =>
      cases hother with
      | bases => rfl
      | _ => cases hrank
  | primary hsides hverify =>
      cases hother with
      | primary hsides' hverify' =>
          obtain ⟨rfl, rfl⟩ := hsides.unique hsides'
          rw [Except.error.inj (hverify.symm.trans hverify')]
      | _ => cases hrank
  | secondary hsides hverify =>
      cases hother with
      | secondary hsides' hverify' =>
          obtain ⟨rfl, rfl⟩ := hsides.unique hsides'
          rw [Except.error.inj (hverify.symm.trans hverify')]
      | _ => cases hrank

theorem FirstObjection.unique {other : LinkageFault} (h : FirstObjection S o e1 e2 fault)
    (hother : FirstObjection S o e1 e2 other) : fault = other :=
  h.objection.eq_of_rank_eq hother.objection
    (Nat.le_antisymm (h.rank_le other hother.objection) (hother.rank_le fault h.objection))

/-- Against two sides of one link stands at most that one of them does not verify. -/
theorem Objection.verify_error (h : Objection S o e1 e2 fault)
    (hsides : Opposed e1 e2 primary secondary)
    (hlink : primary.body.link = secondary.body.link) :
    (fault.rank = 3 ∧ ∃ reason, primary.verify S o.mergerCap o = .error reason) ∨
      (fault.rank = 4 ∧ ∃ reason, secondary.verify S o.mergerCap o = .error reason) := by
  cases h with
  | arrangement hsame => exact absurd hsame hsides.isPrimary_ne
  | linkedMics hsides' hmics =>
      obtain ⟨rfl, rfl⟩ := hsides.unique hsides'
      exact absurd (congrArg Link.linkedMics hlink) hmics
  | bases hsides' hbases =>
      obtain ⟨rfl, rfl⟩ := hsides.unique hsides'
      rw [hlink] at hbases
      exact absurd hbases (not_or.mpr ⟨not_not_intro rfl, not_not_intro rfl⟩)
  | primary hsides' hverify =>
      obtain ⟨rfl, rfl⟩ := hsides.unique hsides'
      exact .inl ⟨rfl, _, hverify⟩
  | secondary hsides' hverify =>
      obtain ⟨rfl, rfl⟩ := hsides.unique hsides'
      exact .inr ⟨rfl, _, hverify⟩

variable [DecidableEq B]

/-! ## The order of the arguments -/

theorem Opposed.create?_eq (h : Opposed e1 e2 primary secondary) :
    create? S e1 e2 o = joinSides? S primary secondary o := by
  have hne := h.isPrimary_ne
  unfold create?
  rw [if_neg hne]
  cases h with
  | given h1 _ => rw [if_pos h1]
  | swapped h1 _ =>
      rw [h1]
      exact if_neg Bool.false_ne_true

theorem create?_comm (S : Suite) (e1 e2 : LinkedEvidence B) (o : Options) :
    create? S e1 e2 o = create? S e2 e1 o := by
  by_cases hsame : e1.body.isPrimary = e2.body.isPrimary
  · unfold create?
    rw [if_pos hsame, if_pos hsame.symm]
  · obtain ⟨primary, secondary, hsides⟩ := exists_opposed hsame
    rw [hsides.create?_eq, hsides.swap.create?_eq]

/-! ## The first objection -/

/-- The checks that two sides go through, as the fault of the first one that fails. -/
theorem joinSides?_error_cases (h : joinSides? S primary secondary o = .error fault) :
    (primary.body.link.linkedMics ≠ secondary.body.link.linkedMics ∧ fault =
      .linkedMicsMismatch primary.body.link.linkedMics secondary.body.link.linkedMics) ∨
    (primary.body.link.linkedMics = secondary.body.link.linkedMics ∧
      (primary.body.link.base1 ≠ secondary.body.link.base1 ∨
        primary.body.link.base2 ≠ secondary.body.link.base2) ∧ fault = .baseMismatch) ∨
    (primary.body.link = secondary.body.link ∧ ∃ reason,
      primary.verify S o.mergerCap o = .error reason ∧ fault = .invalidEvidence true reason) ∨
    (primary.body.link = secondary.body.link ∧ primary.verify S o.mergerCap o = .ok () ∧
      ∃ reason, secondary.verify S o.mergerCap o = .error reason ∧
        fault = .invalidEvidence false reason) := by
  unfold joinSides? at h
  simp only at h
  split at h
  · next hmics => exact .inl ⟨hmics, (Except.error.inj h).symm⟩
  · next hmics =>
    rw [ne_eq, Decidable.not_not] at hmics
    split at h
    · next hbases => exact .inr (.inl ⟨hmics, hbases, (Except.error.inj h).symm⟩)
    · next hbases =>
      rw [not_or, Decidable.not_not, Decidable.not_not] at hbases
      have hlink : primary.body.link = secondary.body.link := Link.ext hmics hbases.1 hbases.2
      rcases check_bind_eq_error_iff.mp h with h | ⟨hprimary, h⟩
      · exact .inr (.inr (.inl ⟨hlink, mapError_eq_error_iff.mp h⟩))
      · rcases check_bind_eq_error_iff.mp h with h | ⟨-, h⟩
        · exact .inr (.inr (.inr
            ⟨hlink, mapError_eq_ok_iff.mp hprimary, mapError_eq_error_iff.mp h⟩))
        · cases h

/-- What is reported comes before everything else that could be. -/
theorem firstObjection_of_create? (h : create? S e1 e2 o = .error fault) :
    FirstObjection S o e1 e2 fault := by
  by_cases hsame : e1.body.isPrimary = e2.body.isPrimary
  · unfold create? at h
    rw [if_pos hsame] at h
    cases h
    exact ⟨.arrangement hsame, fun other _ => Nat.zero_le _⟩
  · obtain ⟨primary, secondary, hsides⟩ := exists_opposed hsame
    rw [hsides.create?_eq] at h
    rcases joinSides?_error_cases h with
      ⟨hmics, rfl⟩ | ⟨hmics, hbases, rfl⟩ | ⟨hlink, reason, hprimary, rfl⟩ |
        ⟨hlink, hprimary, reason, hsecondary, rfl⟩
    · refine ⟨.linkedMics hsides hmics, fun other hother => ?_⟩
      cases hother with
      | arrangement hsame' => exact absurd hsame' hsame
      | _ => exact Nat.le_add_left 1 _
    · refine ⟨.bases hsides hbases, fun other hother => ?_⟩
      cases hother with
      | arrangement hsame' => exact absurd hsame' hsame
      | linkedMics hsides' hmics' =>
          obtain ⟨rfl, rfl⟩ := hsides.unique hsides'
          exact absurd hmics hmics'
      | _ => exact Nat.le_add_left 2 _
    · refine ⟨.primary hsides hprimary, fun other hother => ?_⟩
      show 3 ≤ other.rank
      rcases hother.verify_error hsides hlink with ⟨hrank, -⟩ | ⟨hrank, -⟩ <;> omega
    · refine ⟨.secondary hsides hsecondary, fun other hother => ?_⟩
      show 4 ≤ other.rank
      rcases hother.verify_error hsides hlink with ⟨-, reason', hprimary'⟩ | ⟨hrank, -⟩
      · cases hprimary.symm.trans hprimary'
      · omega

/-- Nothing stands against what is created. -/
theorem Objection.create?_ne_ok (h : Objection S o e1 e2 fault) (l : Linkage B) :
    create? S e1 e2 o ≠ .ok l := by
  intro hcreate
  have hne := (create?_eq_ok_iff.mp hcreate).1
  obtain ⟨primary, secondary, hsides⟩ := exists_opposed hne
  rw [hsides.create?_eq] at hcreate
  obtain ⟨hlink, hprimary, hsecondary, -⟩ := joinSides?_eq_ok_iff.mp hcreate
  rcases h.verify_error hsides hlink with ⟨-, reason, hprimary'⟩ | ⟨-, reason, hsecondary'⟩
  · cases hprimary.symm.trans hprimary'
  · cases hsecondary.symm.trans hsecondary'

/-- Creation fails exactly where something stands against it, and names the first of it. -/
theorem create?_eq_error_iff :
    create? S e1 e2 o = .error fault ↔ FirstObjection S o e1 e2 fault := by
  constructor
  · exact firstObjection_of_create?
  · intro h
    cases hcreate : create? S e1 e2 o with
    | error fault' => rw [(firstObjection_of_create? hcreate).unique h]
    | ok l => exact absurd hcreate (h.objection.create?_ne_ok l)

/-- **Creation reports the first objection**, whichever evidence comes first. It is given the two
sides of one link, both of which verify, or it fails; what it then makes has no linker's signature
and holds each evidence on its own side. Where it fails, the fault is the first of all that stand
against the two evidences. -/
theorem create?_reports_first (S : Suite) (o : Options) (e1 e2 : LinkedEvidence B) :
    create? S e1 e2 o = create? S e2 e1 o ∧
    ((∃ l, create? S e1 e2 o = .ok l) ↔
      e1.body.isPrimary ≠ e2.body.isPrimary ∧
        e1.body.link.linkedMics = e2.body.link.linkedMics ∧
        e1.body.link.base1 = e2.body.link.base1 ∧ e1.body.link.base2 = e2.body.link.base2 ∧
        e1.verify S o.mergerCap o = .ok () ∧ e2.verify S o.mergerCap o = .ok ()) ∧
    (∀ l, create? S e1 e2 o = .ok l → l.linkerSignature = none ∧
      ∀ e, e = e1 ∨ e = e2 → l.evidence e.body.isPrimary = e) ∧
    ∀ fault, create? S e1 e2 o = .error fault ↔ FirstObjection S o e1 e2 fault := by
  refine ⟨create?_comm S e1 e2 o, ?_, fun l h => ?_, fun fault => create?_eq_error_iff⟩
  · simp only [create?_eq_ok_iff]
    constructor
    · rintro ⟨l, hne, hlink, hverify1, hverify2, -⟩
      rw [hlink]
      exact ⟨hne, rfl, rfl, rfl, hverify1, hverify2⟩
    · rintro ⟨hne, hmics, hbase1, hbase2, hverify1, hverify2⟩
      exact ⟨_, hne, Link.ext hmics hbase1 hbase2, hverify1, hverify2, rfl⟩
  · obtain ⟨hne, hlink, -, -, rfl⟩ := create?_eq_ok_iff.mp h
    obtain ⟨hevidence1, hevidence2⟩ := evidence_ofSides hne hlink
    refine ⟨linkerSignature_ofSides e1 e2, ?_⟩
    rintro e (rfl | rfl)
    · exact hevidence1
    · exact hevidence2

/-- The plain sides are linked in either order. Of two sides without any signature, over bases in
different order, the times of linking are named first, and that of the primary side before the
other. -/
theorem create?_reports_first_plainSide :
    (∃ l, create? .plain (Linker.plainSide false) (Linker.plainSide true) { now := 4 } = .ok l ∧
      l.linkerSignature = none ∧ l.evidence true = Linker.plainSide true) ∧
    create? .plain
      (LinkedEvidence.of false 5 (Linker.plainProof (.padded [2])) (Linker.plainProof (.padded [1])))
      (LinkedEvidence.of true 6 (Linker.plainProof (.padded [1])) (Linker.plainProof (.padded [2])))
      { now := 4 } = .error (.linkedMicsMismatch 6 5) := by
  have hverify : ∀ isPrimary,
      (Linker.plainSide isPrimary).verify .plain 3 { now := 4 } = .ok () := by
    intro isPrimary
    cases isPrimary <;> decide +kernel
  obtain ⟨-, hok, hevidence, -⟩ := create?_reports_first (B := Proof) .plain { now := 4 }
    (Linker.plainSide false) (Linker.plainSide true)
  obtain ⟨l, hl⟩ := hok.mpr ⟨Bool.false_ne_true, rfl, rfl, rfl, hverify false, hverify true⟩
  obtain ⟨hunsigned, hsides⟩ := hevidence l hl
  refine ⟨⟨l, hl, hunsigned, hsides _ (.inr rfl)⟩, ?_⟩
  obtain ⟨-, -, -, herror⟩ := create?_reports_first (B := Proof) .plain { now := 4 }
    (LinkedEvidence.of false 5 (Linker.plainProof (.padded [2])) (Linker.plainProof (.padded [1])))
    (LinkedEvidence.of true 6 (Linker.plainProof (.padded [1])) (Linker.plainProof (.padded [2])))
  refine (herror _).mpr ⟨.linkedMics (.swapped rfl rfl) (by decide), fun other hother => ?_⟩
  cases hother with
  | arrangement hsame => cases hsame
  | _ => exact Nat.le_add_left 1 _

end Linkage

end Settlement
