import Settlement.Proofs.Evidence.Cosigning
import Settlement.Proofs.Linkage.Verification
import Settlement.Proofs.Linker.Matching
import Settlement.Proofs.Proof.Verification
import Settlement.Proofs.Proof.Window
import Settlement.Proofs.Storage.Kind

/-!
# Lenient verifiers

Terms of verification can ask for less: a longer longest window, a wider
margin, no regard to expiry, fewer mergers, a root key where there was none.
What verifies on the stricter terms verifies on these, from proofs up to
linkages, and what can be joined stays joined to the same linkage
(`lenient_accepts`). A cap beyond the mergers that there are makes no
difference to any result, faults included.
-/

namespace Settlement

open Storage (BaseKind)

variable {S : Suite} {o o' : Options}

/-- The second terms, at the same instant, ask for no more than the first. Where windows are
truncated is of no account. -/
structure Options.Relaxes (o o' : Options) : Prop where
  now_eq : o'.now = o.now
  maxValid_le : o.policy.maxValid ≤ o'.policy.maxValid
  margin_le : o.policy.margin ≤ o'.policy.margin
  ignores : o.ignoreExpiration = true → o'.ignoreExpiration = true
  mergerCap_le : o'.mergerCap ≤ o.mergerCap
  root : o'.policy.root = o.policy.root ∨ o.policy.root = none

/-! ## Windows and signatures -/

/-- A root key that was not there before is only asked for where no key was. -/
theorem Assertion.signatureKey_of_none {a : Assertion} {key : PublicKey}
    (h : a.signatureKey none = some key) (root : Option PublicKey) :
    a.signatureKey root = some key := by
  cases a with
  | value v linker => exact h
  | credential c subject index => exact h
  | signer v slot linker =>
      unfold signatureKey at h ⊢
      simp only at h ⊢
      split at h
      · next howner => rw [if_pos howner, h]
      · next howner =>
        split at h
        · next hmerger => rw [if_neg howner, if_pos hmerger, h]
        · cases h

namespace Proof

variable {p : Proof}

theorem checkWindow_of_relaxes (h : o.Relaxes o') (hp : p.checkWindow o = .ok ()) :
    p.checkWindow o' = .ok () := by
  obtain ⟨⟨hpos, hmax⟩, hholds⟩ := checkWindow_eq_ok_iff.mp hp
  refine checkWindow_eq_ok_iff.mpr ⟨⟨hpos, Int64.le_trans hmax h.maxValid_le⟩, ?_⟩
  rcases hholds with hignores | ⟨hearly, hlate⟩
  · exact .inl (h.ignores hignores)
  · refine .inr ⟨?_, ?_⟩
    · rw [h.now_eq]
      exact Int64.le_trans (Mics.minus_le_minus h.margin_le) hearly
    · rw [h.now_eq]
      exact Int64.le_trans hlate (Mics.plus_le_plus h.margin_le)

theorem checkSignature_of_relaxes (h : o.Relaxes o') (hp : p.checkSignature S o = .ok ()) :
    p.checkSignature S o' = .ok () := by
  obtain ⟨signature, key, hsignature, hkey, haccepts⟩ := checkSignature_eq_ok_iff.mp hp
  refine checkSignature_eq_ok_iff.mpr ⟨signature, key, hsignature, ?_, haccepts⟩
  rcases h.root with hsame | hnone
  · rw [hsame]
    exact hkey
  · rw [hnone] at hkey
    exact Assertion.signatureKey_of_none hkey _

theorem verify_of_relaxes (h : o.Relaxes o') (hp : p.verify S o = .ok ()) :
    p.verify S o' = .ok () := by
  obtain ⟨hwindow, hsignature⟩ := verify_eq_ok_iff.mp hp
  exact verify_eq_ok_iff.mpr
    ⟨checkWindow_of_relaxes h hwindow, checkSignature_of_relaxes h hsignature⟩

end Proof

theorem Contract.verify_of_relaxes {c : Contract} (h : o.Relaxes o')
    (hc : c.verify S o = .ok ()) : c.verify S o' = .ok () := by
  obtain ⟨hamounts, p, hproof, hverify⟩ := verify_eq_ok_iff.mp hc
  exact verify_eq_ok_iff.mpr ⟨hamounts, p, hproof, Proof.verify_of_relaxes h hverify⟩

theorem BaseKind.verify_of_relaxes {k : BaseKind} {b : k.Object} (h : o.Relaxes o')
    (hb : Base.verify S b o = .ok ()) : Base.verify S b o' = .ok () := by
  cases k with
  | proof => exact Proof.verify_of_relaxes h hb
  | contract => exact Contract.verify_of_relaxes h hb

/-- Bases have no mergers to ask. -/
theorem BaseKind.verify_withCap {k : BaseKind} (b : k.Object) (cap : Nat) :
    Base.verify S b { o with mergerCap := cap } = Base.verify S b o := by
  cases k <;> rfl

/-! ## Evidences -/

namespace Evidence

variable {β : Type} [EvidenceBody β] {e : Evidence β} {cap cap' : Nat}

/-- The credit of the evidence, if it is known, has no more mergers than the cap. -/
def MergersWithin (e : Evidence β) (cap : Nat) : Prop :=
  ∀ credit, e.credit? = some credit → credit.mergers.length ≤ cap

theorem checkSignatures_of_le (hcap : cap' ≤ cap) (h : e.checkSignatures S cap = .ok ()) :
    e.checkSignatures S cap' = .ok () := by
  obtain ⟨credit, hcredit, hcosigned⟩ := checkSignatures_eq_ok_iff.mp h
  refine checkSignatures_eq_ok_iff.mpr ⟨credit, hcredit, fun i hi key hkey => ?_⟩
  exact hcosigned i (Nat.lt_of_lt_of_le hi hcap) key hkey

/-- A cap beyond all mergers asks for all of them, however large it is. -/
theorem checkSignatures_eq_of_mergersWithin (h : e.MergersWithin cap) (hcap : cap ≤ cap') :
    e.checkSignatures S cap' = e.checkSignatures S cap := by
  unfold checkSignatures
  cases hcredit : e.credit? with
  | none => rfl
  | some credit =>
      have hlength := h credit hcredit
      simp only [List.take_of_length_le hlength,
        List.take_of_length_le (Nat.le_trans hlength hcap)]

theorem verify_eq_of_mergersWithin (h : e.MergersWithin cap) (hcap : cap ≤ cap') :
    e.verify S cap' o = e.verify S cap o := by
  unfold verify
  rw [checkSignatures_eq_of_mergersWithin h hcap]

theorem verify_of_verifyBases
    (hbases : e.verifyBases S o = .ok () → e.verifyBases S o' = .ok ()) (hcap : cap' ≤ cap)
    (h : e.verify S cap o = .ok ()) : e.verify S cap' o' = .ok () := by
  obtain ⟨hverify, hsignatures⟩ := verify_eq_ok_iff.mp h
  exact verify_eq_ok_iff.mpr ⟨hbases hverify, checkSignatures_of_le hcap hsignatures⟩

end Evidence

theorem ProofEvidence.verify_of_relaxes {e : ProofEvidence} {cap cap' : Nat} (h : o.Relaxes o')
    (hcap : cap' ≤ cap) (he : e.verify S cap o = .ok ()) : e.verify S cap' o' = .ok () :=
  Evidence.verify_of_verifyBases (Proof.verify_of_relaxes h) hcap he

section

variable {k : BaseKind} {cap cap' : Nat}

theorem LinkedEvidence.verify_of_relaxes {e : LinkedEvidence k.Object} (h : o.Relaxes o')
    (hcap : cap' ≤ cap) (he : e.verify S cap o = .ok ()) : e.verify S cap' o' = .ok () := by
  refine Evidence.verify_of_verifyBases (fun hbases => ?_) hcap he
  obtain ⟨hbase1, hbase2⟩ := verifyBases_eq_ok_iff.mp hbases
  exact verifyBases_eq_ok_iff.mpr
    ⟨BaseKind.verify_of_relaxes h hbase1, BaseKind.verify_of_relaxes h hbase2⟩

theorem LinkedEvidence.verify_withCap (e : LinkedEvidence k.Object) (cap cap' : Nat) :
    e.verify S cap { o with mergerCap := cap' } = e.verify S cap o := by
  have hbases : e.verifyBases S { o with mergerCap := cap' } = e.verifyBases S o := by
    show (do
      Base.verify S e.body.link.base1 { o with mergerCap := cap' }
      Base.verify S e.body.link.base2 { o with mergerCap := cap' }) = _
    simp only [BaseKind.verify_withCap]
    rfl
  unfold Evidence.verify
  rw [hbases]

/-! ## Linkages -/

namespace Linkage

variable {l : Linkage k.Object} {e1 e2 : LinkedEvidence k.Object}

theorem verify_of_relaxes (h : o.Relaxes o') (hl : l.verify S o = .ok ()) :
    l.verify S o' = .ok () := by
  obtain ⟨hsides, hlinker⟩ := verify_iff_evidence.mp hl
  refine verify_iff_evidence.mpr ⟨fun isPrimary => ?_, hlinker⟩
  exact LinkedEvidence.verify_of_relaxes h h.mergerCap_le (hsides isPrimary)

theorem create?_of_relaxes (h : o.Relaxes o') (hl : create? S e1 e2 o = .ok l) :
    create? S e1 e2 o' = .ok l := by
  obtain ⟨hside, hlink, hverify1, hverify2, heq⟩ := create?_eq_ok_iff.mp hl
  exact create?_eq_ok_iff.mpr ⟨hside, hlink,
    LinkedEvidence.verify_of_relaxes h h.mergerCap_le hverify1,
    LinkedEvidence.verify_of_relaxes h h.mergerCap_le hverify2, heq⟩

theorem verify_withCap (hmergers : ∀ isPrimary, (l.evidence isPrimary).MergersWithin o.mergerCap)
    (hcap : o.mergerCap ≤ cap) : l.verify S { o with mergerCap := cap } = l.verify S o := by
  unfold verify verifyBases
  simp only [BaseKind.verify_withCap,
    Evidence.checkSignatures_eq_of_mergersWithin (hmergers _) hcap]

theorem joinSides?_withCap (hmergers1 : e1.MergersWithin o.mergerCap)
    (hmergers2 : e2.MergersWithin o.mergerCap) (hcap : o.mergerCap ≤ cap) :
    joinSides? S e1 e2 { o with mergerCap := cap } = joinSides? S e1 e2 o := by
  unfold joinSides?
  simp only [LinkedEvidence.verify_withCap, Evidence.verify_eq_of_mergersWithin hmergers1 hcap,
    Evidence.verify_eq_of_mergersWithin hmergers2 hcap]

theorem create?_withCap (hmergers1 : e1.MergersWithin o.mergerCap)
    (hmergers2 : e2.MergersWithin o.mergerCap) (hcap : o.mergerCap ≤ cap) :
    create? S e1 e2 { o with mergerCap := cap } = create? S e1 e2 o := by
  unfold create?
  rw [joinSides?_withCap hmergers1 hmergers2 hcap, joinSides?_withCap hmergers2 hmergers1 hcap]

end Linkage

end

/-- **A more lenient verifier rejects nothing that a stricter one accepts**, be it a proof, a
contract, an evidence, a linkage, or two evidences to be joined, which give the same linkage. And
beyond the number of mergers a cap may be as large as it likes: every result stays what it was. -/
theorem lenient_accepts (S : Suite) :
    (∀ o o' : Options, o.Relaxes o' →
      (∀ p : Proof, p.verify S o = .ok () → p.verify S o' = .ok ()) ∧
      (∀ c : Contract, c.verify S o = .ok () → c.verify S o' = .ok ()) ∧
      (∀ (e : ProofEvidence) (cap cap' : Nat), cap' ≤ cap →
        e.verify S cap o = .ok () → e.verify S cap' o' = .ok ()) ∧
      (∀ (k : BaseKind) (e : LinkedEvidence k.Object) (cap cap' : Nat), cap' ≤ cap →
        e.verify S cap o = .ok () → e.verify S cap' o' = .ok ()) ∧
      (∀ (k : BaseKind) (l : Linkage k.Object),
        l.verify S o = .ok () → l.verify S o' = .ok ()) ∧
      ∀ (k : BaseKind) (e1 e2 : LinkedEvidence k.Object) (l : Linkage k.Object),
        Linkage.create? S e1 e2 o = .ok l → Linkage.create? S e1 e2 o' = .ok l) ∧
    ∀ (o : Options) (cap : Nat), o.mergerCap ≤ cap →
      (∀ e : ProofEvidence, e.MergersWithin o.mergerCap →
        e.verify S cap o = e.verify S o.mergerCap o) ∧
      (∀ (k : BaseKind) (e : LinkedEvidence k.Object), e.MergersWithin o.mergerCap →
        e.verify S cap o = e.verify S o.mergerCap o) ∧
      (∀ (k : BaseKind) (l : Linkage k.Object),
        (∀ isPrimary, (l.evidence isPrimary).MergersWithin o.mergerCap) →
        l.verify S { o with mergerCap := cap } = l.verify S o) ∧
      ∀ (k : BaseKind) (e1 e2 : LinkedEvidence k.Object), e1.MergersWithin o.mergerCap →
        e2.MergersWithin o.mergerCap →
        Linkage.create? S e1 e2 { o with mergerCap := cap } = Linkage.create? S e1 e2 o := by
  constructor
  · intro o o' h
    refine ⟨?_, ?_, ?_, ?_, ?_, ?_⟩
    · intro p hp
      exact Proof.verify_of_relaxes h hp
    · intro c hc
      exact Contract.verify_of_relaxes h hc
    · intro e cap cap' hcap he
      exact ProofEvidence.verify_of_relaxes h hcap he
    · intro k e cap cap' hcap he
      exact LinkedEvidence.verify_of_relaxes h hcap he
    · intro k l hl
      exact Linkage.verify_of_relaxes h hl
    · intro k e1 e2 l hl
      exact Linkage.create?_of_relaxes h hl
  · intro o cap hcap
    refine ⟨?_, ?_, ?_, ?_⟩
    · intro e he
      exact Evidence.verify_eq_of_mergersWithin he hcap
    · intro k e he
      exact Evidence.verify_eq_of_mergersWithin he hcap
    · intro k l hl
      exact Linkage.verify_withCap hl hcap
    · intro k e1 e2 he1 he2
      exact Linkage.create?_withCap he1 he2 hcap

/-- Terms on which hardly anything is asked for: no window is too long or over, one merger is
enough, and the root key is that of the empty seed. -/
def lenientOptions : Options where
  policy :=
    { maxValid := Int64.maxValue, truncateAbove := 0, margin := Mics.day
      root := some (Suite.plain.publicKey (.padded [])) }
  now := 4
  ignoreExpiration := true
  mergerCap := 1

/-- A plain proof co-signed by its only merger. -/
def plainEvidence : ProofEvidence :=
  (Evidence.ofBody ⟨Linker.plainProof (.padded [1])⟩).withCosignature .plain 0 (.padded [1])

/-- The linkage of both sides of the plain link, signed by its linker. -/
def plainLinkage : Linkage Proof :=
  let l := Linkage.join (Linker.plainSide true) (Linker.plainSide false)
  l.attach (Suite.plain.sign (.padded []) (l.linkerMessage .plain))

/-- What verifies within its window and on default terms verifies on the lenient ones. -/
theorem lenient_accepts_plainLinkage :
    ({ now := 4 } : Options).Relaxes lenientOptions ∧
    (Linker.plainProof (.padded [1])).verify .plain lenientOptions = .ok () ∧
    (Contract.wholeOf (Linker.plainProof (.padded [1]))).verify .plain lenientOptions = .ok () ∧
    plainEvidence.verify .plain 1 lenientOptions = .ok () ∧
    (Linker.plainSide true).verify .plain 1 lenientOptions = .ok () ∧
    plainLinkage.verify .plain lenientOptions = .ok () ∧
    Linkage.create? .plain (Linker.plainSide true) (Linker.plainSide false) lenientOptions =
      .ok (Linkage.join (Linker.plainSide true) (Linker.plainSide false)) ∧
    (plainEvidence.MergersWithin 3 ∧
      plainEvidence.verify .plain 100 { now := 4 } = plainEvidence.verify .plain 3 { now := 4 }) ∧
    (∀ isPrimary, (plainLinkage.evidence isPrimary).MergersWithin 3) ∧
      plainLinkage.verify .plain { now := 4, mergerCap := 100 } =
        plainLinkage.verify .plain { now := 4 } := by
  have hrelaxes : ({ now := 4 } : Options).Relaxes lenientOptions :=
    ⟨rfl, by decide, by decide, fun _ => rfl, by decide, .inr rfl⟩
  have hevidence : plainEvidence.MergersWithin 3 := by
    intro credit hcredit
    obtain rfl := Option.some.inj hcredit
    decide
  have hlinkage : ∀ isPrimary, (plainLinkage.evidence isPrimary).MergersWithin 3 := by
    intro isPrimary credit hcredit
    cases isPrimary <;>
      (obtain rfl := Option.some.inj hcredit; decide)
  obtain ⟨hlenient, hcap⟩ := lenient_accepts .plain
  obtain ⟨hproof, hcontract, hproofEvidence, hside, hlinkages, hcreate⟩ := hlenient _ _ hrelaxes
  obtain ⟨hcapEvidence, -, hcapLinkage, -⟩ := hcap { now := 4 } 100 (by decide)
  refine ⟨hrelaxes, hproof _ ?_, hcontract _ ?_, hproofEvidence _ 3 1 (by decide) ?_,
    hside .proof _ 3 1 (by decide) ?_, hlinkages .proof _ ?_, hcreate .proof _ _ _ ?_,
    ⟨hevidence, hcapEvidence _ hevidence⟩, hlinkage, hcapLinkage .proof _ hlinkage⟩ <;>
    decide +kernel

end Settlement
