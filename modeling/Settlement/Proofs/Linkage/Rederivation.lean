import Settlement.Proofs.Linkage.Verification
import Settlement.Proofs.Linker.Matching

/-!
# Verified linkages are joined ones

A linkage is made by joining two evidences and verified by taking it apart, and
the two go through their checks in different orders: joining verifies each base
once for either side and never asks for a linker, verification begins with the
linker and verifies each base once. They agree all the same. A linkage verifies
exactly if its sides could be joined to it, its bases name one linker, and that
linker's signature is on it: `Linkage.verify_iff_create?`.
-/

namespace Settlement.Linkage

variable {B : Type}

/-- The linkage as it is before its linker signs. -/
def unsigned (l : Linkage B) : Linkage B := { l with linkerSignature := none }

theorem ofSides_evidence (l : Linkage B) :
    ofSides (l.evidence true) (l.evidence false) = l.unsigned := rfl

variable [Base B] [DecidableEq B] {S : Suite} {o : Options} {l : Linkage B}

/-- The sides of a linkage can be joined again exactly if both of them verify. -/
theorem create?_evidence_iff :
    create? S (l.evidence true) (l.evidence false) o = .ok l.unsigned ↔
      ∀ isPrimary, (l.evidence isPrimary).verify S o.mergerCap o = .ok () := by
  rw [create?_eq_ok_iff]
  constructor
  · rintro ⟨-, -, hprimary, hsecondary, -⟩ isPrimary
    cases isPrimary with
    | true => exact hprimary
    | false => exact hsecondary
  · intro h
    exact ⟨Bool.true_eq_false.mp, rfl, h true, h false, l.ofSides_evidence.symm⟩

/-- **Every verified linkage is one that could be made.** A linkage verifies exactly if both bases
name one linker, its two sides can be joined and give the linkage without its last signature, and
the linker accepts that signature over the linkage. So what is joined and then signed by a seed
whose key the bases name verifies on the same terms. -/
theorem verify_iff_create? (S : Suite) :
    (∀ (l : Linkage B) (o : Options), l.verify S o = .ok () ↔
      ∃ key, (Base.linker? l.link.base1 = some key ∧ Base.linker? l.link.base2 = some key) ∧
        create? S (l.evidence true) (l.evidence false) o = .ok l.unsigned ∧
        ∃ signature, l.linkerSignature = some signature ∧
          key.accepts S (l.linkerMessage S) signature = true) ∧
    (S.Signs → ∀ (e1 e2 : LinkedEvidence B) (o : Options) (l l' : Linkage B) (seed : Seed),
      create? S e1 e2 o = .ok l → l.sign S seed = .ok l' → l'.verify S o = .ok ()) := by
  constructor
  · intro l o
    rw [verify_iff_evidence, create?_evidence_iff, checkLinkerSignature_eq_ok_iff]
    simp only [sharedLinker_eq_ok_iff]
    constructor
    · rintro ⟨hsides, key, hlinkers, hsignature⟩
      exact ⟨key, hlinkers, hsides, hsignature⟩
    · rintro ⟨key, hlinkers, hsides, hsignature⟩
      exact ⟨hsides, key, hlinkers, hsignature⟩
  · intro hS e1 e2 o l l' seed hcreate hsign
    obtain ⟨hside, hlink, hverify1, hverify2, rfl⟩ := create?_eq_ok_iff.mp hcreate
    exact verify_of_sign hS (verify_evidence_ofSides hside hlink hverify1 hverify2) hsign

/-- Both sides of the plain link are joined, signed, and give the linkage back. -/
theorem verify_iff_create?_plainSide :
    Suite.plain.Signs ∧ ∃ l l' : Linkage Proof,
      create? .plain (Linker.plainSide false) (Linker.plainSide true) { now := 4 } = .ok l ∧
      l.sign .plain (.padded []) = .ok l' ∧ l'.verify .plain { now := 4 } = .ok () ∧
      create? .plain (l'.evidence true) (l'.evidence false) { now := 4 } = .ok l'.unsigned := by
  have hverify : ∀ isPrimary,
      (Linker.plainSide isPrimary).verify .plain 3 { now := 4 } = .ok () := by
    intro isPrimary
    cases isPrimary <;> decide +kernel
  have hcreate : create? .plain (Linker.plainSide false) (Linker.plainSide true) { now := 4 } =
      .ok (ofSides (Linker.plainSide false) (Linker.plainSide true)) :=
    create?_eq_ok_iff.mpr ⟨Bool.false_ne_true, rfl, hverify false, hverify true, rfl⟩
  have hsign := sign_eq_ok_iff.mpr ⟨(rfl : (ofSides (Linker.plainSide false)
    (Linker.plainSide true)).linker? = some (Suite.plain.publicKey (.padded []))), rfl⟩
  obtain ⟨hiff, hsigned⟩ := verify_iff_create? (B := Proof) .plain
  have hl := hsigned Suite.plain_signs _ _ _ _ _ _ hcreate hsign
  obtain ⟨-, -, hagain, -⟩ := (hiff _ _).mp hl
  exact ⟨Suite.plain_signs, _, _, hcreate, hsign, hl, hagain⟩

end Settlement.Linkage
