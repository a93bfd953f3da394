import Settlement.Proofs.Linkage.Creation
import Settlement.Proofs.Suite.Signing

/-!
# When linkages verify

A linkage verifies exactly if both of its sides do and its linker has signed it
(`Linkage.verify_iff_evidence`). Taken apart it gives back the two evidences it
was made of (`Linkage.evidence_ofSides`), so what a linker signs verifies
whenever both evidences do (`Linker.verify_signedOfSides`). The pool of buffers
has no part in it: `Linkage.fst_verifyWithPool`.
-/

namespace Settlement

variable {B : Type}

namespace Linkage

/-- The side of an evidence in the linkage is that evidence. -/
theorem evidence_ofSides {e1 e2 : LinkedEvidence B}
    (hside : e1.body.isPrimary ≠ e2.body.isPrimary) (hlink : e1.body.link = e2.body.link) :
    (ofSides e1 e2).evidence e1.body.isPrimary = e1 ∧
      (ofSides e1 e2).evidence e2.body.isPrimary = e2 := by
  obtain ⟨⟨side1, link1⟩, signatures1⟩ := e1
  obtain ⟨⟨side2, link2⟩, signatures2⟩ := e2
  obtain rfl : link1 = link2 := hlink
  cases side1 with
  | true =>
      cases side2 with
      | true => exact absurd rfl hside
      | false => exact ⟨rfl, rfl⟩
  | false =>
      cases side2 with
      | true => exact ⟨rfl, rfl⟩
      | false => exact absurd rfl hside

variable [Base B] {S : Suite}

/-- A linkage's message does not cover the linker's signature. -/
theorem linkerMessage_attach (l : Linkage B) (signature : Signature) :
    (l.attach signature).linkerMessage S = l.linkerMessage S := rfl

theorem verify_eq_ok_iff {l : Linkage B} {o : Options} : l.verify S o = .ok () ↔
    l.verifyBases S o = .ok () ∧ (l.evidence true).checkSignatures S o.mergerCap = .ok () ∧
      (l.evidence false).checkSignatures S o.mergerCap = .ok () ∧
      l.checkLinkerSignature S = .ok () := by
  unfold verify
  rw [check_bind_eq_ok_iff, check_bind_eq_ok_iff, check_bind_eq_ok_iff]

theorem verifyBases_eq_ok_iff {l : Linkage B} {o : Options} : l.verifyBases S o = .ok () ↔
    (∃ key, l.sharedLinker = .ok key) ∧ Base.verify S l.link.base1 o = .ok () ∧
      Base.verify S l.link.base2 o = .ok () := by
  unfold verifyBases
  rw [bind_eq_ok_iff]
  simp only [check_bind_eq_ok_iff, exists_and_right]

theorem checkLinkerSignature_eq_ok_iff {l : Linkage B} : l.checkLinkerSignature S = .ok () ↔
    ∃ key, l.sharedLinker = .ok key ∧ ∃ signature, l.linkerSignature = some signature ∧
      key.accepts S (l.linkerMessage S) signature = true := by
  unfold checkLinkerSignature
  rw [bind_eq_ok_iff]
  refine exists_congr fun key => and_congr_right fun _ => ?_
  cases l.linkerSignature with
  | none => exact ⟨nofun, fun ⟨_, h, _⟩ => nomatch h⟩
  | some signature =>
      simp only [Option.some.injEq, exists_eq_left']
      split
      · next h => exact iff_of_true rfl h
      · next h => exact iff_of_false nofun h

/-- The linker's own signature is accepted. -/
theorem checkLinkerSignature_attach (hS : S.Signs) {l : Linkage B} {seed : Seed}
    (h : l.sharedLinker = .ok (S.publicKey seed)) :
    (l.attach (S.sign seed (l.linkerMessage S))).checkLinkerSignature S = .ok () := by
  refine bind_eq_ok_iff.mpr ⟨S.publicKey seed, h, ?_⟩
  have haccepts : (S.publicKey seed).accepts S
      ((l.attach (S.sign seed (l.linkerMessage S))).linkerMessage S)
      (S.sign seed (l.linkerMessage S)) = true := by
    rw [linkerMessage_attach]
    exact hS.accepts seed _
  exact if_pos haccepts

/-! ## Verification by sides -/

section

variable {o : Options} {l l' : Linkage B}

/-- Each side of a linkage verifies if both bases do and its own mergers have signed. -/
theorem verify_evidence_iff (isPrimary : Bool) :
    (l.evidence isPrimary).verify S o.mergerCap o = .ok () ↔
      (Base.verify S l.link.base1 o = .ok () ∧ Base.verify S l.link.base2 o = .ok ()) ∧
        (l.evidence isPrimary).checkSignatures S o.mergerCap = .ok () :=
  Evidence.verify_eq_ok_iff.trans (and_congr_left' LinkedEvidence.verifyBases_eq_ok_iff)

theorem verify_iff_evidence : l.verify S o = .ok () ↔
    (∀ isPrimary, (l.evidence isPrimary).verify S o.mergerCap o = .ok ()) ∧
      l.checkLinkerSignature S = .ok () := by
  rw [verify_eq_ok_iff, verifyBases_eq_ok_iff]
  constructor
  · rintro ⟨⟨-, hbases⟩, hprimary, hsecondary, hlinker⟩
    refine ⟨fun isPrimary => (verify_evidence_iff isPrimary).mpr ⟨hbases, ?_⟩, hlinker⟩
    cases isPrimary with
    | true => exact hprimary
    | false => exact hsecondary
  · rintro ⟨hsides, hlinker⟩
    obtain ⟨hbases, hprimary⟩ := (verify_evidence_iff true).mp (hsides true)
    obtain ⟨-, hsecondary⟩ := (verify_evidence_iff false).mp (hsides false)
    -- the check of the linker's signature asks both bases for the linker once more
    obtain ⟨key, hshared, -⟩ := checkLinkerSignature_eq_ok_iff.mp hlinker
    exact ⟨⟨⟨key, hshared⟩, hbases⟩, hprimary, hsecondary, hlinker⟩

/-- The two sides of one link are those of the linkage that is made of them. -/
theorem verify_evidence_ofSides {e1 e2 : LinkedEvidence B}
    (hside : e1.body.isPrimary ≠ e2.body.isPrimary) (hlink : e1.body.link = e2.body.link)
    (hverify1 : e1.verify S o.mergerCap o = .ok ()) (hverify2 : e2.verify S o.mergerCap o = .ok ())
    (isPrimary : Bool) : ((ofSides e1 e2).evidence isPrimary).verify S o.mergerCap o = .ok () := by
  obtain ⟨hevidence1, hevidence2⟩ := evidence_ofSides hside hlink
  by_cases hsame : isPrimary = e1.body.isPrimary
  · rw [hsame, hevidence1]
    exact hverify1
  · have hother : isPrimary = e2.body.isPrimary := by
      rw [Bool.eq_not_of_ne hsame, Bool.eq_not_of_ne hside, Bool.not_not]
    rw [hother, hevidence2]
    exact hverify2

/-- A linkage with sides that verify does so too once the linker of its bases has signed. -/
theorem verify_of_sign (hS : S.Signs) {seed : Seed}
    (hsides : ∀ isPrimary, (l.evidence isPrimary).verify S o.mergerCap o = .ok ())
    (hsign : l.sign S seed = .ok l') : l'.verify S o = .ok () := by
  obtain ⟨hlinker, rfl⟩ := sign_eq_ok_iff.mp hsign
  have hshared : l.sharedLinker = .ok (S.publicKey seed) :=
    sharedLinker_eq_ok_iff.mpr (linker?_eq_some_iff.mp hlinker)
  -- the linker's signature is on no side
  exact verify_iff_evidence.mpr ⟨hsides, checkLinkerSignature_attach hS hshared⟩

end

/-! ## Verification in a buffer -/

/-- The signatures are checked as without a buffer, whatever it holds. -/
theorem fst_verifyIn (l : Linkage B) (o : Options) (r : Rented B) :
    (l.verifyIn S o r).1 = (do
      (l.evidence true).checkSignatures S o.mergerCap
      (l.evidence false).checkSignatures S o.mergerCap
      l.checkLinkerSignature S) := by
  unfold verifyIn
  simp only [Rented.load_eq]
  cases (l.evidence true).checkSignatures S o.mergerCap with
  | error fault => rfl
  | ok _ =>
      cases (l.evidence false).checkSignatures S o.mergerCap with
      | error fault => rfl
      | ok _ => rfl

/-- A pool has no part in the result. -/
theorem fst_verifyWithPool (l : Linkage B) (o : Options) (pool : EvidencePool B) :
    (l.verifyWithPool S o pool).1 = l.verify S o := by
  unfold verifyWithPool verify
  cases l.verifyBases S o with
  | error fault => rfl
  | ok _ => exact fst_verifyIn l o pool.rent.1

end Linkage

namespace Linker

variable [Base B] {S : Suite} {k : Linker B}

theorem fst_verify (k : Linker B) (l : Linkage B) (now : Mics) :
    (k.verify S l now).1 = (l.verify S (k.config.optionsAt now)).mapError .validation := by
  unfold verify
  simp only [Linkage.fst_verifyWithPool]

/-- What a linker signs for two sides verifies wherever both of them do. -/
theorem verify_signedOfSides (hS : S.Signs) {e1 e2 : LinkedEvidence B}
    (haddressed : k.isAddressed S e1 = true) (hside : e1.body.isPrimary ≠ e2.body.isPrimary)
    (hlink : e1.body.link = e2.body.link) {o : Options}
    (h1 : e1.verify S o.mergerCap o = .ok ()) (h2 : e2.verify S o.mergerCap o = .ok ()) :
    (k.signedOfSides S e1 e2).verify S o = .ok () := by
  have hlinker : (Linkage.ofSides e1 e2).linker? = some (S.publicKey k.seed) := by
    rw [Linkage.linker?_eq_some_iff, Linkage.ofSides_link hlink]
    exact isAddressed_iff.mp haddressed
  exact Linkage.verify_of_sign hS (Linkage.verify_evidence_ofSides hside hlink h1 h2)
    (Linkage.sign_eq_ok_iff.mpr ⟨hlinker, rfl⟩)

end Linker

end Settlement
