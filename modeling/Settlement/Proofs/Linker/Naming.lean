import Settlement.Proofs.Linkage.Faults
import Settlement.Proofs.Linker.Compaction

/-!
# Names of links and links

Two pieces of a linker ask whether two evidences are of one link. The table of
waiting evidences compares names, which are digests of both bases' records put
together without a frame; the creation of a linkage compares instants and bases
member by member (`Linkage.reportsMismatch_iff`). They agree, for proofs and for
contracts that have their proofs, as long as nothing collides in what is hashed
for the two evidences: `key_names_link`.
-/

namespace Settlement

variable {S : Suite}

namespace Linkage

variable {B : Type} [Base B] [DecidableEq B] {a b : LinkedEvidence B} {o : Options}

/-- Creation finds that two evidences are of different links. -/
def ReportsMismatch (S : Suite) (o : Options) (a b : LinkedEvidence B) : Prop :=
  (∃ primary secondary, create? S a b o = .error (.linkedMicsMismatch primary secondary)) ∨
    create? S a b o = .error .baseMismatch

/-- Two sides are refused for their links exactly if these differ, whatever else stands against
them. -/
theorem reportsMismatch_iff (hsides : a.body.isPrimary ≠ b.body.isPrimary) :
    ReportsMismatch S o a b ↔ a.body.link ≠ b.body.link := by
  obtain ⟨primary, secondary, hopposed⟩ := exists_opposed hsides
  constructor
  · intro h heq
    have hlink := hopposed.link_eq_iff.mpr heq
    -- against two sides of one link stands at most that they do not verify
    have hlater : ∀ fault, create? S a b o = .error fault → 3 ≤ fault.rank := by
      intro fault hfault
      have hobjection := (create?_eq_error_iff.mp hfault).objection
      rcases hobjection.verify_error hopposed hlink with ⟨hrank, -⟩ | ⟨hrank, -⟩ <;> omega
    rcases h with ⟨x, y, h⟩ | h
    · exact absurd (hlater _ h) (show ¬ 3 ≤ 1 by decide)
    · exact absurd (hlater _ h) (show ¬ 3 ≤ 2 by decide)
  · intro hne
    have hlink : primary.body.link ≠ secondary.body.link := hne ∘ hopposed.link_eq_iff.mp
    unfold ReportsMismatch
    rw [hopposed.create?_eq]
    cases hjoin : joinSides? S primary secondary o with
    | ok l => exact absurd (joinSides?_eq_ok_iff.mp hjoin).1 hlink
    | error fault =>
        rcases joinSides?_error_cases hjoin with
          ⟨-, rfl⟩ | ⟨-, -, rfl⟩ | ⟨heq, -⟩ | ⟨heq, -⟩
        · exact .inl ⟨_, _, rfl⟩
        · exact .inr rfl
        · exact absurd heq hlink
        · exact absurd heq hlink

end Linkage

/-- The names of two evidences agree with what is compared when a linkage is created: names are
equal exactly if the instants and both bases are, and for two opposite sides names differ exactly
if creation refuses them as sides of different links. -/
structure LinkedEvidence.NamesAgree {B : Type} [Base B] [DecidableEq B] (S : Suite)
    (a b : LinkedEvidence B) : Prop where
  key_eq_iff : a.body.link.key S = b.body.link.key S ↔
    a.body.link.linkedMics = b.body.link.linkedMics ∧
      a.body.link.base1 = b.body.link.base1 ∧ a.body.link.base2 = b.body.link.base2
  key_ne_iff : a.body.isPrimary ≠ b.body.isPrimary → ∀ o : Options,
    a.body.link.key S ≠ b.body.link.key S ↔ Linkage.ReportsMismatch S o a b

section

open Storage

variable {B : Type} [Base B] [Stored B] [LinkableBase B]

/-- All that is hashed to name the links of two evidences. -/
def LinkedEvidence.hashedForNames (S : Suite) (a b : LinkedEvidence B) : List Octets :=
  a.body.link.hashed S ++ b.body.link.hashed S

/-- A link whose bases both have their proofs. -/
def Link.IsWhole (l : Link B) : Prop := (Base.proof? l.base1).isSome ∧ (Base.proof? l.base2).isSome

theorem LinkedEvidence.namesAgree [DecidableEq B] {a b : LinkedEvidence B}
    (hfree : S.CollisionFree {o | o ∈ a.hashedForNames S b}) (ha : a.body.link.WellFormed S)
    (hb : b.body.link.WellFormed S) (hawhole : a.body.link.IsWhole)
    (hbwhole : b.body.link.IsWhole) : a.NamesAgree S b := by
  have hknowna : a.body.link.Known S {o | o ∈ a.hashedForNames S b} :=
    ⟨ha, hawhole.1, hawhole.2, fun _ => List.mem_append_left _⟩
  have hknownb : b.body.link.Known S {o | o ∈ a.hashedForNames S b} :=
    ⟨hb, hbwhole.1, hbwhole.2, fun _ => List.mem_append_right _⟩
  have hkey : a.body.link.key S = b.body.link.key S ↔ a.body.link = b.body.link := by
    constructor
    · intro h
      exact Link.eq_of_key_eq hfree hknowna hknownb h
    · intro h
      rw [h]
  constructor
  · rw [hkey]
    constructor
    · intro h
      rw [h]
      exact ⟨rfl, rfl, rfl⟩
    · rintro ⟨hmics, hbase1, hbase2⟩
      exact Link.ext hmics hbase1 hbase2
  · intro hsides o
    rw [Linkage.reportsMismatch_iff hsides]
    exact not_congr hkey

end

theorem Link.isWhole_of_not_isCompacted {l : Link Contract} (h : ¬ l.IsCompacted) : l.IsWhole := by
  obtain ⟨h1, h2⟩ := not_or.mp h
  have hproof : ∀ c : Contract, ¬ c.isStripped = true → (Base.proof? c).isSome := by
    intro c hc
    rw [Option.isSome_iff_ne_none]
    intro hnone
    exact hc (Option.isNone_iff_eq_none.mpr hnone)
  exact ⟨hproof _ h1, hproof _ h2⟩

/-- **A name stands for one link.** The table of waiting evidences and the creation of a linkage
agree on which evidences belong together: over proofs, and over contracts none of which is
compacted, as long as the digest does not collide on what is hashed for the two evidences. -/
theorem key_names_link (S : Suite) :
    (∀ a b : LinkedEvidence Proof, a.body.link.WellFormed S → b.body.link.WellFormed S →
      S.CollisionFree {o | o ∈ a.hashedForNames S b} → a.NamesAgree S b) ∧
    ∀ a b : LinkedEvidence Contract, a.body.link.WellFormed S → b.body.link.WellFormed S →
      ¬ a.body.link.IsCompacted → ¬ b.body.link.IsCompacted →
      S.CollisionFree {o | o ∈ a.hashedForNames S b} → a.NamesAgree S b := by
  constructor
  · intro a b ha hb hfree
    exact LinkedEvidence.namesAgree hfree ha hb ⟨rfl, rfl⟩ ⟨rfl, rfl⟩
  · intro a b ha hb hwholea hwholeb hfree
    exact LinkedEvidence.namesAgree hfree ha hb (Link.isWhole_of_not_isCompacted hwholea)
      (Link.isWhole_of_not_isCompacted hwholeb)

/-- The secondary side of a link between the contracts of the plain side in the other order. -/
def turnedContractSide : LinkedEvidence Contract :=
  LinkedEvidence.ofProofs false 5 (Linker.plainProof (.padded [2]))
    (Linker.plainProof (.padded [1]))

/-- The bases of a link count in their order, for its name as for its creation; both sides of a
link of proofs are of one name, and are not refused as sides of different links. -/
theorem key_names_link_turnedContractSide :
    (Suite.plain.CollisionFree
        {o | o ∈ plainContractSide.hashedForNames .plain turnedContractSide} ∧
      plainContractSide.body.link.key .plain ≠ turnedContractSide.body.link.key .plain ∧
      Linkage.ReportsMismatch .plain { now := 4 } plainContractSide turnedContractSide) ∧
    Suite.plain.CollisionFree
        {o | o ∈ (Linker.plainSide true).hashedForNames .plain (Linker.plainSide false)} ∧
      (Linker.plainSide true).body.link.key .plain =
        (Linker.plainSide false).body.link.key .plain ∧
      ¬ Linkage.ReportsMismatch .plain { now := 4 } (Linker.plainSide true)
        (Linker.plainSide false) := by
  obtain ⟨hproofs, hcontracts⟩ := key_names_link .plain
  constructor
  · have hfree : Suite.plain.CollisionFree
        {o | o ∈ plainContractSide.hashedForNames .plain turnedContractSide} := by
      decide +kernel
    have hwhole : ∀ e : LinkedEvidence Contract, e.body.link.base1.isStripped = false →
        e.body.link.base2.isStripped = false → ¬ e.body.link.IsCompacted := by
      rintro e h1 h2 (h | h)
      · cases h1.symm.trans h
      · cases h2.symm.trans h
    have hagree : plainContractSide.NamesAgree .plain turnedContractSide :=
      hcontracts plainContractSide turnedContractSide
        ⟨wellFormed_wholeOf_plainProof _, wellFormed_wholeOf_plainProof _⟩
        ⟨wellFormed_wholeOf_plainProof _, wellFormed_wholeOf_plainProof _⟩
        (hwhole _ rfl rfl) (hwhole _ rfl rfl) hfree
    have hkey :
        plainContractSide.body.link.key .plain ≠ turnedContractSide.body.link.key .plain := by
      intro h
      obtain ⟨-, hbase, -⟩ := hagree.key_eq_iff.mp h
      exact absurd hbase (by decide)
    exact ⟨hfree, hkey, (hagree.key_ne_iff (by decide) { now := 4 }).mp hkey⟩
  · have hfree : Suite.plain.CollisionFree
        {o | o ∈ (Linker.plainSide true).hashedForNames .plain (Linker.plainSide false)} := by
      decide +kernel
    have hagree : (Linker.plainSide true).NamesAgree .plain (Linker.plainSide false) :=
      hproofs _ _ (Linker.wellFormed_plainSide true) (Linker.wellFormed_plainSide false) hfree
    have hkey := hagree.key_eq_iff.mpr ⟨rfl, rfl, rfl⟩
    exact ⟨hfree, hkey, fun h => (hagree.key_ne_iff (by decide) _).mpr h hkey⟩

end Settlement
