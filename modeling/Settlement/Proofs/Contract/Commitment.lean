import Settlement.Proofs.Contract.Compaction
import Settlement.Proofs.Signing.Authenticity

/-!
# What a contract's hash commits to

A contract with its proof is hashed as the record of the proof and two amounts of
eight octets, one after the other and without any frame. The record says where it
ends, so a hash stands for one proof, its signature included, and one pair of
amounts (`Contract.eq_of_hash_eq`). In the record of a contract the hash stands for
the proof, at every level but the lowest (`Contract.record_of_signer_le`); what the
octets of two contracts tell apart is what compaction leaves of them. Both are
`Contract.hash_commits`.
-/

namespace Settlement

namespace Contract

variable {S : Suite}

/-- From the signer's level on all fields of a contract are present. -/
theorem record_of_signer_le (c : Contract) {level : Level} (h : Level.signer ≤ level) :
    Signable.record S level c = Signable.record S .full c := by
  have hpresent : ∀ level, Level.signer ≤ level →
      (Signable.fields S c).filter (·.level ≤ level) = Signable.fields S c := by
    intro level h
    rw [List.filter_eq_self]
    intro f hf
    have hfield : f.level = 0 ∨ f.level = Level.signer := by
      simp only [Signable.fields, List.mem_cons, List.not_mem_nil, or_false] at hf
      rcases hf with rfl | rfl | rfl | rfl
      · exact .inl rfl
      · exact .inr rfl
      · exact .inr rfl
      · exact .inr rfl
    rcases hfield with hzero | hsigner
    · rw [hzero]
      exact decide_eq_true UInt32.zero_le
    · rw [hsigner]
      exact decide_eq_true h
  unfold Signable.record Field.record
  rw [hpresent level h, hpresent .full (by decide)]

/-- The octets of a contract say what compaction leaves of it. -/
theorem canonical_eq_iff {c d : Contract} {level : Level} (h : Level.signer ≤ level) :
    Signable.canonical S level c = Signable.canonical S level d ↔ c.strip S = d.strip S := by
  unfold Signable.canonical
  rw [record_of_signer_le c h, record_of_signer_le d h, ← record_inj]
  constructor
  · intro heq
    exact Cbor.encode_inj (sized_record c _).normalize (sized_record d _).normalize heq
  · intro hnorm
    unfold Cbor.canonical
    rw [hnorm]

/-- All that is hashed for contracts. -/
def contents (S : Suite) (contracts : List Contract) : List Octets :=
  contracts.filterMap (content? S)

theorem hash_ofProof_eq_iff {p q : Proof} {part whole part' whole' : Point}
    (hp : p.WellFormed S) (hq : q.WellFormed S)
    (hfree : S.CollisionFree {o | o ∈ contents S [ofProof p part whole, ofProof q part' whole']}) :
    (ofProof p part whole).hash S = (ofProof q part' whole').hash S ↔
      p = q ∧ part = part' ∧ whole = whole' := by
  constructor
  · intro h
    have hwell : ∀ (p : Proof) (part whole : Point), p.WellFormed S →
        Base.WellFormed S (ofProof p part whole) := by
      rintro p part whole hp _ ⟨⟩
      exact hp
    have heq : ofProof p part whole = ofProof q part' whole' :=
      eq_of_hash_eq (hwell p part whole hp) (hwell q part' whole' hq) hfree rfl rfl
        (.head _) (.tail _ (.head _)) h
    obtain ⟨hbody, hpart, hwhole⟩ := Contract.mk.inj heq
    exact ⟨ContractBody.proof.inj hbody, hpart, hwhole⟩
  · rintro ⟨rfl, rfl, rfl⟩
    rfl

/-- **A hash commits to the whole contract.** As long as the digest does not collide on the
contents of two contracts that have their proofs, their hashes are equal exactly if the proofs are,
signatures included, and both amounts. In the octets of a contract, at any level from the signer's
on, nothing is lost but what compaction takes, whether or not it has been taken already. -/
theorem hash_commits (S : Suite) :
    (∀ (p q : Proof) (part whole part' whole' : Point), p.WellFormed S → q.WellFormed S →
      S.CollisionFree {o | o ∈ contents S [ofProof p part whole, ofProof q part' whole']} →
      ((ofProof p part whole).hash S = (ofProof q part' whole').hash S ↔
        p = q ∧ part = part' ∧ whole = whole')) ∧
    ∀ (c d : Contract) (level : Level), 1 ≤ level →
      (Signable.canonical S level c = Signable.canonical S level d ↔ c.strip S = d.strip S) := by
  refine ⟨?_, fun c d level h => canonical_eq_iff h⟩
  intro p q part whole part' whole' hp hq hfree
  exact hash_ofProof_eq_iff hp hq hfree

/-- A contract that accounts a part of a hundred to a plain proof. -/
def plainPart (part : Int64) : Contract :=
  ofProof (Linker.plainProof (.padded [1])) ⟨part⟩ ⟨100⟩

/-- Another part gives another hash, for one and the same proof; compaction is not seen in the
octets. -/
theorem hash_commits_plainPart :
    Suite.plain.CollisionFree {o | o ∈ contents .plain [plainPart 40, plainPart 41]} ∧
    (plainPart 40).hash .plain ≠ (plainPart 41).hash .plain ∧
    Signable.canonical .plain 7 (plainPart 40) =
      Signable.canonical .plain 7 ((plainPart 40).strip .plain) := by
  obtain ⟨hhash, hcanonical⟩ := hash_commits .plain
  have hfree :
      Suite.plain.CollisionFree {o | o ∈ contents .plain [plainPart 40, plainPart 41]} := by
    decide +kernel
  have hproof := Linker.wellFormed_plainProof (.padded [1])
  refine ⟨hfree, fun heq => ?_, (hcanonical _ _ 7 (by decide)).mpr rfl⟩
  obtain ⟨-, hpart, -⟩ := (hhash _ _ _ _ _ _ hproof hproof hfree).mp heq
  exact absurd hpart (by decide)

end Contract

end Settlement
