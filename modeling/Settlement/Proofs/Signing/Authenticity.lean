import Settlement.Proofs.Evidence.Cosigning
import Settlement.Proofs.Linkage.Verification
import Settlement.Proofs.Linker.Matching
import Settlement.Proofs.Proof.Signing
import Settlement.Proofs.Proof.Verification
import Settlement.Proofs.Signing.Messages

/-!
# What a signature speaks for

A verifier chooses the key and the message from the object that it is handed,
so whoever hands it over may change both at once: the slot of the signer, the
side, the credit, the linker. It does not help. Where signatures are authentic
a verified signature was made over the message of this object
(`Signed.coverage_eq_of_accepts`), and the message says all that the object
says, but for the signatures of its own kind. So what carries the signature of
another object and verifies is that object: `signature_authenticates`.

Over contracts a merger sees the bases compacted. The base of its own side has
its proof wherever the merger's signature is checked; of the other base the
merger vouches for the hash and the amounts.
-/

namespace Settlement

variable {S : Suite} {messages contents : Set Octets} {seed : Seed}

/-! ## Messages in play -/

namespace Signed

/-- An object of well-formed values that is signed by one of the messages, and whose contracts have
their contents among those given. -/
structure InPlay (S : Suite) (messages contents : Set Octets) (a : Signed) : Prop where
  wellFormed : a.WellFormed S
  message : a.message S ∈ messages
  contents : ∀ c ∈ a.contracts, ∀ o, c.content? S = some o → o ∈ contents

/-- A signature over one object that is accepted for another one says the same of both. -/
theorem coverage_eq_of_accepts (hS : S.Authentic messages) {a b : Signed}
    (ha : a.InPlay S messages contents) (hb : b.InPlay S messages contents) {key : PublicKey}
    (h : key.accepts S (b.message S) (S.sign seed (a.message S)) = true) :
    b.coverage.strip S = a.coverage.strip S := by
  obtain ⟨-, hmessage⟩ := hS seed _ ha.message _ hb.message key h
  exact (entries_eq_iff b a).mp ((message_eq_iff_entries hb.wellFormed ha.wellFormed).mp hmessage)

end Signed

/-! ## Proofs -/

namespace Proof

variable {p p' : Proof} {requested now : Mics} {policy : Policy}

/-- The signature of a proof is over the message that the signed proof has. -/
theorem signature_of_sign (h : p.sign S seed requested policy now = .ok p') :
    p'.signature = some (S.sign seed (p'.signerMessage S)) := by
  obtain ⟨a, -, rfl⟩ := sign_eq_ok_iff.mp h
  rw [signerMessage_attach]
  rfl

/-- A proof that verifies has a signature that some key accepts. -/
theorem exists_accepts_of_verify {o : Options} (h : p.verify S o = .ok ()) :
    ∃ signature, p.signature = some signature ∧
      ∃ key : PublicKey, key.accepts S (p.signerMessage S) signature = true := by
  obtain ⟨-, hsignature⟩ := verify_eq_ok_iff.mp h
  obtain ⟨signature, key, hsome, -, haccepts⟩ := checkSignature_eq_ok_iff.mp hsignature
  exact ⟨signature, hsome, key, haccepts⟩

end Proof

/-! ## Evidences -/

namespace Evidence

variable {β : Type} [EvidenceBody β] {e e' : Evidence β} {index : Nat}

/-- The merger with the index filled its slot with a signature by the seed. Slots of other mergers
may have been filled before and after. -/
def FilledBy (S : Suite) (seed : Seed) (index : Nat) (e : Evidence β) : Prop :=
  ∃ before after : Evidence β, before.sign S index seed = .ok after ∧ after.body = e.body ∧
    after.signatures.get? index = e.signatures.get? index

theorem FilledBy.get?_eq (h : e.FilledBy S seed index) :
    e.signatures.get? index = some (S.sign seed (e.mergerMessage S index)) := by
  obtain ⟨before, after, hsign, hbody, hslot⟩ := h
  obtain ⟨hindex, -, rfl⟩ := sign_eq_ok_iff.mp hsign
  have hsame : before.body = e.body := hbody
  have hmessage : e.mergerMessage S index = before.mergerMessage S index :=
    mergerMessage_congr hsame.symm hindex
  rw [← hslot, hmessage]
  exact before.signatures.get?_set_self hindex _

theorem isSome_proof?_of_credit? {credit : Credit} (h : e.credit? = some credit) :
    (EvidenceBody.proof? e.body).isSome := by
  obtain ⟨p, hproof, -⟩ := Option.map_eq_some_iff.mp h
  exact Option.isSome_iff_exists.mpr ⟨p, hproof⟩

/-- The slot of a merger can be filled only as long as the credit is known. -/
theorem FilledBy.isSome_proof? (h : e.FilledBy S seed index) :
    (EvidenceBody.proof? e.body).isSome := by
  obtain ⟨before, after, hsign, hbody, -⟩ := h
  obtain ⟨-, ⟨credit, hcredit, -⟩, rfl⟩ := sign_eq_ok_iff.mp hsign
  rw [← hbody]
  exact isSome_proof?_of_credit? hcredit

/-- The signature of the first merger, put into another evidence of which it is checked, is accepted
there by some key. -/
theorem FilledBy.exists_accepts (h : e.FilledBy S seed 0)
    (hslot : e'.signatures.get? 0 = e.signatures.get? 0)
    (hmergers : ∀ credit, e'.credit? = some credit → 1 ≤ credit.mergers.length) {cap : Nat}
    (hcap : 1 ≤ cap) (hcheck : e'.checkSignatures S cap = .ok ()) :
    ∃ key : PublicKey,
      key.accepts S (e'.mergerMessage S 0) (S.sign seed (e.mergerMessage S 0)) = true := by
  obtain ⟨credit, hcredit, hcosigned⟩ := checkSignatures_eq_ok_iff.mp hcheck
  have hpos : 0 < credit.mergers.length := hmergers credit hcredit
  have hfirst : credit.merger? 0 = some credit.mergers[0] := List.getElem?_eq_getElem hpos
  obtain ⟨signature, hsignature, haccepts⟩ := cosigned_iff.mp (hcosigned 0 hcap _ hfirst)
  rw [hslot, h.get?_eq] at hsignature
  obtain rfl := Option.some.inj hsignature
  exact ⟨_, haccepts⟩

theorem isSome_proof?_of_checkSignatures {cap : Nat} (h : e.checkSignatures S cap = .ok ()) :
    (EvidenceBody.proof? e.body).isSome := by
  obtain ⟨credit, hcredit, -⟩ := checkSignatures_eq_ok_iff.mp h
  exact isSome_proof?_of_credit? hcredit

end Evidence

namespace Side

variable {B : Type}

/-- The base of a side is one of the two. -/
theorem base_mem (s : Side B) : s.base ∈ [s.link.base1, s.link.base2] := by
  unfold base
  split
  · exact .head _
  · exact .tail _ (.head _)

theorem wellFormed_base [Base B] {s : Side B} (h : s.link.WellFormed S) :
    Base.WellFormed S s.base := by
  unfold base
  split
  · exact h.base1
  · exact h.base2

/-- Sides that are equal but for compaction have equal bases, but for compaction. -/
theorem strip_base_eq {s s' : Side Contract} (hside : s.isPrimary = s'.isPrimary)
    (hlink : s.link.strip S = s'.link.strip S) : s.base.strip S = s'.base.strip S := by
  obtain ⟨-, hbase1, hbase2⟩ := Link.mk.inj hlink
  unfold base
  rw [hside]
  split
  · exact hbase1
  · exact hbase2

end Side

theorem LinkedEvidence.one_le_mergers {B : Type} [Base B] {e : LinkedEvidence B}
    (h : e.body.link.WellFormed S) {credit : Credit} (hcredit : e.credit? = some credit) :
    1 ≤ credit.mergers.length := by
  obtain ⟨p, hproof, rfl⟩ := Option.map_eq_some_iff.mp hcredit
  exact (Side.wellFormed_base h p hproof).credit.one_le_mergers

/-! ## Linkages -/

namespace Linkage

variable {B : Type} [Base B] {before l l' : Linkage B}

/-- The linker's signature, put into another linkage that verifies, is accepted there by some
key. -/
theorem exists_accepts_of_sign (h : before.sign S seed = .ok l)
    (hsignature : l'.linkerSignature = l.linkerSignature) {o : Options}
    (hverify : l'.verify S o = .ok ()) :
    ∃ key : PublicKey,
      key.accepts S (l'.linkerMessage S) (S.sign seed (l.linkerMessage S)) = true := by
  obtain ⟨-, rfl⟩ := sign_eq_ok_iff.mp h
  obtain ⟨-, -, -, hlinker⟩ := verify_eq_ok_iff.mp hverify
  obtain ⟨key, -, signature, hsome, haccepts⟩ := checkLinkerSignature_eq_ok_iff.mp hlinker
  rw [hsignature] at hsome
  obtain rfl := Option.some.inj hsome
  exact ⟨key, haccepts⟩

theorem linkers_of_sign (h : before.sign S seed = .ok l) :
    ∃ key, Base.linker? l.link.base1 = some key ∧ Base.linker? l.link.base2 = some key := by
  obtain ⟨hlinker, rfl⟩ := sign_eq_ok_iff.mp h
  exact ⟨_, linker?_eq_some_iff.mp hlinker⟩

theorem linkers_of_verify {o : Options} (h : l.verify S o = .ok ()) :
    ∃ key, Base.linker? l.link.base1 = some key ∧ Base.linker? l.link.base2 = some key := by
  obtain ⟨hbases, -⟩ := verify_eq_ok_iff.mp h
  obtain ⟨⟨key, hshared⟩, -⟩ := verifyBases_eq_ok_iff.mp hbases
  exact ⟨key, sharedLinker_eq_ok_iff.mp hshared⟩

end Linkage

/-! ## Contracts in play -/

namespace Contract

variable {c c' : Contract}

theorem exists_content?_of_isSome (h : (Base.proof? c).isSome) :
    ∃ o, c.content? S = some o := by
  obtain ⟨p, hp⟩ := Option.isSome_iff_exists.mp h
  exact ⟨_, congrArg _ hp⟩

/-- A contract that names a linker has its content in play with the other contents. -/
theorem exists_content_mem {key : PublicKey} (hlinker : Base.linker? c = some key)
    (h : ∀ o, c.content? S = some o → o ∈ contents) : ∃ o ∈ contents, c.content? S = some o := by
  obtain ⟨o, ho⟩ := exists_content?_of_isSome (S := S) (Base.isSome_proof?_of_linker? hlinker)
  exact ⟨o, h o ho, ho⟩

end Contract

/-- The contents of two contracts that name a linker are in play if the linkage is. -/
theorem Signed.InPlay.contents_of_linkers {l : Linkage Contract}
    (h : (Signed.contractLinkage l).InPlay S messages contents)
    (hlinkers : ∃ key, Base.linker? l.link.base1 = some key ∧ Base.linker? l.link.base2 = some key) :
    ∀ c ∈ [l.link.base1, l.link.base2], ∃ o ∈ contents, c.content? S = some o := by
  obtain ⟨key, hlinker1, hlinker2⟩ := hlinkers
  intro c hc
  have hlinker : Base.linker? c = some key := by
    rcases List.mem_cons.mp hc with rfl | hc
    · exact hlinker1
    · obtain rfl := List.mem_singleton.mp hc
      exact hlinker2
  exact Contract.exists_content_mem hlinker (h.contents c hc)

/-! ## One signature, one object -/

attribute [ext] Proof Linkage

/-- The place of the merger who signs first. -/
def firstMerger : Fin maxMergers := ⟨0, by decide⟩

section

variable (hS : S.Authentic messages) (hfree : S.CollisionFree contents)
include hS

theorem Proof.eq_of_signature_eq {blank p p' : Proof} {requested now : Mics} {policy : Policy}
    {o : Options} (hsign : blank.sign S seed requested policy now = .ok p)
    (hsignature : p'.signature = p.signature) (hp : (Signed.proof p).InPlay S messages contents)
    (hp' : (Signed.proof p').InPlay S messages contents) (hverify : p'.verify S o = .ok ()) :
    p' = p := by
  obtain ⟨signature, hsome, key, haccepts⟩ := Proof.exists_accepts_of_verify hverify
  rw [hsignature, Proof.signature_of_sign hsign] at hsome
  obtain rfl := Option.some.inj hsome
  obtain ⟨hassertion, hsigned, hexpiration⟩ :=
    Coverage.proof.inj (Signed.coverage_eq_of_accepts hS hp hp' haccepts)
  exact Proof.ext hassertion hsigned hexpiration hsignature

theorem ProofEvidence.body_eq_of_slot_eq {e e' : ProofEvidence} {cap : Nat}
    (hfilled : e.FilledBy S seed 0) (hslot : e'.signatures.get? 0 = e.signatures.get? 0)
    (he : (Signed.proofEvidence firstMerger e).InPlay S messages contents)
    (he' : (Signed.proofEvidence firstMerger e').InPlay S messages contents) (hcap : 1 ≤ cap)
    (hcheck : e'.checkSignatures S cap = .ok ()) : e'.body = e.body := by
  have hmergers : ∀ credit, e'.credit? = some credit → 1 ≤ credit.mergers.length := by
    rintro _ ⟨⟩
    exact (Proof.WellFormed.credit he'.wellFormed).one_le_mergers
  obtain ⟨key, haccepts⟩ := hfilled.exists_accepts hslot hmergers hcap hcheck
  obtain ⟨-, hproof⟩ :=
    Coverage.proofEvidence.inj (Signed.coverage_eq_of_accepts hS he he' haccepts)
  exact congrArg ProofBody.mk hproof

theorem LinkedEvidence.body_eq_of_slot_eq {e e' : LinkedEvidence Proof} {cap : Nat}
    (hfilled : e.FilledBy S seed 0) (hslot : e'.signatures.get? 0 = e.signatures.get? 0)
    (he : (Signed.linkedProofs firstMerger e).InPlay S messages contents)
    (he' : (Signed.linkedProofs firstMerger e').InPlay S messages contents) (hcap : 1 ≤ cap)
    (hcheck : e'.checkSignatures S cap = .ok ()) : e'.body = e.body := by
  obtain ⟨key, haccepts⟩ := hfilled.exists_accepts hslot
    (fun _ => LinkedEvidence.one_le_mergers he'.wellFormed) hcap hcheck
  obtain ⟨-, hside, hlink⟩ :=
    Coverage.linkedProofs.inj (Signed.coverage_eq_of_accepts hS he he' haccepts)
  exact Side.ext hside hlink

theorem Linkage.eq_of_linkerSignature_eq {before l l' : Linkage Proof} {o : Options}
    (hsign : before.sign S seed = .ok l) (hsignature : l'.linkerSignature = l.linkerSignature)
    (hl : (Signed.proofLinkage l).InPlay S messages contents)
    (hl' : (Signed.proofLinkage l').InPlay S messages contents)
    (hverify : l'.verify S o = .ok ()) : l' = l := by
  obtain ⟨key, haccepts⟩ := Linkage.exists_accepts_of_sign hsign hsignature hverify
  obtain ⟨hlink, hprimary, hsecondary⟩ :=
    Coverage.proofLinkage.inj (Signed.coverage_eq_of_accepts hS hl hl' haccepts)
  exact Linkage.ext hlink hprimary hsecondary hsignature

include hfree

/-- A merger over contracts vouches for the base of its own side as it is, and for what compaction
leaves of the other one. -/
theorem LinkedEvidence.side_eq_of_slot_eq {e e' : LinkedEvidence Contract} {cap : Nat}
    (hfilled : e.FilledBy S seed 0) (hslot : e'.signatures.get? 0 = e.signatures.get? 0)
    (he : (Signed.linkedContracts firstMerger e).InPlay S messages contents)
    (he' : (Signed.linkedContracts firstMerger e').InPlay S messages contents) (hcap : 1 ≤ cap)
    (hcheck : e'.checkSignatures S cap = .ok ()) :
    e'.body.isPrimary = e.body.isPrimary ∧ e'.body.base = e.body.base ∧
      e'.body.link.strip S = e.body.link.strip S := by
  obtain ⟨key, haccepts⟩ := hfilled.exists_accepts hslot
    (fun _ => LinkedEvidence.one_le_mergers he'.wellFormed) hcap hcheck
  obtain ⟨-, hside, hlink⟩ :=
    Coverage.linkedContracts.inj (Signed.coverage_eq_of_accepts hS he he' haccepts)
  -- where mergers sign and where their signatures are checked, the base of the side has its proof
  obtain ⟨x, hx⟩ := Contract.exists_content?_of_isSome (S := S) hfilled.isSome_proof?
  obtain ⟨x', hx'⟩ := Contract.exists_content?_of_isSome (S := S)
    (Evidence.isSome_proof?_of_checkSignatures hcheck)
  have hbase : e'.body.base = e.body.base :=
    Contract.eq_of_strip_eq (Side.wellFormed_base he'.wellFormed)
      (Side.wellFormed_base he.wellFormed) hfree hx' hx
      (he'.contents _ e'.body.base_mem x' hx') (he.contents _ e.body.base_mem x hx)
      (Side.strip_base_eq hside hlink)
  exact ⟨hside, hbase, hlink⟩

theorem Linkage.contracts_eq_of_linkerSignature_eq {before l l' : Linkage Contract} {o : Options}
    (hsign : before.sign S seed = .ok l) (hsignature : l'.linkerSignature = l.linkerSignature)
    (hl : (Signed.contractLinkage l).InPlay S messages contents)
    (hl' : (Signed.contractLinkage l').InPlay S messages contents)
    (hverify : l'.verify S o = .ok ()) : l' = l := by
  obtain ⟨key, haccepts⟩ := Linkage.exists_accepts_of_sign hsign hsignature hverify
  obtain ⟨hstrip, hprimary, hsecondary⟩ :=
    Coverage.contractLinkage.inj (Signed.coverage_eq_of_accepts hS hl hl' haccepts)
  have hlink : l'.link = l.link :=
    Link.eq_of_strip_eq hl'.wellFormed hl.wellFormed hfree
      (hl'.contents_of_linkers (Linkage.linkers_of_verify hverify))
      (hl.contents_of_linkers (Linkage.linkers_of_sign hsign)) hstrip
  exact Linkage.ext hlink hprimary hsecondary hsignature

end

/-- **A signature authenticates one object.** Let the signatures of a suite be authentic on the
messages in play. A proof, a co-signed evidence or a linkage that carries the signature of another
one and verifies is that other one, whatever has been changed in it and whatever the terms of
verification: the slots of other mergers apart for evidences, and apart from compaction of the base
that does not supply the mergers where it is a contract. -/
theorem signature_authenticates (hS : S.Authentic messages) (hfree : S.CollisionFree contents) :
    (∀ (blank p p' : Proof) (seed : Seed) (requested now : Mics) (policy : Policy) (o : Options),
      blank.sign S seed requested policy now = .ok p → p'.signature = p.signature →
      (Signed.proof p).InPlay S messages contents → (Signed.proof p').InPlay S messages contents →
      p'.verify S o = .ok () → p' = p) ∧
    (∀ (e e' : ProofEvidence) (seed : Seed) (cap : Nat),
      e.FilledBy S seed 0 → e'.signatures.get? 0 = e.signatures.get? 0 →
      (Signed.proofEvidence firstMerger e).InPlay S messages contents →
      (Signed.proofEvidence firstMerger e').InPlay S messages contents →
      1 ≤ cap → e'.checkSignatures S cap = .ok () → e'.body = e.body) ∧
    (∀ (e e' : LinkedEvidence Proof) (seed : Seed) (cap : Nat),
      e.FilledBy S seed 0 → e'.signatures.get? 0 = e.signatures.get? 0 →
      (Signed.linkedProofs firstMerger e).InPlay S messages contents →
      (Signed.linkedProofs firstMerger e').InPlay S messages contents →
      1 ≤ cap → e'.checkSignatures S cap = .ok () → e'.body = e.body) ∧
    (∀ (e e' : LinkedEvidence Contract) (seed : Seed) (cap : Nat),
      e.FilledBy S seed 0 → e'.signatures.get? 0 = e.signatures.get? 0 →
      (Signed.linkedContracts firstMerger e).InPlay S messages contents →
      (Signed.linkedContracts firstMerger e').InPlay S messages contents →
      1 ≤ cap → e'.checkSignatures S cap = .ok () →
      e'.body.isPrimary = e.body.isPrimary ∧ e'.body.base = e.body.base ∧
        e'.body.link.strip S = e.body.link.strip S) ∧
    (∀ (before l l' : Linkage Proof) (seed : Seed) (o : Options),
      before.sign S seed = .ok l → l'.linkerSignature = l.linkerSignature →
      (Signed.proofLinkage l).InPlay S messages contents →
      (Signed.proofLinkage l').InPlay S messages contents →
      l'.verify S o = .ok () → l' = l) ∧
    (∀ (before l l' : Linkage Contract) (seed : Seed) (o : Options),
      before.sign S seed = .ok l → l'.linkerSignature = l.linkerSignature →
      (Signed.contractLinkage l).InPlay S messages contents →
      (Signed.contractLinkage l').InPlay S messages contents →
      l'.verify S o = .ok () → l' = l) := by
  refine ⟨?_, ?_, ?_, ?_, ?_, ?_⟩
  · intro blank p p' seed requested now policy o hsign hsignature hp hp' hverify
    exact Proof.eq_of_signature_eq hS hsign hsignature hp hp' hverify
  · intro e e' seed cap hfilled hslot he he' hcap hcheck
    exact ProofEvidence.body_eq_of_slot_eq hS hfilled hslot he he' hcap hcheck
  · intro e e' seed cap hfilled hslot he he' hcap hcheck
    exact LinkedEvidence.body_eq_of_slot_eq hS hfilled hslot he he' hcap hcheck
  · intro e e' seed cap hfilled hslot he he' hcap hcheck
    exact LinkedEvidence.side_eq_of_slot_eq hS hfree hfilled hslot he he' hcap hcheck
  · intro before l l' seed o hsign hsignature hl hl' hverify
    exact Linkage.eq_of_linkerSignature_eq hS hsign hsignature hl hl' hverify
  · intro before l l' seed o hsign hsignature hl hl' hverify
    exact Linkage.contracts_eq_of_linkerSignature_eq hS hfree hsign hsignature hl hl' hverify

/-- The primary side of a link between contracts over the whole of two plain proofs, co-signed by
its only merger. -/
def plainContractSide : LinkedEvidence Contract :=
  (LinkedEvidence.ofProofs true 5 (Linker.plainProof (.padded [1]))
    (Linker.plainProof (.padded [2]))).withCosignature .plain 0 (.padded [1])

/-- The same side with the other base compacted and something put into the second merger's slot. -/
def alteredContractSide : LinkedEvidence Contract :=
  { body := { plainContractSide.body with
      link := { plainContractSide.body.link with
        base2 := plainContractSide.body.link.base2.strip .plain } }
    signatures := plainContractSide.signatures.set 1 (some .zero) }

/-- The messages of a proof, of a side of a link of proofs, and of the side over contracts. -/
def plainMessages : List Octets :=
  [(Linker.plainProof (.padded [1])).signerMessage .plain,
    (Linker.plainSide true).mergerMessage .plain 0, plainContractSide.mergerMessage .plain 0]

/-- The contents of the contracts over two plain proofs. -/
def plainContents : List Octets :=
  [plainContractSide.body.link.base1, plainContractSide.body.link.base2].filterMap
    (Contract.content? .plain)

theorem authentic_plainMessages : Suite.plain.Authentic {m | m ∈ plainMessages} := by
  apply Suite.plain_authentic
  show ∀ m ∈ plainMessages, ∀ n ∈ plainMessages, Suite.checksum m = Suite.checksum n → m = n
  decide +kernel

theorem collisionFree_plainContents : Suite.plain.CollisionFree {o | o ∈ plainContents} := by
  decide +kernel

theorem wellFormed_wholeOf_plainProof (seed : Seed) :
    Base.WellFormed .plain (Contract.wholeOf (Linker.plainProof seed)) :=
  fun _ hproof => Option.some.inj hproof ▸ Linker.wellFormed_plainProof seed

theorem inPlay_plainContractSide : (Signed.linkedContracts firstMerger plainContractSide).InPlay
    .plain {m | m ∈ plainMessages} {o | o ∈ plainContents} where
  wellFormed := ⟨wellFormed_wholeOf_plainProof _, wellFormed_wholeOf_plainProof _⟩
  message := .tail _ (.tail _ (.head _))
  contents := fun c hc _ ho => List.mem_filterMap.mpr ⟨c, hc, ho⟩

theorem inPlay_alteredContractSide : (Signed.linkedContracts firstMerger alteredContractSide).InPlay
    .plain {m | m ∈ plainMessages} {o | o ∈ plainContents} where
  wellFormed := ⟨wellFormed_wholeOf_plainProof _, nofun⟩
  message := by
    have hmessage : alteredContractSide.mergerMessage .plain 0 =
        plainContractSide.mergerMessage .plain 0 := by decide +kernel
    show alteredContractSide.mergerMessage .plain 0 ∈ plainMessages
    rw [hmessage]
    exact inPlay_plainContractSide.message
  contents := by
    intro c hc o ho
    rcases List.mem_cons.mp hc with rfl | hc
    · exact inPlay_plainContractSide.contents _ (.head _) o ho
    · -- a compacted contract has no content that could collide
      obtain rfl := List.mem_singleton.mp hc
      cases ho

/-- The first merger's signature is found good in the altered side, which is the side that it was
made for as far as it speaks. -/
theorem signature_authenticates_alteredContractSide :
    (Suite.plain.Authentic {m | m ∈ plainMessages} ∧
      Suite.plain.CollisionFree {o | o ∈ plainContents}) ∧
    (alteredContractSide.checkSignatures .plain 1 = .ok () ∧
      alteredContractSide.body ≠ plainContractSide.body) ∧
    alteredContractSide.body.isPrimary = plainContractSide.body.isPrimary ∧
      alteredContractSide.body.base = plainContractSide.body.base ∧
      alteredContractSide.body.link.strip .plain = plainContractSide.body.link.strip .plain := by
  have hfilled : plainContractSide.FilledBy .plain (.padded [1]) 0 :=
    ⟨_, _, Evidence.sign_eq_ok rfl (by decide) rfl, rfl, rfl⟩
  have hcheck : alteredContractSide.checkSignatures .plain 1 = .ok () := by decide +kernel
  have hchanged : alteredContractSide.body ≠ plainContractSide.body := fun h =>
    absurd (congrArg (fun s => s.link.base2.isStripped) h) (by decide)
  obtain ⟨-, -, -, hcontracts, -⟩ :=
    signature_authenticates authentic_plainMessages collisionFree_plainContents
  exact ⟨⟨authentic_plainMessages, collisionFree_plainContents⟩, ⟨hcheck, hchanged⟩,
    hcontracts _ _ (.padded [1]) 1 hfilled rfl inPlay_plainContractSide inPlay_alteredContractSide
      (by decide) hcheck⟩

end Settlement
