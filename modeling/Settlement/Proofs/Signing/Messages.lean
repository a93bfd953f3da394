import Settlement.Proofs.Contract.Compaction
import Settlement.Proofs.Suite.Signing
import Settlement.Suite.Standard

/-!
# What the signers of a settlement sign

Seven kinds of messages are signed: by the signer of a proof, by the owner of a
token, by a merger of an evidence over a proof, two proofs or two contracts,
and by the linker of a linkage over proofs or contracts. `Signed` is an object
together with the role in which it is signed, and `Coverage` what its signer
means; the main result is that messages are equal exactly for one role and one
coverage.

A message starts with the number of its kind of record, which tells most roles
apart (`Signed.entity_eq`); evidences and linkages over proofs and over
contracts are told apart by the records of their bases. No coverage holds the
signature that is made over it. A contract is covered by its hash and its
amounts, so compacting it shows in no message.
-/

namespace Settlement

variable {S : Suite}

/-! ## Kinds of records -/

theorem Entity.number_inj {e f : Entity} (h : e.number = f.number) : f = e := by
  revert h
  cases e <;> cases f <;> decide

/-- The three kinds of proofs, taken as one. -/
def Entity.kind : Entity → Entity
  | .signerProof => .valueProof
  | .credentialProof => .valueProof
  | e => e

/-! ## The fields of a message -/

/-- An object in the role in which it is signed: by the signer of a proof, by the owner of a token
on a connection, by the merger of an evidence with the given index, by the linker of a linkage. -/
inductive Signed where
  | proof (p : Proof)
  | token (t : OwnerToken) (context : Octets)
  | proofEvidence (index : Fin maxMergers) (e : ProofEvidence)
  | linkedProofs (index : Fin maxMergers) (e : LinkedEvidence Proof)
  | linkedContracts (index : Fin maxMergers) (e : LinkedEvidence Contract)
  | proofLinkage (l : Linkage Proof)
  | contractLinkage (l : Linkage Contract)

namespace Signed

/-- The message that is signed. -/
def message (S : Suite) : Signed → Octets
  | .proof p => p.signerMessage S
  | .token t context => t.ownerMessage S context
  | .proofEvidence index e => e.mergerMessage S index
  | .linkedProofs index e => e.mergerMessage S index
  | .linkedContracts index e => e.mergerMessage S index
  | .proofLinkage l => l.linkerMessage S
  | .contractLinkage l => l.linkerMessage S

/-- The credits and values in the object are well formed, and a context's length fits a head. -/
def WellFormed (S : Suite) : Signed → Prop
  | .proof p => p.WellFormed S
  | .token t context => t.WellFormed S ∧ context.length < UInt64.size
  | .proofEvidence _ e => e.body.proof.WellFormed S
  | .linkedProofs _ e => e.body.link.WellFormed S
  | .linkedContracts _ e => e.body.link.WellFormed S
  | .proofLinkage l => l.link.WellFormed S
  | .contractLinkage l => l.link.WellFormed S

/-- The level at which the message is signed. -/
def level : Signed → Level
  | .proof _ => .signer
  | .token .. => .signer
  | .proofEvidence index _ => .merger index
  | .linkedProofs index _ => .merger index
  | .linkedContracts index _ => .merger index
  | .proofLinkage _ => .linker
  | .contractLinkage _ => .linker

/-- The fields from which the level selects. -/
def fields (S : Suite) : Signed → List Field
  | .proof p => Signable.fields S p
  | .token t context => Signable.fields S t ++ [⟨5, .signer, .bytes context⟩]
  | .proofEvidence _ e => Signable.fields S e
  | .linkedProofs _ e => Signable.fields S e
  | .linkedContracts _ e => Signable.fields S e
  | .proofLinkage l => Signable.fields S l
  | .contractLinkage l => Signable.fields S l

theorem message_eq (a : Signed) :
    a.message S = signedMessage a.level (Field.record a.level (a.fields S)) := by
  cases a <;> rfl

/-- The entries that the level selects, in normal form. -/
def entries (S : Suite) (a : Signed) : List (Cbor × Cbor) :=
  (Field.present a.level (a.fields S)).map Field.normalEntry

end Signed

variable {B : Type} [Base B]

theorem ProofEvidence.normalEntries (e : ProofEvidence) (i : Fin maxMergers) :
    (Field.present (.merger i) (Signable.fields S e)).map Field.normalEntry =
      [(.uint 0, .uint Entity.proofEvidence.number),
       (.uint 5, (Signable.record S .full e.body.proof).normalize)] := by
  have h0 : (0 : Level) ≤ Level.merger i := UInt32.zero_le
  simp [Field.present, Signable.fields, Field.entity, Field.always, Field.normalEntry, h0,
    Level.evidence_le_merger i, Level.not_full_le_merger i, Cbor.normalize]

theorem LinkedEvidence.normalEntries (e : LinkedEvidence B) (i : Fin maxMergers) :
    (Field.present (.merger i) (Signable.fields S e)).map Field.normalEntry =
      [(.uint 0, .uint Entity.linkedEvidence.number), (.uint 1, .bool e.body.isPrimary),
       (.uint 2, .int e.body.link.linkedMics),
       (.uint 3, (Signable.record S .full e.body.link.base1).normalize),
       (.uint 4, (Signable.record S .full e.body.link.base2).normalize)] := by
  have h0 : (0 : Level) ≤ Level.merger i := UInt32.zero_le
  simp [Field.present, Signable.fields, Field.entity, Field.always, Field.normalEntry, h0,
    Level.evidence_le_merger i, Level.not_full_le_merger i, Cbor.normalize]

theorem Linkage.normalEntries (l : Linkage B) :
    (Field.present .linker (Signable.fields S l)).map Field.normalEntry =
      [(.uint 0, .uint Entity.linkage.number), (.uint 1, .int l.link.linkedMics),
       (.uint 2, (Signable.record S .full l.link.base1).normalize),
       (.uint 3, (Signable.record S .full l.link.base2).normalize),
       (.uint 4, l.primarySignatures.cbor), (.uint 5, l.secondarySignatures.cbor)] := by
  rw [← Cbor.normalize_int l.link.linkedMics, ← l.primarySignatures.normalize_cbor,
    ← l.secondarySignatures.normalize_cbor]
  rfl

/-- The entry of a token's credit, if it has one. -/
def OwnerToken.creditEntries (S : Suite) (t : OwnerToken) : List (Cbor × Cbor) :=
  match t.credit with
  | some c => [(.uint 4, (Signable.record S .full c).normalize)]
  | none => []

theorem OwnerToken.normalEntries (t : OwnerToken) (context : Octets) :
    (Field.present .signer
      (Signable.fields S t ++ [⟨5, .signer, .bytes context⟩])).map Field.normalEntry =
      [(.uint 0, .uint Entity.ownerToken.number), (.uint 1, t.publicKey.cbor),
       (.uint 2, .int t.signedMics), (.uint 3, .uint t.salt)] ++ t.creditEntries S ++
      [(.uint 5, .bytes context)] := by
  obtain ⟨key, signature, signed, salt, credit⟩ := t
  rw [← Cbor.normalize_int signed]
  cases credit <;> rfl

theorem OwnerToken.sized_fields {t : OwnerToken} (h : t.WellFormed S) :
    ∀ f ∈ Signable.fields S t, f.value.Sized := by
  obtain ⟨key, signature, signed, salt, credit⟩ := t
  simp only [Signable.fields, List.forall_mem_append, List.forall_mem_cons]
  refine ⟨⟨⟨trivial, key.sized_cbor, Cbor.sized_int _, trivial, nofun⟩, ?_⟩,
    signature.block.sized_octets (by decide), nofun⟩
  cases credit with
  | none => exact nofun
  | some c =>
      simp only [List.forall_mem_cons]
      exact ⟨Credit.sized_record (h c rfl) _, nofun⟩

theorem OwnerToken.sized_signingFields {t : OwnerToken} {context : Octets} (h : t.WellFormed S)
    (hcontext : context.length < UInt64.size) :
    ∀ f ∈ Signable.fields S t ++ [⟨5, .signer, .bytes context⟩], f.value.Sized :=
  List.forall_mem_append.mpr ⟨sized_fields h, List.forall_mem_singleton.mpr hcontext⟩

/-! ## Messages and entries -/

namespace Signed

theorem ascending (a : Signed) : Field.Ascending (Field.present a.level (a.fields S)) := by
  cases a with
  | proof p => exact p.ascending.present _
  | token t context =>
      obtain ⟨key, signature, signed, salt, credit⟩ := t
      cases credit with
      | none => exact Field.ascending_of_keys [0, 1, 2, 3, 5] rfl (by decide)
      | some c => exact Field.ascending_of_keys [0, 1, 2, 3, 4, 5] rfl (by decide)
  | proofEvidence i e => exact (ProofEvidence.ascending e).present _
  | linkedProofs i e => exact (LinkedEvidence.ascending e).present _
  | linkedContracts i e => exact (LinkedEvidence.ascending e).present _
  | proofLinkage l => exact l.ascending.present _
  | contractLinkage l => exact l.ascending.present _

theorem sized {a : Signed} (h : a.WellFormed S) :
    (Field.record a.level (a.fields S)).Sized := by
  cases a with
  | proof p => exact Proof.sized_record h _
  | token t context =>
      refine Field.sized_record (Signed.token t context).ascending ?_
      exact OwnerToken.sized_signingFields h.1 h.2
  | proofEvidence i e => exact ProofEvidence.sized_record h _
  | linkedProofs i e => exact LinkedEvidence.sized_record h _
  | linkedContracts i e => exact LinkedEvidence.sized_record h _
  | proofLinkage l => exact Linkage.sized_record h _
  | contractLinkage l => exact Linkage.sized_record h _

/-- A message says its level and its entries, and nothing else. -/
theorem message_eq_iff_entries {a b : Signed} (ha : a.WellFormed S) (hb : b.WellFormed S) :
    a.message S = b.message S ↔ a.level = b.level ∧ a.entries S = b.entries S := by
  rw [message_eq, message_eq, signedMessage_eq_iff (sized ha) (sized hb),
    Field.normalize_record_eq_iff a.ascending b.ascending]
  rfl

/-- The kind of record that a message is; the three kinds of proofs count as one. -/
def entity : Signed → Entity
  | .proof _ => .valueProof
  | .token .. => .ownerToken
  | .proofEvidence .. => .proofEvidence
  | .linkedProofs .. => .linkedEvidence
  | .linkedContracts .. => .linkedEvidence
  | .proofLinkage _ => .linkage
  | .contractLinkage _ => .linkage

/-- A message starts with the number of its kind of record. -/
theorem head?_entries (a : Signed) :
    ∃ e : Entity, (a.entries S).head? = some (.uint 0, .uint e.number) ∧ e.kind = a.entity := by
  cases a with
  | proof p =>
      refine ⟨p.assertion.entity, congrArg List.head? (Proof.normalEntries_signer p), ?_⟩
      cases p.assertion <;> rfl
  | token t context => exact ⟨_, congrArg List.head? (OwnerToken.normalEntries t context), rfl⟩
  | proofEvidence i e => exact ⟨_, congrArg List.head? (ProofEvidence.normalEntries e i), rfl⟩
  | linkedProofs i e => exact ⟨_, congrArg List.head? (LinkedEvidence.normalEntries e i), rfl⟩
  | linkedContracts i e => exact ⟨_, congrArg List.head? (LinkedEvidence.normalEntries e i), rfl⟩
  | proofLinkage l => exact ⟨_, congrArg List.head? l.normalEntries, rfl⟩
  | contractLinkage l => exact ⟨_, congrArg List.head? l.normalEntries, rfl⟩

theorem entity_eq {a b : Signed} (h : a.entries S = b.entries S) : a.entity = b.entity := by
  obtain ⟨e, he, hea⟩ := head?_entries (S := S) a
  obtain ⟨f, hf, hfb⟩ := head?_entries (S := S) b
  rw [h, hf, Option.some.injEq, Prod.mk.injEq, Cbor.uint.injEq, Cbor.uint.injEq] at he
  rw [← hea, ← hfb, Entity.number_inj he.2]

end Signed

/-! ## Coverage -/

/-- A link of contracts with both contracts compacted. -/
def Link.strip (S : Suite) (l : Link Contract) : Link Contract :=
  ⟨l.linkedMics, l.base1.strip S, l.base2.strip S⟩

/-- The role in which an object is signed and the members that the signer means. -/
inductive Coverage where
  | proof (assertion : Assertion) (signedMics expirationMics : Mics)
  | token (publicKey : PublicKey) (signedMics : Mics) (salt : UInt64) (credit : Option Credit)
      (context : Octets)
  | proofEvidence (index : Fin maxMergers) (proof : Proof)
  | linkedProofs (index : Fin maxMergers) (isPrimary : Bool) (link : Link Proof)
  | linkedContracts (index : Fin maxMergers) (isPrimary : Bool) (link : Link Contract)
  | proofLinkage (link : Link Proof) (primary secondary : MergerSignatures)
  | contractLinkage (link : Link Contract) (primary secondary : MergerSignatures)

/-- The coverage with every contract in it compacted. -/
def Coverage.strip (S : Suite) : Coverage → Coverage
  | .linkedContracts index isPrimary link => .linkedContracts index isPrimary (link.strip S)
  | .contractLinkage link primary secondary => .contractLinkage (link.strip S) primary secondary
  | c => c

namespace Signed

/-- What the signer of an object means to sign. -/
def coverage : Signed → Coverage
  | .proof p => .proof p.assertion p.signedMics p.expirationMics
  | .token t context => .token t.publicKey t.signedMics t.salt t.credit context
  | .proofEvidence index e => .proofEvidence index e.body.proof
  | .linkedProofs index e => .linkedProofs index e.body.isPrimary e.body.link
  | .linkedContracts index e => .linkedContracts index e.body.isPrimary e.body.link
  | .proofLinkage l => .proofLinkage l.link l.primarySignatures l.secondarySignatures
  | .contractLinkage l => .contractLinkage l.link l.primarySignatures l.secondarySignatures

end Signed

theorem Proof.entries_inj {p q : Proof} :
    (Field.present .signer (Signable.fields S p)).map Field.normalEntry =
        (Field.present .signer (Signable.fields S q)).map Field.normalEntry ↔
      p.assertion = q.assertion ∧ p.signedMics = q.signedMics ∧
        p.expirationMics = q.expirationMics := by
  rw [Proof.normalEntries_signer, Proof.normalEntries_signer,
    ← (p.signedEntries S).append_nil, ← (q.signedEntries S).append_nil,
    Proof.signedEntries_append_inj]
  exact and_iff_left rfl

theorem ProofEvidence.entries_inj {e f : ProofEvidence} {i j : Fin maxMergers} :
    (Level.merger i = Level.merger j ∧
      (Field.present (.merger i) (Signable.fields S e)).map Field.normalEntry =
        (Field.present (.merger j) (Signable.fields S f)).map Field.normalEntry) ↔
    i = j ∧ e.body.proof = f.body.proof := by
  rw [ProofEvidence.normalEntries, ProofEvidence.normalEntries, Level.merger_inj]
  simp

section

variable [RecordedBase B]

theorem LinkedEvidence.entries_inj {e f : LinkedEvidence B} {i j : Fin maxMergers} :
    (Level.merger i = Level.merger j ∧
      (Field.present (.merger i) (Signable.fields S e)).map Field.normalEntry =
        (Field.present (.merger j) (Signable.fields S f)).map Field.normalEntry) ↔
    i = j ∧ e.body.isPrimary = f.body.isPrimary ∧
      e.body.link.recorded S = f.body.link.recorded S := by
  rw [LinkedEvidence.normalEntries, LinkedEvidence.normalEntries, Level.merger_inj,
    Link.recorded_inj]
  simp

theorem Linkage.entries_inj {l m : Linkage B} :
    (Field.present .linker (Signable.fields S l)).map Field.normalEntry =
        (Field.present .linker (Signable.fields S m)).map Field.normalEntry ↔
      l.link.recorded S = m.link.recorded S ∧ l.primarySignatures = m.primarySignatures ∧
        l.secondarySignatures = m.secondarySignatures := by
  rw [Linkage.normalEntries, Linkage.normalEntries, Link.recorded_inj]
  simp [and_assoc]

end

theorem OwnerToken.creditEntries_append_inj {t u : OwnerToken} {context context' : Octets} :
    t.creditEntries S ++ [(.uint 5, .bytes context)] =
        u.creditEntries S ++ [(.uint 5, .bytes context')] ↔
      t.credit = u.credit ∧ context = context' := by
  unfold creditEntries
  cases t.credit <;> cases u.credit <;> simp

theorem OwnerToken.entries_inj {t u : OwnerToken} {context context' : Octets} :
    (Field.present .signer
      (Signable.fields S t ++ [⟨5, .signer, .bytes context⟩])).map Field.normalEntry =
    (Field.present .signer
      (Signable.fields S u ++ [⟨5, .signer, .bytes context'⟩])).map Field.normalEntry ↔
      t.publicKey = u.publicKey ∧ t.signedMics = u.signedMics ∧ t.salt = u.salt ∧
        t.credit = u.credit ∧ context = context' := by
  rw [OwnerToken.normalEntries, OwnerToken.normalEntries, List.append_assoc, List.append_assoc,
    ← OwnerToken.creditEntries_append_inj (S := S)]
  simp

namespace Signed

/-- Messages that are different kinds of records are different, and mean different things. -/
theorem not_entries_eq_iff {a b : Signed} (hentity : a.entity ≠ b.entity)
    (hcoverage : a.coverage.strip S ≠ b.coverage.strip S) :
    (a.level = b.level ∧ a.entries S = b.entries S) ↔
      a.coverage.strip S = b.coverage.strip S :=
  iff_of_false (fun h => hentity (entity_eq h.2)) hcoverage

/-- Evidences over proofs and over contracts say different bases. -/
theorem linkedProofs_entries_ne (i j : Fin maxMergers) (e : LinkedEvidence Proof)
    (f : LinkedEvidence Contract) :
    (linkedProofs i e).entries S ≠ (linkedContracts j f).entries S := by
  intro h
  have h' := (LinkedEvidence.normalEntries e i).symm.trans
    (h.trans (LinkedEvidence.normalEntries f j))
  simp [Proof.record_ne_contract] at h'

/-- Linkages of proofs and of contracts say different bases. -/
theorem proofLinkage_entries_ne (l : Linkage Proof) (m : Linkage Contract) :
    (proofLinkage l).entries S ≠ (contractLinkage m).entries S := by
  intro h
  have h' := l.normalEntries.symm.trans (h.trans m.normalEntries)
  simp [Proof.record_ne_contract] at h'

theorem entries_eq_iff (a b : Signed) :
    (a.level = b.level ∧ a.entries S = b.entries S) ↔
      a.coverage.strip S = b.coverage.strip S := by
  cases a with
  | proof p =>
      cases b with
      | proof q =>
          show _ ↔ Coverage.proof _ _ _ = Coverage.proof _ _ _
          rw [Coverage.proof.injEq]
          exact (and_iff_right rfl).trans Proof.entries_inj
      | _ => exact not_entries_eq_iff nofun nofun
  | token t context =>
      cases b with
      | token u context' =>
          show _ ↔ Coverage.token _ _ _ _ _ = Coverage.token _ _ _ _ _
          rw [Coverage.token.injEq]
          exact (and_iff_right rfl).trans OwnerToken.entries_inj
      | _ => exact not_entries_eq_iff nofun nofun
  | proofEvidence i e =>
      cases b with
      | proofEvidence j f =>
          show _ ↔ Coverage.proofEvidence _ _ = Coverage.proofEvidence _ _
          rw [Coverage.proofEvidence.injEq]
          exact ProofEvidence.entries_inj
      | _ => exact not_entries_eq_iff nofun nofun
  | linkedProofs i e =>
      cases b with
      | linkedProofs j f =>
          show _ ↔ Coverage.linkedProofs _ _ _ = Coverage.linkedProofs _ _ _
          rw [Coverage.linkedProofs.injEq]
          exact LinkedEvidence.entries_inj
      | linkedContracts j f =>
          exact iff_of_false (fun h => linkedProofs_entries_ne i j e f h.2) nofun
      | _ => exact not_entries_eq_iff nofun nofun
  | linkedContracts i e =>
      cases b with
      | linkedProofs j f =>
          exact iff_of_false (fun h => linkedProofs_entries_ne j i f e h.2.symm) nofun
      | linkedContracts j f =>
          show _ ↔ Coverage.linkedContracts _ _ _ = Coverage.linkedContracts _ _ _
          rw [Coverage.linkedContracts.injEq]
          exact LinkedEvidence.entries_inj
      | _ => exact not_entries_eq_iff nofun nofun
  | proofLinkage l =>
      cases b with
      | proofLinkage m =>
          show _ ↔ Coverage.proofLinkage _ _ _ = Coverage.proofLinkage _ _ _
          rw [Coverage.proofLinkage.injEq]
          exact (and_iff_right rfl).trans Linkage.entries_inj
      | contractLinkage m =>
          exact iff_of_false (fun h => proofLinkage_entries_ne l m h.2) nofun
      | _ => exact not_entries_eq_iff nofun nofun
  | contractLinkage l =>
      cases b with
      | proofLinkage m =>
          exact iff_of_false (fun h => proofLinkage_entries_ne m l h.2.symm) nofun
      | contractLinkage m =>
          show _ ↔ Coverage.contractLinkage _ _ _ = Coverage.contractLinkage _ _ _
          rw [Coverage.contractLinkage.injEq]
          exact (and_iff_right rfl).trans Linkage.entries_inj
      | _ => exact not_entries_eq_iff nofun nofun

/-! ## Coverage and compaction -/

/-- The contracts in the object. -/
def contracts : Signed → List Contract
  | .linkedContracts _ e => [e.body.link.base1, e.body.link.base2]
  | .contractLinkage l => [l.link.base1, l.link.base2]
  | _ => []

/-- Every contract in the object has its proof, and its content is one of those given. -/
def Uncompacted (S : Suite) (contents : Set Octets) (a : Signed) : Prop :=
  ∀ c ∈ a.contracts, ∃ o ∈ contents, c.content? S = some o

end Signed

theorem Link.eq_of_strip_eq {l l' : Link Contract} (hl : l.WellFormed S) (hl' : l'.WellFormed S)
    {contents : Set Octets} (hfree : S.CollisionFree contents)
    (h1 : ∀ c ∈ [l.base1, l.base2], ∃ o ∈ contents, c.content? S = some o)
    (h2 : ∀ c ∈ [l'.base1, l'.base2], ∃ o ∈ contents, c.content? S = some o)
    (h : l.strip S = l'.strip S) : l = l' := by
  obtain ⟨linkedMics, base1, base2⟩ := l
  obtain ⟨linkedMics', base1', base2'⟩ := l'
  obtain ⟨o1, ho1, hc1⟩ := h1 base1 (.head _)
  obtain ⟨o2, ho2, hc2⟩ := h1 base2 (.tail _ (.head _))
  obtain ⟨o1', ho1', hc1'⟩ := h2 base1' (.head _)
  obtain ⟨o2', ho2', hc2'⟩ := h2 base2' (.tail _ (.head _))
  obtain ⟨hmics, hbase1, hbase2⟩ := Link.mk.inj h
  obtain rfl : linkedMics = linkedMics' := hmics
  obtain rfl : base1 = base1' :=
    Contract.eq_of_strip_eq hl.base1 hl'.base1 hfree hc1 hc1' ho1 ho1' hbase1
  obtain rfl : base2 = base2' :=
    Contract.eq_of_strip_eq hl.base2 hl'.base2 hfree hc2 hc2' ho2 ho2' hbase2
  rfl

namespace Signed

/-- What compaction leaves tells coverages apart as long as no contract is compacted. -/
theorem coverage_eq_of_strip_eq {a b : Signed} (ha : a.WellFormed S) (hb : b.WellFormed S)
    {contents : Set Octets} (hfree : S.CollisionFree contents)
    (hac : a.Uncompacted S contents) (hbc : b.Uncompacted S contents)
    (h : a.coverage.strip S = b.coverage.strip S) : a.coverage = b.coverage := by
  cases a with
  | linkedContracts i e =>
      cases b with
      | linkedContracts j f =>
          obtain ⟨rfl, hprimary, hlink⟩ := Coverage.linkedContracts.inj h
          show Coverage.linkedContracts _ _ _ = Coverage.linkedContracts _ _ _
          rw [hprimary, Link.eq_of_strip_eq ha hb hfree hac hbc hlink]
      | _ => cases h
  | contractLinkage l =>
      cases b with
      | contractLinkage m =>
          obtain ⟨hlink, hprimary, hsecondary⟩ := Coverage.contractLinkage.inj h
          show Coverage.contractLinkage _ _ _ = Coverage.contractLinkage _ _ _
          rw [hprimary, hsecondary, Link.eq_of_strip_eq ha hb hfree hac hbc hlink]
      | _ => cases h
  | _ =>
      cases b with
      | linkedContracts => cases h
      | contractLinkage => cases h
      | _ => exact h

/-- **Messages are unambiguous.** Two messages are equal exactly if they are signed in one role and
say the same, contracts being taken as compaction leaves them. Where the contracts have their
proofs and the digest does not collide on them, they are taken as they are. -/
theorem message_eq_iff_coverage {a b : Signed} (ha : a.WellFormed S) (hb : b.WellFormed S) :
    (a.message S = b.message S ↔ a.coverage.strip S = b.coverage.strip S) ∧
      ∀ contents, S.CollisionFree contents → a.Uncompacted S contents →
        b.Uncompacted S contents → (a.message S = b.message S ↔ a.coverage = b.coverage) := by
  have hstrip : a.message S = b.message S ↔ a.coverage.strip S = b.coverage.strip S :=
    (message_eq_iff_entries ha hb).trans (entries_eq_iff a b)
  refine ⟨hstrip, fun contents hfree hac hbc => ?_⟩
  rw [hstrip]
  exact ⟨coverage_eq_of_strip_eq ha hb hfree hac hbc, fun h => by rw [h]⟩

/-- The key of the neutral point. -/
def neutralKey : PublicKey := ⟨⟨1 :: List.replicate 31 0, by simp⟩⟩

/-- A contract over an amount held of a credit, every key the neutral point's. -/
def contractOver (point : Point) : Contract :=
  .wholeOf (.forValue ⟨neutralKey, point, ⟨neutralKey, [neutralKey]⟩⟩ neutralKey)

/-- A contract over nothing. -/
def neutralContract : Contract := contractOver .zero

theorem wellFormed_contractOver (hkey : S.isKey neutralKey = true) {point : Point}
    (hpoint : point.inRange = true) : Base.WellFormed S (contractOver point) := by
  have hcredit : Credit.WellFormed S ⟨neutralKey, [neutralKey]⟩ :=
    ⟨by decide, by decide, hkey, by simpa using hkey⟩
  intro p hp
  cases hp
  exact ⟨Point.inRange_iff.mp hpoint, hkey, hcredit⟩

theorem wellFormed_neutralContract : Base.WellFormed Suite.standard neutralContract :=
  wellFormed_contractOver (by decide +kernel) rfl

/-- The primary side of a link of two such contracts, of which the second one may be compacted,
for the merger with the given index. -/
def neutralSide (index : Fin maxMergers) (base2 : Contract) : Signed :=
  .linkedContracts index (LinkedEvidence.of true 0 neutralContract base2)

/-- What the hashes of a contract over nothing and of one over something are made from. -/
def contentsOver : List Octets :=
  [neutralContract, contractOver ⟨1⟩].filterMap (Contract.content? .plain)

/-- Two mergers of one evidence sign different messages, and so does one merger for two contracts
that have their proofs. -/
theorem neutralSide_message_ne :
    ((neutralSide ⟨0, by decide⟩ neutralContract).WellFormed Suite.standard ∧
      (neutralSide ⟨1, by decide⟩ neutralContract).WellFormed Suite.standard ∧
      (neutralSide ⟨0, by decide⟩ neutralContract).message Suite.standard ≠
        (neutralSide ⟨1, by decide⟩ neutralContract).message Suite.standard) ∧
    (Suite.plain.CollisionFree {o | o ∈ contentsOver} ∧
      (neutralSide ⟨0, by decide⟩ neutralContract).Uncompacted .plain {o | o ∈ contentsOver} ∧
      (neutralSide ⟨0, by decide⟩ (contractOver ⟨1⟩)).Uncompacted .plain {o | o ∈ contentsOver}) ∧
    (neutralSide ⟨0, by decide⟩ neutralContract).message .plain ≠
      (neutralSide ⟨0, by decide⟩ (contractOver ⟨1⟩)).message .plain := by
  have hwell : ∀ i, (neutralSide i neutralContract).WellFormed Suite.standard :=
    fun i => ⟨wellFormed_neutralContract, wellFormed_neutralContract⟩
  have hneutral : ∃ o ∈ {o | o ∈ contentsOver}, neutralContract.content? .plain = some o :=
    ⟨_, List.mem_filterMap.mpr ⟨neutralContract, .head _, rfl⟩, rfl⟩
  have hone : ∃ o ∈ {o | o ∈ contentsOver}, (contractOver ⟨1⟩).content? .plain = some o :=
    ⟨_, List.mem_filterMap.mpr ⟨contractOver ⟨1⟩, .tail _ (.head _), rfl⟩, rfl⟩
  have hfree : Suite.plain.CollisionFree {o | o ∈ contentsOver} := by decide +kernel
  have hfirst : (neutralSide ⟨0, by decide⟩ neutralContract).Uncompacted .plain
      {o | o ∈ contentsOver} :=
    List.forall_mem_cons.mpr ⟨hneutral, List.forall_mem_singleton.mpr hneutral⟩
  have hsecond : (neutralSide ⟨0, by decide⟩ (contractOver ⟨1⟩)).Uncompacted .plain
      {o | o ∈ contentsOver} :=
    List.forall_mem_cons.mpr ⟨hneutral, List.forall_mem_singleton.mpr hone⟩
  have hplain : ∀ point : Point, point.inRange = true →
      (neutralSide ⟨0, by decide⟩ (contractOver point)).WellFormed Suite.plain :=
    fun _ hpoint => ⟨wellFormed_contractOver rfl rfl, wellFormed_contractOver rfl hpoint⟩
  refine ⟨⟨hwell _, hwell _, fun h => ?_⟩, ⟨hfree, hfirst, hsecond⟩, fun h => ?_⟩
  · have hcoverage := (message_eq_iff_coverage (hwell _) (hwell _)).1.mp h
    exact absurd (Coverage.linkedContracts.inj hcoverage).1 (by decide)
  · have hliteral := (message_eq_iff_coverage (hplain .zero rfl) (hplain ⟨1⟩ rfl)).2
    have hcoverage := (hliteral _ hfree hfirst hsecond).mp h
    have hlink := (Coverage.linkedContracts.inj hcoverage).2.2
    exact absurd (congrArg (fun l : Link Contract => l.base2.whole) hlink) (by decide)

/-- Compacting a base changes what is covered, and no message shows it. -/
theorem message_eq_not_iff_coverage_eq :
    ¬ ∀ a b : Signed, a.WellFormed Suite.standard → b.WellFormed Suite.standard →
      (a.message Suite.standard = b.message Suite.standard ↔ a.coverage = b.coverage) := by
  intro hclaim
  have hneutral := wellFormed_neutralContract
  have hcoverage := (hclaim (neutralSide ⟨0, by decide⟩ neutralContract)
    (neutralSide ⟨0, by decide⟩ (neutralContract.strip Suite.standard))
    ⟨hneutral, hneutral⟩ ⟨hneutral, nofun⟩).mp rfl
  have hlink := (Coverage.linkedContracts.inj hcoverage).2.2
  have hbody := congrArg (fun l : Link Contract => l.base2.isStripped) hlink
  exact Bool.false_ne_true hbody

end Signed

end Settlement
