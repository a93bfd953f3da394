import Settlement.Proofs.Signing.Authenticity

/-!
# Quorums of mergers

Of an evidence the first mergers have to sign, as many as the cap allows and as the
credit of the selected base has. The check stops at the first of them who has
not, and says whether the signature is missing or wrong
(`Evidence.checkSignatures_eq_ok_iff_quorum`, `Evidence.checkSignatures_eq_error_iff`).
It reads no slot beyond theirs, and of the other base no more than its octets, since
that is all that is in a merger's message (`Evidence.checkSignatures_congr`,
`LinkedEvidence.mergerMessage_congr`). All of it together is `quorum_is_prefix`.
-/

namespace Settlement

theorem MergerSignatures.lt_of_get?_eq_some {s : MergerSignatures} {i : Nat}
    {signature : Signature} (h : s.get? i = some signature) : i < maxMergers := by
  rw [get?, Option.join_eq_some_iff] at h
  obtain ⟨hlt, -⟩ := List.getElem?_eq_some_iff.mp h
  rwa [s.length_slots] at hlt

namespace Credit

variable {c : Credit} {cap i : Nat} {key : PublicKey}

theorem exists_merger?_of_lt (h : i < c.mergers.length) : ∃ key, c.merger? i = some key :=
  ⟨_, List.getElem?_eq_getElem h⟩

/-- The mergers within a cap. -/
theorem take_mergers_eq_some_iff : (c.mergers.take cap)[i]? = some key ↔
    i < min cap c.mergers.length ∧ c.merger? i = some key := by
  rw [List.getElem?_take]
  by_cases hi : i < cap
  · rw [if_pos hi]
    constructor
    · intro h
      obtain ⟨hlt, -⟩ := List.getElem?_eq_some_iff.mp h
      exact ⟨Nat.lt_min.mpr ⟨hi, hlt⟩, h⟩
    · rintro ⟨-, h⟩
      exact h
  · rw [if_neg hi]
    constructor
    · intro h
      cases h
    · rintro ⟨hlt, -⟩
      omega

end Credit

namespace Evidence

variable {β : Type} [EvidenceBody β] {S : Suite} {e e' : Evidence β} {cap : Nat}
  {fault : ValidationFault} {index : Nat} {key : PublicKey}

/-! ## The first fault -/

theorem checkMergers_cons_eq_error_iff {rest : List PublicKey} :
    e.checkMergers S index (key :: rest) = .error fault ↔ e.SlotFault S index key fault ∨
      e.Cosigned S index key ∧ e.checkMergers S (index + 1) rest = .error fault := by
  rcases e.cosigned_or_slotFault S index key with hvouches | ⟨fault', hfault'⟩
  · rw [checkMergers_of_cosigned hvouches]
    constructor
    · intro hrest
      exact .inr ⟨hvouches, hrest⟩
    · rintro (hfault | ⟨-, hrest⟩)
      · exact absurd hvouches hfault.not_cosigned
      · exact hrest
  · rw [checkMergers_of_slotFault hfault']
    constructor
    · intro heq
      obtain rfl := Except.error.inj heq
      exact .inl hfault'
    · rintro (hfault | ⟨hvouches, -⟩)
      · rw [hfault'.unique hfault]
      · exact absurd hvouches hfault'.not_cosigned

/-- Mergers fail at the first one whose slot has a fault. -/
theorem checkMergers_eq_error_iff {mergers : List PublicKey} : ∀ {index : Nat},
    e.checkMergers S index mergers = .error fault ↔
      ∃ i key, mergers[i]? = some key ∧
        (∀ j < i, ∀ key, mergers[j]? = some key → e.Cosigned S (index + j) key) ∧
        e.SlotFault S (index + i) key fault := by
  induction mergers with
  | nil =>
      intro index
      constructor
      · intro h
        cases h
      · rintro ⟨i, key, hkey, -⟩
        cases hkey
  | cons merger rest ih =>
      intro index
      rw [checkMergers_cons_eq_error_iff, ih]
      constructor
      · rintro (h | ⟨hfirst, i, key, hkey, hbefore, hslot⟩)
        · exact ⟨0, merger, rfl, fun j hj => absurd hj (Nat.not_lt_zero j), h⟩
        · refine ⟨i + 1, key, hkey, fun j hj key' hkey' => ?_, ?_⟩
          · cases j with
            | zero => exact Option.some.inj hkey' ▸ hfirst
            | succ j =>
                rw [← Nat.add_assoc, Nat.add_right_comm]
                exact hbefore j (Nat.lt_of_succ_lt_succ hj) key' hkey'
          · rw [← Nat.add_assoc, Nat.add_right_comm]
            exact hslot
      · rintro ⟨i, key, hkey, hbefore, hslot⟩
        cases i with
        | zero => exact .inl (Option.some.inj hkey ▸ hslot)
        | succ i =>
            refine .inr ⟨hbefore 0 (Nat.zero_lt_succ i) merger rfl, i, key, hkey, ?_, ?_⟩
            · intro j hj key' hkey'
              rw [Nat.add_right_comm, Nat.add_assoc]
              exact hbefore (j + 1) (Nat.succ_lt_succ hj) key' hkey'
            · rw [Nat.add_right_comm, Nat.add_assoc]
              exact hslot

/-- Why an evidence has no quorum, given the proof that supplies the mergers: there is none, or the
slot of the first merger who does not vouch has a fault. -/
inductive QuorumFault (S : Suite) (e : Evidence β) (cap : Nat) :
    Option Proof → ValidationFault → Prop
  | missingProof : QuorumFault S e cap none .missingProof
  | slot {p : Proof} {i : Nat} {key : PublicKey} {fault : ValidationFault}
      (hi : i < min cap p.credit.mergers.length) (hkey : p.credit.merger? i = some key)
      (hbefore : ∀ j < i, ∃ key, p.credit.merger? j = some key ∧ e.Cosigned S j key)
      (hslot : e.SlotFault S i key fault) : QuorumFault S e cap (some p) fault

/-- The mergers of a proof within the cap all vouch for the evidence. -/
def Quorum (S : Suite) (e : Evidence β) (cap : Nat) (p : Proof) : Prop :=
  ∀ i < min cap p.credit.mergers.length,
    ∃ key, p.credit.merger? i = some key ∧ e.Cosigned S i key

theorem checkSignatures_of_proof {p : Proof} (h : EvidenceBody.proof? e.body = some p) :
    e.checkSignatures S cap = e.checkMergers S 0 (p.credit.mergers.take cap) := by
  unfold checkSignatures credit?
  rw [h]
  rfl

theorem checkSignatures_of_no_proof (h : EvidenceBody.proof? e.body = none) :
    e.checkSignatures S cap = .error .missingProof := by
  unfold checkSignatures credit?
  rw [h]
  rfl

theorem checkSignatures_eq_ok_iff_quorum : e.checkSignatures S cap = .ok () ↔
    ∃ p, EvidenceBody.proof? e.body = some p ∧ e.Quorum S cap p := by
  cases hproof : EvidenceBody.proof? e.body with
  | none =>
      rw [checkSignatures_of_no_proof hproof]
      exact ⟨nofun, fun ⟨_, h, _⟩ => nomatch h⟩
  | some p =>
      rw [checkSignatures_of_proof hproof, checkMergers_eq_ok_iff]
      simp only [Credit.take_mergers_eq_some_iff, Nat.zero_add, Option.some.injEq,
        exists_eq_left']
      constructor
      · intro h i hi
        obtain ⟨key, hkey⟩ := Credit.exists_merger?_of_lt (Nat.lt_min.mp hi).2
        exact ⟨key, hkey, h i key ⟨hi, hkey⟩⟩
      · rintro h i key ⟨hi, hkey⟩
        obtain ⟨key', hkey', hvouches⟩ := h i hi
        obtain rfl := Option.some.inj (hkey.symm.trans hkey')
        exact hvouches

theorem checkSignatures_eq_error_iff : e.checkSignatures S cap = .error fault ↔
    e.QuorumFault S cap (EvidenceBody.proof? e.body) fault := by
  cases hproof : EvidenceBody.proof? e.body with
  | none =>
      rw [checkSignatures_of_no_proof hproof]
      constructor
      · intro h
        obtain rfl := Except.error.inj h
        exact .missingProof
      · intro h
        cases h with
        | missingProof => rfl
  | some p =>
      rw [checkSignatures_of_proof hproof, checkMergers_eq_error_iff]
      simp only [Credit.take_mergers_eq_some_iff, Nat.zero_add]
      constructor
      · rintro ⟨i, key, ⟨hi, hkey⟩, hbefore, hslot⟩
        refine .slot hi hkey (fun j hj => ?_) hslot
        have hj' : j < min cap p.credit.mergers.length := Nat.lt_trans hj hi
        obtain ⟨key', hkey'⟩ := Credit.exists_merger?_of_lt (Nat.lt_min.mp hj').2
        exact ⟨key', hkey', hbefore j hj key' ⟨hj', hkey'⟩⟩
      · intro h
        cases h with
        | slot hi hkey hbefore hslot =>
            refine ⟨_, _, ⟨hi, hkey⟩, ?_, hslot⟩
            rintro j hj key' ⟨-, hkey'⟩
            obtain ⟨key, hkey, hvouches⟩ := hbefore j hj
            obtain rfl := Option.some.inj (hkey'.symm.trans hkey)
            exact hvouches

/-! ## What the check does not read -/

theorem checkMergers_congr (hmessage : ∀ i < maxMergers, e.mergerMessage S i = e'.mergerMessage S i)
    {mergers : List PublicKey} : ∀ {index : Nat},
    (∀ i < mergers.length, e.signatures.get? (index + i) = e'.signatures.get? (index + i)) →
      e.checkMergers S index mergers = e'.checkMergers S index mergers := by
  induction mergers with
  | nil =>
      intro index _
      rfl
  | cons merger rest ih =>
      intro index hslots
      have hrest : e.checkMergers S (index + 1) rest = e'.checkMergers S (index + 1) rest := by
        apply ih
        intro i hi
        rw [Nat.add_right_comm, Nat.add_assoc]
        exact hslots (i + 1) (Nat.succ_lt_succ hi)
      have hslot : e.signatures.get? index = e'.signatures.get? index :=
        hslots 0 (Nat.zero_lt_succ _)
      rw [checkMergers, checkMergers, ← hslot, hrest]
      cases hsome : e.signatures.get? index with
      | none => rfl
      | some signature => rw [hmessage index (MergerSignatures.lt_of_get?_eq_some hsome)]

/-- The slots of two evidences are equal as far as the mergers of a proof within the cap go. -/
def SameSlots (e : Evidence β) (cap : Nat) (p : Proof) (e' : Evidence β) : Prop :=
  ∀ i < min cap p.credit.mergers.length, e.signatures.get? i = e'.signatures.get? i

theorem checkSignatures_congr
    (hproof : EvidenceBody.proof? e.body = EvidenceBody.proof? e'.body)
    (hmessage : ∀ i < maxMergers, e.mergerMessage S i = e'.mergerMessage S i)
    (hslots : ∀ p, EvidenceBody.proof? e.body = some p → e.SameSlots cap p e') :
    e.checkSignatures S cap = e'.checkSignatures S cap := by
  cases hsome : EvidenceBody.proof? e.body with
  | none =>
      rw [checkSignatures_of_no_proof hsome, checkSignatures_of_no_proof (hproof.symm.trans hsome)]
  | some p =>
      rw [checkSignatures_of_proof hsome, checkSignatures_of_proof (hproof.symm.trans hsome)]
      apply checkMergers_congr hmessage
      intro i hi
      rw [Nat.zero_add]
      rw [List.length_take] at hi
      exact hslots p hsome i hi

/-- The check of an evidence for a cap comes out as the mergers of the given proof, if there is
one, vouch for it: well exactly if those within the cap all do, and otherwise with the fault of the
first one who does not. -/
structure ChecksFirst (S : Suite) (e : Evidence β) (cap : Nat) (proof? : Option Proof) : Prop where
  ok_iff : e.checkSignatures S cap = .ok () ↔ ∃ p, proof? = some p ∧ e.Quorum S cap p
  error_iff : ∀ fault, e.checkSignatures S cap = .error fault ↔ e.QuorumFault S cap proof? fault

theorem checksFirst (S : Suite) (e : Evidence β) (cap : Nat) :
    e.ChecksFirst S cap (EvidenceBody.proof? e.body) :=
  ⟨checkSignatures_eq_ok_iff_quorum, fun _ => checkSignatures_eq_error_iff⟩

end Evidence

section

variable {B : Type} [Base B] {S : Suite}

/-- The base of the other party. -/
def Side.otherBase (s : Side B) : B := if s.isPrimary then s.link.base2 else s.link.base1

/-- A merger's message holds the octets of both bases and nothing else of them. -/
theorem LinkedEvidence.mergerMessage_congr {e e' : LinkedEvidence B}
    (hside : e.body.isPrimary = e'.body.isPrimary)
    (hmics : e.body.link.linkedMics = e'.body.link.linkedMics)
    (hbase1 : Signable.canonical S .full e.body.link.base1 =
      Signable.canonical S .full e'.body.link.base1)
    (hbase2 : Signable.canonical S .full e.body.link.base2 =
      Signable.canonical S .full e'.body.link.base2) {i : Nat} (hi : i < maxMergers) :
    e.mergerMessage S i = e'.mergerMessage S i := by
  have hcanonical : ∀ e : LinkedEvidence B, (Signable.record S (.merger i) e).canonical =
      Cbor.head .map 5 ++
        ((Cbor.uint 0).encode ++ (Cbor.uint Entity.linkedEvidence.number).encode ++
        ((Cbor.uint 1).encode ++ (Cbor.bool e.body.isPrimary).encode ++
        ((Cbor.uint 2).encode ++ (Cbor.int e.body.link.linkedMics).encode ++
        ((Cbor.uint 3).encode ++ Signable.canonical S .full e.body.link.base1 ++
        ((Cbor.uint 4).encode ++ Signable.canonical S .full e.body.link.base2 ++ []))))) := by
    intro e
    have hpresent := (LinkedEvidence.ascending (S := S) e).present (.merger i)
    have hnormal := Field.normalize_record hpresent
    rw [LinkedEvidence.normalEntries e ⟨i, hi⟩] at hnormal
    show (Field.record (.merger i) (Signable.fields S e)).normalize.encode = _
    rw [hnormal]
    rfl
  unfold Evidence.mergerMessage Signable.message signedMessage
  rw [hcanonical, hcanonical, hside, hmics, hbase1, hbase2]

/-- Sides of one party at one instant, with one base of its own, and bases of the other party that
have the same octets. -/
structure Side.SameRead (S : Suite) (s s' : Side B) : Prop where
  isPrimary : s.isPrimary = s'.isPrimary
  linkedMics : s.link.linkedMics = s'.link.linkedMics
  base : s.base = s'.base
  otherBase : Signable.canonical S .full s.otherBase = Signable.canonical S .full s'.otherBase

theorem Side.SameRead.canonical_bases {s s' : Side B} (h : s.SameRead S s') :
    Signable.canonical S .full s.link.base1 = Signable.canonical S .full s'.link.base1 ∧
      Signable.canonical S .full s.link.base2 = Signable.canonical S .full s'.link.base2 := by
  obtain ⟨hside, -, hbase, hother⟩ := h
  unfold Side.base at hbase
  unfold Side.otherBase at hother
  rw [← hside] at hbase hother
  cases hprimary : s.isPrimary with
  | true =>
      simp only [hprimary, if_true] at hbase hother
      exact ⟨congrArg _ hbase, hother⟩
  | false =>
      simp only [hprimary, Bool.false_eq_true, if_false] at hbase hother
      exact ⟨hother, congrArg _ hbase⟩

theorem LinkedEvidence.checkSignatures_congr {e e' : LinkedEvidence B} {cap : Nat}
    (hside : e.body.SameRead S e'.body)
    (hslots : ∀ p, Base.proof? e.body.base = some p → e.SameSlots cap p e') :
    e.checkSignatures S cap = e'.checkSignatures S cap := by
  obtain ⟨hbase1, hbase2⟩ := hside.canonical_bases
  apply Evidence.checkSignatures_congr
  · exact congrArg Base.proof? hside.base
  · intro i hi
    exact LinkedEvidence.mergerMessage_congr hside.isPrimary hside.linkedMics hbase1 hbase2 hi
  · exact hslots

end

/-- **The quorum is the first mergers of the selected base.** Of a co-signed proof these are the
mergers of its credit, of one side of a link those of its own base: the first one for the primary
side and the second one for the other. Within the cap each of them has to have a signature in its
slot that it accepts for the message of its own level; otherwise the fault is that there is no
proof, or that of the first slot in which the signature is missing or wrong. Further slots are not
read, and of the other base only its octets. -/
theorem quorum_is_prefix (S : Suite) :
    (∀ (e : ProofEvidence) (cap : Nat), e.ChecksFirst S cap (some e.body.proof)) ∧
    (∀ (B : Type) [Base B] (e : LinkedEvidence B) (cap : Nat), e.ChecksFirst S cap
      (Base.proof? (if e.body.isPrimary then e.body.link.base1 else e.body.link.base2))) ∧
    (∀ (e e' : ProofEvidence) (cap : Nat), e.body = e'.body →
      e.SameSlots cap e.body.proof e' → e.checkSignatures S cap = e'.checkSignatures S cap) ∧
    ∀ (B : Type) [Base B] (e e' : LinkedEvidence B) (cap : Nat), e.body.SameRead S e'.body →
      (∀ p, Base.proof? e.body.base = some p → e.SameSlots cap p e') →
        e.checkSignatures S cap = e'.checkSignatures S cap := by
  refine ⟨fun e cap => e.checksFirst S cap, fun B _ e cap => e.checksFirst S cap, ?_, ?_⟩
  · intro e e' cap hbody hslots
    apply Evidence.checkSignatures_congr
    · exact congrArg _ hbody
    · intro i hi
      exact Evidence.mergerMessage_congr hbody hi
    · intro p hp
      exact Option.some.inj hp ▸ hslots
  · intro B _ e e' cap hside hslots
    exact LinkedEvidence.checkSignatures_congr hside hslots

/-- A proof of a credit that names one merger twice, with the signature that the merger has made for
the first slot in the second one as well. -/
def copiedEvidence : ProofEvidence :=
  let key := Suite.plain.publicKey (.padded [1])
  let linker := Suite.plain.publicKey (.padded [])
  let proof : Proof := ⟨.value ⟨key, ⟨100⟩, ⟨key, [key, key]⟩⟩ linker, 0, 10, none⟩
  let signed := (Evidence.ofBody ⟨proof⟩ : ProofEvidence).withCosignature .plain 0 (.padded [1])
  { signed with signatures := signed.signatures.set 1 (signed.signatures.get? 0) }

/-- The side whose other base is compacted and whose second slot holds no real signature has the
same quorum, since its credit has one merger; with no signature at all the first one is missing. Of
a merger who stands twice, the signature for the first slot is good there and nowhere else. -/
theorem quorum_is_prefix_alteredContractSide :
    (plainContractSide.body.SameRead .plain alteredContractSide.body ∧
      plainContractSide.body ≠ alteredContractSide.body) ∧
    alteredContractSide.checkSignatures .plain 3 = .ok () ∧
    (Evidence.ofBody alteredContractSide.body).checkSignatures .plain 3 =
      .error (.missingMergerSignature 0) ∧
    (copiedEvidence.body.proof.credit.merger? 0 = copiedEvidence.body.proof.credit.merger? 1 ∧
      copiedEvidence.signatures.get? 0 = copiedEvidence.signatures.get? 1) ∧
    copiedEvidence.checkSignatures .plain 1 = .ok () ∧
    copiedEvidence.checkSignatures .plain 2 = .error (.mergerSignatureFailed 1) := by
  obtain ⟨hproofs, hchecks, -, hunread⟩ := quorum_is_prefix .plain
  have hread : plainContractSide.body.SameRead .plain alteredContractSide.body :=
    ⟨rfl, rfl, rfl, rfl⟩
  have hchanged : plainContractSide.body ≠ alteredContractSide.body := by
    intro h
    exact absurd (congrArg (fun s => s.link.base2.isStripped) h) (by decide)
  have hslots : ∀ p, Base.proof? plainContractSide.body.base = some p →
      plainContractSide.SameSlots 3 p alteredContractSide := by
    intro p hp i hi
    obtain rfl := Option.some.inj hp
    have hfirst : i < 1 := hi
    obtain rfl : i = 0 := by omega
    rfl
  have hsigned : plainContractSide.checkSignatures .plain 3 = .ok () := by decide +kernel
  have hcopied : ∀ i < 1, ∃ key, copiedEvidence.body.proof.credit.merger? i = some key ∧
      copiedEvidence.Cosigned .plain i key := by
    intro i hi
    obtain rfl : i = 0 := by omega
    exact ⟨_, rfl, _, rfl, by decide +kernel⟩
  refine ⟨⟨hread, hchanged⟩, ?_, ?_, ⟨rfl, rfl⟩, ?_, ?_⟩
  · rw [← hunread Contract _ _ 3 hread hslots]
    exact hsigned
  · refine ((hchecks Contract _ 3).error_iff _).mpr (.slot (i := 0) (by decide) rfl ?_ ?_)
    · exact fun j hj => absurd hj (Nat.not_lt_zero j)
    · exact .missing rfl
  · exact (hproofs copiedEvidence 1).ok_iff.mpr ⟨_, rfl, hcopied⟩
  · refine ((hproofs copiedEvidence 2).error_iff _).mpr (.slot (i := 1) (by decide) rfl hcopied ?_)
    exact .failed rfl (by decide +kernel)

end Settlement
