import Settlement.Proofs.Linkage.Verification
import Settlement.Proofs.Linker.Matching
import Settlement.Proofs.Signing.Authenticity

/-!
# Compacted links

Whatever is signed over a link reads its bases through their full records alone
(`Link.SameRecords`), and so does the name of the link. Compaction keeps those
records, so a side or a linkage may be compacted in either base or in both and
every signature on it stands as before. What reads the proof itself then stops
to work: verification, co-signing by the mergers of the base, and everything
that asks a base for its linker. Both halves are `compaction_unseen`.
-/

namespace Settlement

variable {S : Suite}

/-! ## What is signed over a link -/

section

variable {B : Type} [Base B]

/-- Links of one instant whose bases have the same full records. -/
structure Link.SameRecords (S : Suite) (l l' : Link B) : Prop where
  linkedMics : l.linkedMics = l'.linkedMics
  base1 : Signable.record S .full l.base1 = Signable.record S .full l'.base1
  base2 : Signable.record S .full l.base2 = Signable.record S .full l'.base2

theorem Link.SameRecords.key_eq {l l' : Link B} (h : l.SameRecords S l') :
    l.key S = l'.key S := by
  unfold Link.key Signable.canonical
  rw [h.linkedMics, h.base1, h.base2]

theorem LinkedEvidence.record_congr {e e' : LinkedEvidence B}
    (hside : e.body.isPrimary = e'.body.isPrimary) (hlink : e.body.link.SameRecords S e'.body.link)
    (hsignatures : e.signatures = e'.signatures) (level : Level) :
    Signable.record S level e = Signable.record S level e' := by
  have hfields : Signable.fields S e = Signable.fields S e' := by
    simp only [Signable.fields, hside, hlink.linkedMics, hlink.base1, hlink.base2, hsignatures]
  exact congrArg (Field.record level) hfields

theorem Linkage.record_congr {l l' : Linkage B} (hlink : l.link.SameRecords S l'.link)
    (hprimary : l.primarySignatures = l'.primarySignatures)
    (hsecondary : l.secondarySignatures = l'.secondarySignatures)
    (hlinker : l.linkerSignature = l'.linkerSignature) (level : Level) :
    Signable.record S level l = Signable.record S level l' := by
  have hfields : Signable.fields S l = Signable.fields S l' := by
    simp only [Signable.fields, hlink.linkedMics, hlink.base1, hlink.base2, hprimary, hsecondary,
      hlinker]
  exact congrArg (Field.record level) hfields

end

/-! ## Compaction of either base -/

namespace Link

/-- The link with the bases compacted that are asked for. -/
def compact (S : Suite) (first second : Bool) (l : Link Contract) : Link Contract :=
  ⟨l.linkedMics, if first then l.base1.strip S else l.base1,
    if second then l.base2.strip S else l.base2⟩

theorem sameRecords_compact (l : Link Contract) (first second : Bool) :
    (l.compact S first second).SameRecords S l where
  linkedMics := rfl
  base1 := by cases first <;> rfl
  base2 := by cases second <;> rfl

/-- One base or both have lost their proofs. -/
def IsCompacted (l : Link Contract) : Prop :=
  l.base1.isStripped = true ∨ l.base2.isStripped = true

theorem isCompacted_compact (l : Link Contract) {first second : Bool}
    (h : first = true ∨ second = true) : (l.compact S first second).IsCompacted := by
  rcases h with rfl | rfl
  · exact .inl l.base1.isStripped_strip
  · exact .inr l.base2.isStripped_strip

end Link

/-- A side with the bases compacted that are asked for. -/
def LinkedEvidence.compact (S : Suite) (first second : Bool) (e : LinkedEvidence Contract) :
    LinkedEvidence Contract :=
  { e with body := { e.body with link := e.body.link.compact S first second } }

/-- A linkage with the bases compacted that are asked for. -/
def Linkage.compact (S : Suite) (first second : Bool) (l : Linkage Contract) : Linkage Contract :=
  { l with link := l.link.compact S first second }

/-- A side whose own base is compacted has lost the proof of that base. -/
theorem LinkedEvidence.isStripped_base_compact (e : LinkedEvidence Contract) {first second : Bool}
    (h : (if e.body.isPrimary then first else second) = true) :
    (e.compact S first second).body.base.isStripped = true := by
  show Contract.isStripped (if e.body.isPrimary then _ else _) = true
  split at h
  · next hprimary =>
    rw [if_pos hprimary, h]
    exact e.body.link.base1.isStripped_strip
  · next hprimary =>
    rw [if_neg hprimary, h]
    exact e.body.link.base2.isStripped_strip

theorem LinkedEvidence.record_compact (e : LinkedEvidence Contract) (first second : Bool)
    (level : Level) :
    Signable.record S level (e.compact S first second) = Signable.record S level e := by
  apply LinkedEvidence.record_congr
  · rfl
  · exact e.body.link.sameRecords_compact first second
  · rfl

theorem Linkage.record_compact (l : Linkage Contract) (first second : Bool) (level : Level) :
    Signable.record S level (l.compact S first second) = Signable.record S level l := by
  apply Linkage.record_congr
  · exact l.link.sameRecords_compact first second
  · rfl
  · rfl
  · rfl

theorem Linkage.evidence_compact (l : Linkage Contract) (first second isPrimary : Bool) :
    (l.compact S first second).evidence isPrimary =
      LinkedEvidence.compact S first second (l.evidence isPrimary) := rfl

theorem LinkedEvidence.mergerMessage_compact (e : LinkedEvidence Contract) (first second : Bool)
    (index : Nat) :
    (e.compact S first second).mergerMessage S index = e.mergerMessage S index :=
  congrArg (signedMessage _) (e.record_compact first second _)

theorem Linkage.linkerMessage_compact (l : Linkage Contract) (first second : Bool) :
    (l.compact S first second).linkerMessage S = l.linkerMessage S :=
  congrArg (signedMessage _) (l.record_compact first second _)

/-! ## What needs the proof -/

namespace Contract

variable {c : Contract}

theorem proof?_of_isStripped (h : c.isStripped = true) : Base.proof? c = none :=
  Option.isNone_iff_eq_none.mp h

theorem linker?_of_isStripped (h : c.isStripped = true) : Base.linker? c = none := by
  rw [Base.linker?, proof?_of_isStripped h]
  rfl

theorem verify_ne_ok_of_isStripped (h : c.isStripped = true) (o : Options) :
    Base.verify S c o ≠ .ok () := by
  intro hverify
  have hproof : c.proof? = none := proof?_of_isStripped h
  obtain ⟨-, p, hp, -⟩ := Contract.verify_eq_ok_iff.mp hverify
  rw [hproof] at hp
  cases hp

end Contract

/-- Two bases that both name one linker have their proofs. -/
theorem Link.IsCompacted.not_linkers {l : Link Contract} (h : l.IsCompacted) (key : PublicKey) :
    ¬ (Base.linker? l.base1 = some key ∧ Base.linker? l.base2 = some key) := by
  rintro ⟨hlinker1, hlinker2⟩
  rcases h with h | h
  · cases (Contract.linker?_of_isStripped h).symm.trans hlinker1
  · cases (Contract.linker?_of_isStripped h).symm.trans hlinker2

namespace LinkedEvidence

variable {e : LinkedEvidence Contract}

theorem exists_error_of_isCompacted (h : e.body.link.IsCompacted) (cap : Nat) (o : Options) :
    ∃ fault, e.verify S cap o = .error fault := by
  rw [exists_error_iff, Ne, Evidence.verify_eq_ok_iff, LinkedEvidence.verifyBases_eq_ok_iff]
  rintro ⟨⟨hbase1, hbase2⟩, -⟩
  rcases h with h | h
  · exact Contract.verify_ne_ok_of_isStripped h o hbase1
  · exact Contract.verify_ne_ok_of_isStripped h o hbase2

/-- Without its proof a base supplies no mergers. -/
theorem sign_of_isStripped (h : e.body.base.isStripped = true) (index : Nat) (seed : Seed) :
    e.sign S index seed = .error
      (if maxMergers ≤ index then .mergerIndexOutOfRange index else .missingCredit) := by
  have hcredit : e.credit? = none := by
    show (Base.proof? e.body.base).map Proof.credit = none
    rw [Contract.proof?_of_isStripped h]
    rfl
  unfold Evidence.sign
  rw [hcredit]
  split <;> rfl

end LinkedEvidence

namespace Linkage

variable {l : Linkage Contract}

theorem sharedLinker_of_isCompacted (h : l.link.IsCompacted) :
    l.sharedLinker = .error .missingLinkerKey := by
  unfold sharedLinker
  rcases h with h | h
  · rw [Contract.linker?_of_isStripped h]
  · rw [Contract.linker?_of_isStripped h]
    cases Base.linker? l.link.base1 <;> rfl

theorem verify_of_isCompacted (h : l.link.IsCompacted) (o : Options) :
    l.verify S o = .error .missingLinkerKey := by
  unfold verify verifyBases
  rw [sharedLinker_of_isCompacted h]
  rfl

theorem sign_of_isCompacted (h : l.link.IsCompacted) (seed : Seed) :
    l.sign S seed = .error .keyMismatch := by
  have hlinker : l.linker? = none := by
    rw [linker?, sharedLinker_of_isCompacted h]
    rfl
  unfold sign
  rw [hlinker]
  rfl

end Linkage

namespace Linker

variable {k : Linker Contract} {e : LinkedEvidence Contract}

theorem isAddressed_of_isCompacted (h : e.body.link.IsCompacted) : k.isAddressed S e = false :=
  Bool.eq_false_iff.mpr fun haddressed => h.not_linkers _ (isAddressed_iff.mp haddressed)

theorem submit_of_isCompacted (h : e.body.link.IsCompacted) (now : Mics) :
    k.submit S e now = (.error .notAddressed, k) := by
  have hexamine : k.examine S e now = .error .notAddressed := by
    unfold examine
    rw [isAddressed_of_isCompacted h]
    rfl
  exact submit_of_error hexamine

theorem link_of_isCompacted {e' : LinkedEvidence Contract}
    (h : e.body.link.IsCompacted ∨ e'.body.link.IsCompacted) (now : Mics) :
    k.link S e e' now = .error .notAddressed := by
  have haddressed : (!k.isAddressed S e || !k.isAddressed S e') = true := by
    rcases h with h | h
    · rw [isAddressed_of_isCompacted h]
      rfl
    · rw [isAddressed_of_isCompacted h]
      exact Bool.or_true _
  unfold link
  rw [if_pos haddressed]
  rfl

end Linker

/-- **Compaction is unseen by every signer.** A contract loses its proof and keeps its hash, its
octets and its messages when it is compacted, a second compaction does nothing, and a side or a
linkage with either base or both compacted has the messages, the octets and the name that it had:
every signature over it gets the verdict that it got. What reads the proof of a compacted base fails
on all terms, and a linker is left as it was. -/
theorem compaction_unseen (S : Suite) :
    (∀ c : Contract, (c.strip S).isStripped = true ∧ (c.strip S).strip S = c.strip S ∧
      (c.strip S).hash S = c.hash S ∧
      ∀ level, Signable.canonical S level (c.strip S) = Signable.canonical S level c ∧
        Signable.message S level (c.strip S) = Signable.message S level c) ∧
    (∀ (e : LinkedEvidence Contract) (first second : Bool),
      (first = true ∨ second = true → (e.compact S first second).body.link.IsCompacted) ∧
      ((if e.body.isPrimary then first else second) = true →
        (e.compact S first second).body.base.isStripped = true) ∧
      (∀ index, (e.compact S first second).mergerMessage S index = e.mergerMessage S index ∧
        ∀ (key : PublicKey) (signature : Signature),
          key.check S ((e.compact S first second).mergerMessage S index) signature =
            key.check S (e.mergerMessage S index) signature) ∧
      (∀ level, Signable.canonical S level (e.compact S first second) =
        Signable.canonical S level e) ∧
      (e.compact S first second).body.link.key S = e.body.link.key S) ∧
    (∀ (l : Linkage Contract) (first second : Bool),
      (first = true ∨ second = true → (l.compact S first second).link.IsCompacted) ∧
      ((l.compact S first second).linkerMessage S = l.linkerMessage S ∧
        ∀ (key : PublicKey) (signature : Signature),
          key.check S ((l.compact S first second).linkerMessage S) signature =
            key.check S (l.linkerMessage S) signature) ∧
      (∀ level, Signable.canonical S level (l.compact S first second) =
        Signable.canonical S level l) ∧
      (l.compact S first second).link.key S = l.link.key S ∧
      ∀ isPrimary, (l.compact S first second).evidence isPrimary =
        LinkedEvidence.compact S first second (l.evidence isPrimary)) ∧
    (∀ (c : Contract) (o : Options), c.isStripped = true → ∃ fault, c.verify S o = .error fault) ∧
    (∀ e : LinkedEvidence Contract, e.body.link.IsCompacted →
      (∀ cap o, ∃ fault, e.verify S cap o = .error fault) ∧
      ∀ (k : Linker Contract) (now : Mics), k.submit S e now = (.error .notAddressed, k) ∧
        ∀ e', k.link S e e' now = .error .notAddressed ∧
          k.link S e' e now = .error .notAddressed) ∧
    (∀ (e : LinkedEvidence Contract) (index : Nat) (seed : Seed), e.body.base.isStripped = true →
      e.sign S index seed = .error
        (if maxMergers ≤ index then .mergerIndexOutOfRange index else .missingCredit)) ∧
    (∀ l : Linkage Contract, l.link.IsCompacted →
      (∀ o, l.verify S o = .error .missingLinkerKey) ∧
        ∀ seed, l.sign S seed = .error .keyMismatch) := by
  refine ⟨?_, ?_, ?_, ?_, ?_, ?_, ?_⟩
  · intro c
    exact ⟨c.isStripped_strip, c.strip_strip, c.hash_strip, fun level =>
      ⟨congrArg Cbor.canonical (c.record_strip level),
        congrArg (signedMessage level) (c.record_strip level)⟩⟩
  · intro e first second
    refine ⟨e.body.link.isCompacted_compact, e.isStripped_base_compact, fun index => ?_,
      fun level => ?_, ?_⟩
    · have hmessage := e.mergerMessage_compact (S := S) first second index
      exact ⟨hmessage, fun key signature => by rw [hmessage]⟩
    · exact congrArg Cbor.canonical (e.record_compact first second level)
    · exact (e.body.link.sameRecords_compact first second).key_eq
  · intro l first second
    have hmessage := l.linkerMessage_compact (S := S) first second
    refine ⟨l.link.isCompacted_compact, ⟨hmessage, fun key signature => by rw [hmessage]⟩,
      fun level => ?_, ?_, ?_⟩
    · exact congrArg Cbor.canonical (l.record_compact first second level)
    · exact (l.link.sameRecords_compact first second).key_eq
    · exact l.evidence_compact first second
  · intro c o h
    exact exists_error_iff.mpr (Contract.verify_ne_ok_of_isStripped h o)
  · intro e h
    refine ⟨LinkedEvidence.exists_error_of_isCompacted h, fun k now => ?_⟩
    exact ⟨Linker.submit_of_isCompacted h now, fun e' =>
      ⟨Linker.link_of_isCompacted (.inl h) now, Linker.link_of_isCompacted (.inr h) now⟩⟩
  · intro e index seed h
    exact LinkedEvidence.sign_of_isStripped h index seed
  · intro l h
    exact ⟨Linkage.verify_of_isCompacted h, Linkage.sign_of_isCompacted h⟩

/-- A side that verifies, compacted in both bases: its merger's signature stands, nobody can make it
again, and the linker that its proofs named sends it away. -/
theorem compaction_unseen_plainContractSide :
    plainContractSide.verify .plain 3 { now := 4 } = .ok () ∧
    ((plainContractSide.compact .plain true true).body.base.isStripped = true ∧
      (plainContractSide.compact .plain true true).body.link.IsCompacted) ∧
    (plainContractSide.compact .plain true true).mergerMessage .plain 0 =
      plainContractSide.mergerMessage .plain 0 ∧
    (plainContractSide.compact .plain true true).sign .plain 0 (.padded [1]) =
      .error .missingCredit ∧
    (Linker.new (.padded []) {}).submit .plain (plainContractSide.compact .plain true true) 4 =
      (.error .notAddressed, .new (.padded []) {}) := by
  obtain ⟨-, hevidence, -, -, hcompacted, hstripped, -⟩ := compaction_unseen .plain
  obtain ⟨hlink, hbase, hmessages, -⟩ := hevidence plainContractSide true true
  replace hlink := hlink (.inl rfl)
  replace hbase := hbase rfl
  refine ⟨by decide +kernel, ⟨hbase, hlink⟩, ?_, ?_, ?_⟩
  · exact (hmessages 0).1
  · exact hstripped _ 0 (.padded [1]) hbase
  · exact ((hcompacted _ hlink).2 (.new (.padded []) {}) 4).1

end Settlement
