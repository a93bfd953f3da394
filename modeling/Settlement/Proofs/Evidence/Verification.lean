import Settlement.Evidence.Basic
import Settlement.Proofs.Results

/-!
# When evidences verify

An evidence verifies exactly if its bases do and each merger within the cap has
a signature in its slot that it accepts over the record at a level of its own
(`Evidence.Cosigned`). A slot that does not hold one has a fault, which says
whether the signature is missing or wrong (`Evidence.SlotFault`).
The bases do not depend on the signatures, the signatures do not depend on the
instant.
-/

namespace Settlement

namespace Evidence

variable {β : Type} [EvidenceBody β] {S : Suite} {e : Evidence β}

theorem verify_eq_ok_iff {cap : Nat} {o : Options} :
    e.verify S cap o = .ok () ↔ e.verifyBases S o = .ok () ∧ e.checkSignatures S cap = .ok () :=
  check_bind_eq_ok_iff

/-- The slot of the merger with the given index holds a signature that the key accepts over the
evidence at that merger's level, which is as far above the first merger's as the index says. -/
def Cosigned (S : Suite) (e : Evidence β) (index : Nat) (key : PublicKey) : Prop :=
  ∃ signature, e.signatures.get? index = some signature ∧
    key.accepts S (Signable.message S (Level.evidence + UInt32.ofNat index) e) signature = true

/-- What is wrong with a merger's slot: it is empty, or the key rejects what it holds as a signature
over the evidence at that merger's level. -/
inductive SlotFault (S : Suite) (e : Evidence β) (index : Nat) (key : PublicKey) :
    ValidationFault → Prop
  | missing (hslot : e.signatures.get? index = none) :
      SlotFault S e index key (.missingMergerSignature index)
  | failed {signature : Signature} (hslot : e.signatures.get? index = some signature)
      (hrejected : key.accepts S (Signable.message S (Level.evidence + UInt32.ofNat index) e)
        signature = false) : SlotFault S e index key (.mergerSignatureFailed index)

variable {index : Nat} {key : PublicKey} {fault : ValidationFault}

/-- What the mergers sign is the evidence at their levels. -/
theorem mergerMessage_eq (S : Suite) (e : Evidence β) (index : Nat) :
    e.mergerMessage S index = Signable.message S (Level.evidence + UInt32.ofNat index) e := rfl

theorem cosigned_iff : e.Cosigned S index key ↔ ∃ signature,
    e.signatures.get? index = some signature ∧
      key.accepts S (e.mergerMessage S index) signature = true := Iff.rfl

/-- A slot vouches for its merger or has a fault. -/
theorem cosigned_or_slotFault (S : Suite) (e : Evidence β) (index : Nat) (key : PublicKey) :
    e.Cosigned S index key ∨ ∃ fault, e.SlotFault S index key fault := by
  cases hslot : e.signatures.get? index with
  | none => exact .inr ⟨_, .missing hslot⟩
  | some signature =>
      cases haccepts : key.accepts S (Signable.message S (Level.evidence + UInt32.ofNat index) e)
          signature with
      | false => exact .inr ⟨_, .failed hslot haccepts⟩
      | true => exact .inl ⟨signature, hslot, haccepts⟩

theorem SlotFault.not_cosigned (h : e.SlotFault S index key fault) :
    ¬ e.Cosigned S index key := by
  rintro ⟨signature, hsome, haccepts⟩
  cases h with
  | missing hnone => cases hnone.symm.trans hsome
  | failed hslot hrejected =>
      obtain rfl := Option.some.inj (hslot.symm.trans hsome)
      cases haccepts.symm.trans hrejected

theorem SlotFault.unique {fault' : ValidationFault} (h : e.SlotFault S index key fault)
    (h' : e.SlotFault S index key fault') : fault = fault' := by
  cases h with
  | missing hnone =>
      cases h' with
      | missing => rfl
      | failed hsome => cases hnone.symm.trans hsome
  | failed hsome =>
      cases h' with
      | missing hnone => cases hnone.symm.trans hsome
      | failed => rfl

theorem checkMergers_of_cosigned {rest : List PublicKey} (h : e.Cosigned S index key) :
    e.checkMergers S index (key :: rest) = e.checkMergers S (index + 1) rest := by
  obtain ⟨signature, hslot, haccepts⟩ := cosigned_iff.mp h
  rw [checkMergers, hslot]
  exact if_pos haccepts

theorem checkMergers_of_slotFault {rest : List PublicKey} (h : e.SlotFault S index key fault) :
    e.checkMergers S index (key :: rest) = .error fault := by
  rw [checkMergers]
  cases h with
  | missing hslot => rw [hslot]
  | failed hslot hrejected =>
      rw [← mergerMessage_eq] at hrejected
      rw [hslot]
      exact if_neg (Bool.eq_false_iff.mp hrejected)

/-- The first of the mergers vouches, and so do the rest. -/
theorem checkMergers_cons_eq_ok_iff {rest : List PublicKey} :
    e.checkMergers S index (key :: rest) = .ok () ↔
      e.Cosigned S index key ∧ e.checkMergers S (index + 1) rest = .ok () := by
  rcases e.cosigned_or_slotFault S index key with hvouches | ⟨fault, hfault⟩
  · rw [checkMergers_of_cosigned hvouches]
    exact (and_iff_right hvouches).symm
  · rw [checkMergers_of_slotFault hfault]
    exact ⟨nofun, fun ⟨hvouches, _⟩ => absurd hvouches hfault.not_cosigned⟩

theorem checkMergers_eq_ok_iff {mergers : List PublicKey} : ∀ {index : Nat},
    e.checkMergers S index mergers = .ok () ↔
      ∀ i key, mergers[i]? = some key → e.Cosigned S (index + i) key := by
  induction mergers with
  | nil => exact fun {index} => ⟨fun _ => nofun, fun _ => rfl⟩
  | cons merger rest ih =>
      intro index
      rw [checkMergers_cons_eq_ok_iff, ih]
      constructor
      · rintro ⟨hfirst, hrest⟩ i key hi
        cases i with
        | zero => exact Option.some.inj hi ▸ hfirst
        | succ i =>
            rw [← Nat.add_assoc, Nat.add_right_comm]
            exact hrest i key hi
      · intro h
        refine ⟨h 0 merger rfl, fun i key hi => ?_⟩
        rw [Nat.add_right_comm, Nat.add_assoc]
        exact h (i + 1) key hi

theorem checkSignatures_eq_ok_iff {cap : Nat} :
    e.checkSignatures S cap = .ok () ↔ ∃ credit, e.credit? = some credit ∧
      ∀ i < cap, ∀ key, credit.merger? i = some key → e.Cosigned S i key := by
  unfold checkSignatures
  cases e.credit? with
  | none => exact ⟨nofun, fun ⟨_, h, _⟩ => nomatch h⟩
  | some credit =>
      simp only [checkMergers_eq_ok_iff, Nat.zero_add, Option.some.injEq, exists_eq_left',
        List.getElem?_take]
      refine ⟨fun h i hi key hkey => h i key ?_, fun h i key hkey => ?_⟩
      · rw [if_pos hi]
        exact hkey
      · by_cases hi : i < cap
        · rw [if_pos hi] at hkey
          exact h i hi key hkey
        · rw [if_neg hi] at hkey
          cases hkey

end Evidence

/-- Both sides of a link verify the same two bases. -/
theorem LinkedEvidence.verifyBases_eq_ok_iff {B : Type} [Base B] {S : Suite}
    {e : LinkedEvidence B} {o : Options} : e.verifyBases S o = .ok () ↔
      Base.verify S e.body.link.base1 o = .ok () ∧ Base.verify S e.body.link.base2 o = .ok () :=
  check_bind_eq_ok_iff

end Settlement
