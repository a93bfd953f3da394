import Settlement.Proofs.Evidence.Verification
import Settlement.Proofs.Signing.Records
import Settlement.Proofs.Suite.Signing

/-!
# Co-signing

A merger signs the body at a level of its own, where no co-signature is present
(`Evidence.mergerMessage_congr`). So mergers can co-sign in any order, and once
each of them has, the signatures verify for every cap: `Evidence.exists_cosign`.
-/

namespace Settlement

namespace MergerSignatures

theorem get?_set_self (s : MergerSignatures) {i : Nat} (hi : i < maxMergers)
    (signature : Signature) : (s.set i (some signature)).get? i = some signature := by
  have hlt : i < s.slots.length := s.length_slots ▸ hi
  simp [get?, set, hlt]

theorem get?_set_of_ne (s : MergerSignatures) {i j : Nat} (hij : i ≠ j)
    (signature : Option Signature) : (s.set i signature).get? j = s.get? j := by
  simp [get?, set, hij]

end MergerSignatures

namespace Evidence

variable {β : Type} [EvidenceBody β] {S : Suite} {e e' : Evidence β}

/-- A merger's message is of the body alone. -/
theorem mergerMessage_congr (hbody : e.body = e'.body) {i : Nat} (hi : i < maxMergers) :
    e.mergerMessage S i = e'.mergerMessage S i := by
  have hfull : ¬ Level.full ≤ Level.merger i := Level.not_full_le_merger ⟨i, hi⟩
  have hhidden : ∀ e : Evidence β, Signable.record S (Level.merger i) e =
      Field.record (Level.merger i) (Signable.fields S e.body) := fun e =>
    Field.record_concat_of_not_le _ hfull
  unfold mergerMessage Signable.message
  rw [hhidden, hhidden, hbody]

variable {credit : Credit} {i : Nat} {seed : Seed}

/-- The evidence after a merger's signature. -/
def withCosignature (S : Suite) (e : Evidence β) (index : Nat) (seed : Seed) : Evidence β :=
  { e with signatures :=
      e.signatures.set index (some (S.sign seed (e.mergerMessage S index))) }

theorem mergerMessage_withCosignature {j : Nat} (hj : j < maxMergers) :
    (e.withCosignature S i seed).mergerMessage S j = e.mergerMessage S j :=
  mergerMessage_congr (show (e.withCosignature S i seed).body = e.body from rfl) hj

/-- A merger of the credit can co-sign. -/
theorem sign_eq_ok (hcredit : e.credit? = some credit) (hi : i < maxMergers)
    (hkey : credit.merger? i = some (S.publicKey seed)) :
    e.sign S i seed = .ok (e.withCosignature S i seed) := by
  have hnot : ¬ maxMergers ≤ i := Nat.not_le.mpr hi
  unfold sign
  simp only [hcredit, hkey, ne_eq, not_true_eq_false, if_false]
  rw [if_neg hnot, attach, if_neg hnot]
  rfl

/-- Exactly the merger whose turn it is can co-sign, and fills its own slot. -/
theorem sign_eq_ok_iff : e.sign S i seed = .ok e' ↔ i < maxMergers ∧
    (∃ credit, e.credit? = some credit ∧ credit.merger? i = some (S.publicKey seed)) ∧
    e' = e.withCosignature S i seed := by
  constructor
  · intro h
    unfold sign at h
    split at h
    · cases h
    · next hi =>
      split at h
      · cases h
      · next credit hcredit =>
        split at h
        · cases h
        · next key hmerger =>
          split at h
          · cases h
          · next hkey =>
            obtain rfl := Decidable.not_not.mp hkey
            rw [attach, if_neg hi] at h
            exact ⟨Nat.not_le.mp hi, ⟨credit, hcredit, hmerger⟩, (Except.ok.inj h).symm⟩
  · rintro ⟨hi, ⟨credit, hcredit, hmerger⟩, rfl⟩
    exact sign_eq_ok hcredit hi hmerger

/-- A co-signature is accepted. -/
theorem cosigned_withCosignature (hS : S.Signs) (hi : i < maxMergers) :
    (e.withCosignature S i seed).Cosigned S i (S.publicKey seed) := by
  refine cosigned_iff.mpr ⟨_, e.signatures.get?_set_self hi _, ?_⟩
  rw [mergerMessage_withCosignature hi]
  exact hS.accepts seed _

/-- A co-signature leaves those of other mergers as they are. -/
theorem Cosigned.withCosignature_of_ne {j : Nat} {key : PublicKey} (h : e.Cosigned S j key)
    (hj : j < maxMergers) (hij : i ≠ j) : (e.withCosignature S i seed).Cosigned S j key := by
  obtain ⟨signature, hslot, haccepts⟩ := cosigned_iff.mp h
  refine cosigned_iff.mpr ⟨signature, (e.signatures.get?_set_of_ne hij _).trans hslot, ?_⟩
  rw [mergerMessage_withCosignature hj]
  exact haccepts

/-- The evidence after mergers have co-signed in the given order. -/
def cosign (S : Suite) (e : Evidence β) (order : List Nat) (seeds : Nat → Seed) :
    Except SigningFault (Evidence β) :=
  order.foldlM (fun e i => e.sign S i (seeds i)) e

variable {seeds : Nat → Seed} {order : List Nat}

/-- **Mergers can co-sign in any order.** Every signature that is made or was there is accepted at
the end. -/
theorem exists_cosign (hS : S.Signs) (hcredit : e.credit? = some credit)
    (hmergers : credit.mergers.length ≤ maxMergers)
    (hseeds : ∀ i key, credit.merger? i = some key → S.publicKey (seeds i) = key)
    (horder : ∀ i ∈ order, i < credit.mergers.length) :
    ∃ e', e.cosign S order seeds = .ok e' ∧ e'.body = e.body ∧
      ∀ i key, credit.merger? i = some key → i ∈ order ∨ e.Cosigned S i key →
        e'.Cosigned S i key := by
  -- over the order, for every evidence: what is signed so far is only in its slots
  induction order generalizing e with
  | nil => exact ⟨e, rfl, rfl, fun i key _ h => h.resolve_left nofun⟩
  | cons i order ih =>
      have hi : i < credit.mergers.length := horder i (.head _)
      have hi3 : i < maxMergers := Nat.lt_of_lt_of_le hi hmergers
      have hkey : credit.merger? i = some (S.publicKey (seeds i)) := by
        have hget : credit.merger? i = some credit.mergers[i] := List.getElem?_eq_getElem hi
        rw [hget, hseeds i _ hget]
      have hstep : e.sign S i (seeds i) = .ok (e.withCosignature S i (seeds i)) :=
        sign_eq_ok hcredit hi3 hkey
      obtain ⟨e', hcosign, hbody, hslots⟩ :=
        ih (e := e.withCosignature S i (seeds i)) hcredit fun j hj => horder j (.tail _ hj)
      refine ⟨e', ?_, hbody, fun j key hj h => hslots j key hj ?_⟩
      · unfold cosign at hcosign ⊢
        rw [List.foldlM_cons, hstep]
        exact hcosign
      · by_cases hij : i = j
        · subst hij
          obtain rfl := hseeds i key hj
          exact .inr (cosigned_withCosignature hS hi3)
        · rcases h with h | h
          · rcases List.mem_cons.mp h with rfl | h
            · exact absurd rfl hij
            · exact .inl h
          · have hj3 : j < maxMergers := by
              obtain ⟨hlt, -⟩ := List.getElem?_eq_some_iff.mp hj
              exact Nat.lt_of_lt_of_le hlt hmergers
            exact .inr (h.withCosignature_of_ne hj3 hij)

/-- Once every merger has co-signed, the signatures verify for every cap. -/
theorem checkSignatures_of_cosigned (hcredit : e.credit? = some credit)
    (h : ∀ i key, credit.merger? i = some key → e.Cosigned S i key) (cap : Nat) :
    e.checkSignatures S cap = .ok () :=
  checkSignatures_eq_ok_iff.mpr ⟨credit, hcredit, fun i _ key hkey => h i key hkey⟩

end Evidence

end Settlement
