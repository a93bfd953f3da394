import Settlement.Proofs.Proof.Window
import Settlement.Proofs.Results
import Settlement.Proofs.Suite.Signing

/-!
# Signed proofs verify

What signing does to an assertion is one relation, `Assertion.SignedAs`. A proof
can be signed exactly by the principals that its assertion admits
(`Assertion.exists_signedBy_iff`), and the key that the signed proof asks for is
then the signer's (`Assertion.SignedAs.signatureKey`): the slot that is written
at signing is read back as the same principal. So a signed proof verifies at
every instant of its window, `Proof.verify_sign`.
-/

namespace Settlement

/-! ## The signer's place -/

namespace Credit

variable {c : Credit} {key : PublicKey}

theorem merger?_of_indexOf? {i : Nat} (h : c.indexOf? key = some i) :
    i < c.mergers.length ∧ c.merger? i = some key := by
  obtain ⟨hi, hkey, -⟩ := List.findIdx?_eq_some_iff_getElem.mp h
  exact ⟨hi, (List.getElem?_eq_getElem hi).trans (congrArg some (of_decide_eq_true hkey))⟩

theorem exists_indexOf?_iff : (∃ i, c.indexOf? key = some i) ↔ key ∈ c.mergers := by
  rw [← Option.isSome_iff_exists, indexOf?, List.findIdx?_isSome, List.any_eq_true]
  simp

end Credit

namespace Assertion

variable {a a' : Assertion} {root : Option PublicKey} {key : PublicKey}

/-- How an assertion is changed when the holder of a key is to sign it: the owner comes first, then
the first merger with the key, then the root key. -/
inductive SignedAs (root : Option PublicKey) (key : PublicKey) : Assertion → Assertion → Prop
  | owner {v : Value} {linker : PublicKey} (howner : v.owner = key) :
      SignedAs root key (.value v linker) (.value v linker)
  | slotOwner {v : Value} {slot : UInt8} {linker : PublicKey} (howner : v.owner = key) :
      SignedAs root key (.signer v slot linker) (.signer v ownerSlot linker)
  | slotMerger {v : Value} {slot : UInt8} {linker : PublicKey} {i : Nat} (howner : v.owner ≠ key)
      (hindex : v.credit.indexOf? key = some i) :
      SignedAs root key (.signer v slot linker) (.signer v (UInt8.ofNat i + 1) linker)
  | slotRoot {v : Value} {slot : UInt8} {linker : PublicKey} (howner : v.owner ≠ key)
      (hindex : v.credit.indexOf? key = none) (hroot : root = some key) :
      SignedAs root key (.signer v slot linker) (.signer v rootSlot linker)
  | merger {c : Credit} {subject : PublicKey} {index : UInt8} {i : Nat}
      (hindex : c.indexOf? key = some i) :
      SignedAs root key (.credential c subject index) (.credential c subject (UInt8.ofNat i))

theorem SignedAs.signedBy_eq (h : SignedAs root key a a') : a.signedBy key root = .ok a' := by
  cases h with
  | owner howner => exact if_pos howner
  | slotOwner howner => exact if_pos howner
  | slotMerger howner hindex => simp only [signedBy, howner, hindex, if_false]
  | slotRoot howner hindex hroot => simp only [signedBy, howner, hindex, hroot, if_false, if_true]
  | merger hindex => simp only [signedBy, hindex]

theorem signedAs_of_signedBy (h : a.signedBy key root = .ok a') : SignedAs root key a a' := by
  cases a with
  | value v linker =>
      rw [signedBy] at h
      split at h
      · next howner =>
        cases h
        exact .owner howner
      · cases h
  | signer v slot linker =>
      rw [signedBy] at h
      split at h
      · next howner =>
        cases h
        exact .slotOwner howner
      · next howner =>
        split at h
        · next i hindex =>
          cases h
          exact .slotMerger howner hindex
        · next hindex =>
          split at h
          · next hroot =>
            cases h
            exact .slotRoot howner hindex hroot
          · cases h
  | credential c subject index =>
      rw [signedBy] at h
      split at h
      · next i hindex =>
        cases h
        exact .merger hindex
      · cases h

theorem signedBy_eq_ok_iff : a.signedBy key root = .ok a' ↔ SignedAs root key a a' :=
  ⟨signedAs_of_signedBy, SignedAs.signedBy_eq⟩

/-- The key is that of a principal who may sign. -/
def Admits (root : Option PublicKey) (key : PublicKey) : Assertion → Prop
  | .value v _ => v.owner = key
  | .signer v _ _ => v.owner = key ∨ key ∈ v.credit.mergers ∨ root = some key
  | .credential c _ _ => key ∈ c.mergers

theorem SignedAs.admits (h : SignedAs root key a a') : a.Admits root key := by
  cases h with
  | owner howner => exact howner
  | slotOwner howner => exact .inl howner
  | slotMerger _ hindex => exact .inr (.inl (Credit.exists_indexOf?_iff.mp ⟨_, hindex⟩))
  | slotRoot _ _ hroot => exact .inr (.inr hroot)
  | merger hindex => exact Credit.exists_indexOf?_iff.mp ⟨_, hindex⟩

theorem Admits.exists_signedAs (h : a.Admits root key) : ∃ a', SignedAs root key a a' := by
  cases a with
  | value v linker => exact ⟨_, .owner h⟩
  | signer v slot linker =>
      by_cases howner : v.owner = key
      · exact ⟨_, .slotOwner howner⟩
      · cases hindex : v.credit.indexOf? key with
        | some i => exact ⟨_, .slotMerger howner hindex⟩
        | none =>
            have hnot : key ∉ v.credit.mergers := by
              rw [← Credit.exists_indexOf?_iff, hindex]
              exact nofun
            rcases h with h | h | h
            · exact absurd h howner
            · exact absurd h hnot
            · exact ⟨_, .slotRoot howner hindex h⟩
  | credential c subject index =>
      obtain ⟨i, hindex⟩ := Credit.exists_indexOf?_iff.mpr h
      exact ⟨_, .merger hindex⟩

/-- Exactly the principals that are admitted find a place. -/
theorem exists_signedBy_iff : (∃ a', a.signedBy key root = .ok a') ↔ a.Admits root key := by
  constructor
  · rintro ⟨a', h⟩
    exact (signedBy_eq_ok_iff.mp h).admits
  · intro h
    obtain ⟨a', h⟩ := h.exists_signedAs
    exact ⟨a', signedBy_eq_ok_iff.mpr h⟩

/-- Signing changes the place of the signer and nothing else. -/
theorem SignedAs.frame (h : SignedAs root key a a') :
    a'.credit = a.credit ∧ a'.value? = a.value? ∧ a'.linker? = a.linker? := by
  cases h <;> exact ⟨rfl, rfl, rfl⟩

/-- The slot of a merger is neither the owner's nor beyond the mergers. -/
theorem toNat_mergerSlot {i : Nat} (h : i < maxMergers) :
    (UInt8.ofNat i).toNat = i ∧ (UInt8.ofNat i + 1).toNat = i + 1 ∧
      UInt8.ofNat i + 1 ≠ ownerSlot := by
  have hall : ∀ i < maxMergers, (UInt8.ofNat i).toNat = i ∧ (UInt8.ofNat i + 1).toNat = i + 1 ∧
      UInt8.ofNat i + 1 ≠ ownerSlot := by decide
  exact hall i h

/-- The place that is recorded at signing is read back as the signer's key. -/
theorem SignedAs.signatureKey (h : SignedAs root key a a')
    (hmergers : a.credit.mergers.length ≤ maxMergers) : a'.signatureKey root = some key := by
  cases h with
  | owner howner => exact congrArg some howner
  | slotOwner howner => rw [Assertion.signatureKey, if_pos rfl, howner]
  | slotMerger _ hindex =>
      obtain ⟨hlt, hmerger⟩ := Credit.merger?_of_indexOf? hindex
      obtain ⟨-, hslot, hne⟩ := toNat_mergerSlot (Nat.lt_of_lt_of_le hlt hmergers)
      rw [Assertion.signatureKey, if_neg hne, hslot, if_pos (Nat.succ_le_of_lt hlt)]
      exact hmerger
  | @slotRoot v _ _ _ _ hroot =>
      have hbeyond : ¬ rootSlot.toNat ≤ v.credit.mergers.length := by
        have hslot : rootSlot.toNat = 255 := rfl
        have hmax : v.credit.mergers.length ≤ 3 := hmergers
        omega
      rw [Assertion.signatureKey, if_neg (by decide), if_neg hbeyond]
      exact hroot
  | merger hindex =>
      obtain ⟨hlt, hmerger⟩ := Credit.merger?_of_indexOf? hindex
      obtain ⟨hindex, -, -⟩ := toNat_mergerSlot (Nat.lt_of_lt_of_le hlt hmergers)
      rw [Assertion.signatureKey, hindex]
      exact hmerger

end Assertion

/-! ## Signing -/

namespace Proof

variable {S : Suite} {p p' : Proof} {seed : Seed} {requested now : Mics} {policy : Policy}

/-- No proof's message covers its signature. -/
theorem signerMessage_attach (p : Proof) (signature : Signature) :
    (p.attach signature).signerMessage S = p.signerMessage S := by
  obtain ⟨assertion, signed, expiration, s⟩ := p
  cases assertion <;> rfl

theorem prepare_eq_ok_iff {candidate : PublicKey} :
    p.prepare candidate requested policy now = .ok p' ↔
      ∃ a, p.assertion.SignedAs policy.root candidate a ∧
        p' = ⟨a, now, policy.expiration requested now, none⟩ := by
  unfold prepare
  rw [bind_eq_ok_iff]
  simp only [Assertion.signedBy_eq_ok_iff]
  refine exists_congr fun a => and_congr_right fun _ => ?_
  constructor
  · intro h
    exact (Except.ok.inj h).symm
  · rintro rfl
    rfl

theorem sign_eq_ok_iff : p.sign S seed requested policy now = .ok p' ↔
    ∃ a, p.assertion.SignedAs policy.root (S.publicKey seed) a ∧
      p' = (⟨a, now, policy.expiration requested now, none⟩ : Proof).attach
        (S.sign seed (signerMessage S ⟨a, now, policy.expiration requested now, none⟩)) := by
  unfold sign
  rw [bind_eq_ok_iff]
  simp only [prepare_eq_ok_iff]
  constructor
  · rintro ⟨q, ⟨a, ha, rfl⟩, hp'⟩
    exact ⟨a, ha, (Except.ok.inj hp').symm⟩
  · rintro ⟨a, ha, rfl⟩
    exact ⟨_, ⟨a, ha, rfl⟩, rfl⟩

theorem checkSignature_attach {o : Options} {key : PublicKey} {signature : Signature}
    (hkey : p.signatureKey o.policy.root = some key)
    (haccepts : key.accepts S (p.signerMessage S) signature = true) :
    (p.attach signature).checkSignature S o = .ok () := by
  have hsignature : (p.attach signature).signature = some signature := rfl
  have hkey' : (p.attach signature).signatureKey o.policy.root = some key := hkey
  simp only [checkSignature, hsignature, hkey', signerMessage_attach, haccepts, if_true]

/-- A signed proof carries a signature of the key that it asks for. -/
theorem checkSignature_of_sign (hS : S.Signs) (hmergers : p.credit.mergers.length ≤ maxMergers)
    (h : p.sign S seed requested policy now = .ok p') {o : Options} (ho : o.policy = policy) :
    p'.checkSignature S o = .ok () := by
  obtain ⟨a, ha, rfl⟩ := sign_eq_ok_iff.mp h
  have hkey : a.signatureKey o.policy.root = some (S.publicKey seed) := by
    rw [ho]
    exact ha.signatureKey hmergers
  exact checkSignature_attach hkey (hS.accepts seed _)

theorem window_of_sign (h : p.sign S seed requested policy now = .ok p') :
    p'.signedMics = now ∧ p'.expirationMics = policy.expiration requested now := by
  obtain ⟨a, -, rfl⟩ := sign_eq_ok_iff.mp h
  exact ⟨rfl, rfl⟩

/-- The window of a signed proof is sound under the policy of its signer. -/
theorem soundWindow_of_sign (hvalid : 0 < policy.maxValid)
    (hday : 0 ≤ now ∨ Mics.day ≤ policy.truncateAbove) (hnow : now < Int64.maxValue)
    (h : p.sign S seed requested policy now = .ok p') : p'.SoundWindow policy := by
  obtain ⟨hsigned, hexpiration⟩ := window_of_sign h
  obtain ⟨hopens, hlength⟩ := Policy.expiration_bounds requested hvalid hday hnow
  have hspan := (Policy.span_bounds requested hvalid).2
  rw [← hexpiration] at hopens hlength
  constructor
  · rw [hsigned]
    exact hopens
  · rw [hsigned]
    omega

/-- **A signed proof verifies** at every instant of its window, under the policy of its signer. -/
theorem verify_sign (hS : S.Signs) (hvalid : 0 < policy.maxValid)
    (htruncate : Mics.day ≤ policy.truncateAbove) (hmargin : 0 ≤ policy.margin)
    (hmergers : p.credit.mergers.length ≤ maxMergers) (hnow : now < Int64.maxValue)
    (h : p.sign S seed requested policy now = .ok p') {o : Options} (ho : o.policy = policy)
    (hholds : p'.Holds o.now) : p'.verify S o = .ok () := by
  have hwindow := soundWindow_of_sign hvalid (.inr htruncate) hnow h
  have hsignature := checkSignature_of_sign hS hmergers h ho
  rw [← ho] at hwindow hmargin
  exact verify_eq_ok_iff.mpr
    ⟨(hwindow.checkWindow_eq_ok_iff hmargin).mpr (.inr (hholds.widened hmargin)), hsignature⟩

end Proof

end Settlement
