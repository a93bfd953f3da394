import Settlement.Proofs.Evidence.Cosigning
import Settlement.Proofs.Linker.Linking
import Settlement.Proofs.Proof.Signing

/-!
# Honest settlements

Two participants sign their proofs, their mergers co-sign the two sides, and
the sides come to the linker one after the other, in either order. Under any
sensible policy this completes, over proofs and over contracts of their whole
values: every key that has to sign can, both sides verify as long as both
windows are open, and the linker joins them into a linkage that verifies.
-/

namespace Settlement

/-! ## Participants -/

/-- One side of a settlement and what its parties will do. -/
structure Participant where
  value : Value
  /-- Whether the proof has a slot for its signer, or is for the owner to sign. -/
  slotted : Bool
  /-- The seed of the proof's signer. -/
  signer : Seed
  /-- The length asked for the window. -/
  requested : Mics
  /-- The instant at which the proof is signed. -/
  signedMics : Mics
  /-- The seeds of the mergers, by index. -/
  mergers : Nat → Seed
  /-- The order in which the mergers co-sign. -/
  order : List Nat

namespace Participant

variable {S : Suite} {a : Participant} {linker : PublicKey} {policy : Policy} {p : Proof}

/-- The proof before it is signed. -/
def unsigned (a : Participant) (linker : PublicKey) : Proof :=
  if a.slotted then .withSigner a.value linker else .forValue a.value linker

/-- The signed proof. -/
def prove (S : Suite) (a : Participant) (linker : PublicKey) (policy : Policy) :
    Except SigningFault Proof :=
  (a.unsigned linker).sign S a.signer a.requested policy a.signedMics

/-- An evidence after the participant's mergers have co-signed it. -/
def cosign {β : Type} [EvidenceBody β] (S : Suite) (a : Participant) (e : Evidence β) :
    Except SigningFault (Evidence β) :=
  e.cosign S a.order a.mergers

/-- A valid value, a signer who may sign, and all mergers at hand. Who may sign is the owner or,
where the proof has a slot, a merger or the root key as well. -/
structure Honest (S : Suite) (root : Option PublicKey) (a : Participant) : Prop where
  wellFormed : a.value.WellFormed S
  signer : a.value.owner = S.publicKey a.signer ∨ a.slotted = true ∧
    (S.publicKey a.signer ∈ a.value.credit.mergers ∨ root = some (S.publicKey a.signer))
  signedMics_lt : a.signedMics < Int64.maxValue
  mergers : ∀ i key, a.value.credit.merger? i = some key → S.publicKey (a.mergers i) = key
  order : ∀ i, i ∈ a.order ↔ i < a.value.credit.mergers.length

theorem unsigned_frame (a : Participant) (linker : PublicKey) :
    (a.unsigned linker).credit = a.value.credit ∧ (a.unsigned linker).value? = some a.value ∧
      (a.unsigned linker).linker? = some linker := by
  unfold unsigned
  split <;> exact ⟨rfl, rfl, rfl⟩

/-- An honest participant's proof can be signed. -/
theorem Honest.exists_prove (h : a.Honest S policy.root) (linker : PublicKey) :
    ∃ p, a.prove S linker policy = .ok p := by
  have hadmits : (a.unsigned linker).assertion.Admits policy.root (S.publicKey a.signer) := by
    unfold unsigned
    split
    · rcases h.signer with howner | ⟨-, hother⟩
      · exact .inl howner
      · exact .inr hother
    · next hslotted =>
      rcases h.signer with howner | ⟨hslotted', -⟩
      · exact howner
      · exact absurd hslotted' hslotted
  obtain ⟨assertion, hassertion⟩ := hadmits.exists_signedAs
  exact ⟨_, Proof.sign_eq_ok_iff.mpr ⟨assertion, hassertion, rfl⟩⟩

/-- The signed proof is of the participant's value and names the linker. -/
theorem prove_frame (hp : a.prove S linker policy = .ok p) :
    p.credit = a.value.credit ∧ p.value? = some a.value ∧ p.linker? = some linker := by
  obtain ⟨assertion, hassertion, rfl⟩ := Proof.sign_eq_ok_iff.mp hp
  obtain ⟨hcredit, hvalue, hlinker⟩ := hassertion.frame
  obtain ⟨hcredit', hvalue', hlinker'⟩ := a.unsigned_frame linker
  exact ⟨hcredit.trans hcredit', hvalue.trans hvalue', hlinker.trans hlinker'⟩

/-- The window opens at signing and ends as the policy says. -/
theorem prove_holds (hp : a.prove S linker policy = .ok p) {t : Mics} (hfrom : a.signedMics ≤ t)
    (hto : t ≤ policy.expiration a.requested a.signedMics) : p.Holds t := by
  obtain ⟨assertion, -, rfl⟩ := Proof.sign_eq_ok_iff.mp hp
  exact ⟨hfrom, hto⟩

/-- The participant's evidence can be co-signed by all mergers, and is then complete. -/
theorem Honest.exists_cosign {β : Type} [EvidenceBody β] (hS : S.Signs)
    (h : a.Honest S policy.root) {e : Evidence β} (hcredit : e.credit? = some a.value.credit) :
    ∃ e', a.cosign S e = .ok e' ∧ e'.body = e.body ∧
      ∀ cap, e'.checkSignatures S cap = .ok () := by
  obtain ⟨e', hcosign, hbody, hslots⟩ := Evidence.exists_cosign hS hcredit
    h.wellFormed.wellFormed_credit.mergers_le h.mergers fun i hi => (h.order i).mp hi
  have hcredit' : e'.credit? = some a.value.credit := by
    rw [← hcredit, Evidence.credit?, hbody]
    rfl
  refine ⟨e', hcosign, hbody, Evidence.checkSignatures_of_cosigned hcredit' ?_⟩
  intro i key hkey
  obtain ⟨hi, -⟩ := List.getElem?_eq_some_iff.mp hkey
  exact hslots i key hkey (.inl ((h.order i).mpr hi))

end Participant

/-! ## Bases over the whole of a proof -/

/-- A base that is made of a proof alone, and verifies where a proof of a valid value does. -/
class WholeBase (B : Type) [Base B] where
  ofProof : Proof → B
  proof?_ofProof (p : Proof) : Base.proof? (ofProof p) = some p
  verify_ofProof {S : Suite} {p : Proof} {v : Value} {o : Options} :
    p.value? = some v → v.WellFormed S → p.verify S o = .ok () →
    Base.verify S (ofProof p) o = .ok ()

instance : WholeBase Proof where
  ofProof p := p
  proof?_ofProof _ := rfl
  verify_ofProof _ _ h := h

instance : WholeBase Contract where
  ofProof := Contract.wholeOf
  proof?_ofProof _ := rfl
  verify_ofProof {S p v o} hvalue hwell h := by
    have hamounts : (Contract.wholeOf p).checkAmounts = .ok () := by
      simp [Contract.checkAmounts, Contract.wholeOf, Contract.ofProof, hvalue,
        Point.inRange_iff.mpr hwell.bounds_point]
    exact check_bind_eq_ok_iff.mpr ⟨hamounts, h⟩

theorem WholeBase.linker?_ofProof {B : Type} [Base B] [WholeBase B] (p : Proof) :
    Base.linker? (WholeBase.ofProof p : B) = p.linker? := by
  rw [Base.linker?, WholeBase.proof?_ofProof]
  rfl

/-! ## Settlements -/

/-- The two sides can be co-signed, and at every linker with the given seed and parameters where
nothing waits for their link they are joined, in either order and at any two instants in both
windows that are not too far apart. The linkage holds both sides and verifies as long as both
windows are open. -/
def Settles {B : Type} [Base B] [DecidableEq B] (S : Suite) (seed : Seed) (config : LinkerConfig)
    (a b : Participant) (p q : Proof) (side : Bool → LinkedEvidence B) : Prop :=
  ∃ primary secondary, a.cosign S (side true) = .ok primary ∧
    b.cosign S (side false) = .ok secondary ∧
    ∀ k : Linker B, k.seed = seed → k.config = config →
      k.pending.find? ((side true).body.link.key S) = none →
      ∀ t1 t2, p.Holds t1 ∧ q.Holds t1 → p.Holds t2 ∧ q.Holds t2 →
        t2 < t1.plus config.pendingTtl →
        ∀ first second, first = primary ∧ second = secondary ∨
          first = secondary ∧ second = primary →
          (k.submit S first t1).1 = .ok .pending ∧
          ∃ l, ((k.submit S first t1).2.submit S second t2).1 = .ok (.linked l) ∧
            l.evidence true = primary ∧ l.evidence false = secondary ∧
            ∀ t, p.Holds t ∧ q.Holds t → ∀ k' : Linker B, k'.config = config →
              (k'.verify S l t).1 = .ok ()

section

variable {S : Suite} {seed : Seed} {config : LinkerConfig} {a b : Participant} {p q : Proof}

/-- Both proofs of a settlement, signed under the linker's policy and for the linker. -/
structure Proved (S : Suite) (seed : Seed) (config : LinkerConfig) (a b : Participant)
    (p q : Proof) : Prop where
  honest1 : a.Honest S config.policy.root
  honest2 : b.Honest S config.policy.root
  proof1 : a.prove S (S.publicKey seed) config.policy = .ok p
  proof2 : b.prove S (S.publicKey seed) config.policy = .ok q

/-- What the parameters of a linker have to be for honest settlements. -/
structure LinkerConfig.Sensible (config : LinkerConfig) : Prop where
  maxValid_pos : 0 < config.policy.maxValid
  margin_nonneg : 0 ≤ config.policy.margin
  day_le : Mics.day ≤ config.policy.truncateAbove

variable {B : Type} [Base B] [WholeBase B]

/-- An honest base verifies at every instant of its proof's window. -/
theorem Participant.Honest.verify_ofProof (hS : S.Signs) (hconfig : config.Sensible)
    (ha : a.Honest S config.policy.root) (hp : a.prove S (S.publicKey seed) config.policy = .ok p)
    {t : Mics} (ht : p.Holds t) :
    Base.verify S (WholeBase.ofProof p : B) (config.optionsAt t) = .ok () := by
  obtain ⟨-, hvalue, -⟩ := Participant.prove_frame hp
  have hmergers : (a.unsigned (S.publicKey seed)).credit.mergers.length ≤ maxMergers := by
    rw [(a.unsigned_frame _).1]
    exact ha.wellFormed.wellFormed_credit.mergers_le
  exact WholeBase.verify_ofProof hvalue ha.wellFormed
    (Proof.verify_sign hS hconfig.maxValid_pos hconfig.day_le hconfig.margin_nonneg hmergers
      ha.signedMics_lt hp rfl ht)

/-- A complete evidence over honest bases passes the linker's examination. -/
theorem Proved.examine (hS : S.Signs) (hconfig : config.Sensible)
    (h : Proved S seed config a b p q) {k : Linker B} (hseed : k.seed = seed)
    (hk : k.config = config) {isPrimary : Bool} {linkedMics : Mics} {e : LinkedEvidence B}
    (hbody : e.body = (LinkedEvidence.of isPrimary linkedMics (WholeBase.ofProof p : B)
      (WholeBase.ofProof q)).body)
    (hsigned : ∀ cap, e.checkSignatures S cap = .ok ()) {t : Mics} (ht : p.Holds t ∧ q.Holds t) :
    k.examine S e t = .ok () := by
  subst hseed
  subst hk
  rw [Linker.examine_eq_ok_iff, Linker.isAddressed_iff, Evidence.verify_eq_ok_iff,
    LinkedEvidence.verifyBases_eq_ok_iff, hbody]
  refine ⟨⟨?_, ?_⟩, ⟨?_, ?_⟩, hsigned _⟩
  · exact (WholeBase.linker?_ofProof p).trans (Participant.prove_frame h.proof1).2.2
  · exact (WholeBase.linker?_ofProof q).trans (Participant.prove_frame h.proof2).2.2
  · exact h.honest1.verify_ofProof hS hconfig h.proof1 ht.1
  · exact h.honest2.verify_ofProof hS hconfig h.proof2 ht.2

/-- The credit of a side is that of the participant behind its base. -/
theorem Proved.credit? (h : Proved S seed config a b p q) (isPrimary : Bool) (linkedMics : Mics) :
    (LinkedEvidence.of isPrimary linkedMics (WholeBase.ofProof p : B)
      (WholeBase.ofProof q)).credit? =
      some (if isPrimary then a.value.credit else b.value.credit) := by
  cases isPrimary with
  | true =>
      show (Base.proof? (WholeBase.ofProof p : B)).map Proof.credit = _
      rw [WholeBase.proof?_ofProof, Option.map_some, (Participant.prove_frame h.proof1).1]
      rfl
  | false =>
      show (Base.proof? (WholeBase.ofProof q : B)).map Proof.credit = _
      rw [WholeBase.proof?_ofProof, Option.map_some, (Participant.prove_frame h.proof2).1]
      rfl

variable [DecidableEq B]

/-- Complete sides that come one after the other are joined. -/
theorem Proved.submit_pair (hS : S.Signs) (hconfig : config.Sensible)
    (h : Proved S seed config a b p q) {k : Linker B} (hseed : k.seed = seed)
    (hk : k.config = config) {side1 side2 : Bool} (hside : side1 ≠ side2) {linkedMics : Mics}
    {e1 e2 : LinkedEvidence B}
    (hbody1 : e1.body = (LinkedEvidence.of side1 linkedMics (WholeBase.ofProof p : B)
      (WholeBase.ofProof q)).body)
    (hbody2 : e2.body = (LinkedEvidence.of side2 linkedMics (WholeBase.ofProof p : B)
      (WholeBase.ofProof q)).body)
    (hsigned1 : ∀ cap, e1.checkSignatures S cap = .ok ())
    (hsigned2 : ∀ cap, e2.checkSignatures S cap = .ok ())
    (hnone : k.pending.find? (e1.body.link.key S) = none) {t1 t2 : Mics}
    (ht1 : p.Holds t1 ∧ q.Holds t1) (ht2 : p.Holds t2 ∧ q.Holds t2)
    (hintime : t2 < t1.plus config.pendingTtl) :
    (k.submit S e1 t1).1 = .ok .pending ∧
      ∃ l, ((k.submit S e1 t1).2.submit S e2 t2).1 = .ok (.linked l) ∧
        l.evidence side1 = e1 ∧ l.evidence side2 = e2 ∧
        ∀ t, p.Holds t ∧ q.Holds t → ∀ k' : Linker B, k'.config = config →
          (k'.verify S l t).1 = .ok () := by
  have hexamine1 : ∀ t, p.Holds t ∧ q.Holds t → k.examine S e1 t = .ok () := fun t ht =>
    h.examine hS hconfig hseed hk hbody1 hsigned1 ht
  have hexamine2 : ∀ t, p.Holds t ∧ q.Holds t → k.examine S e2 t = .ok () := fun t ht =>
    h.examine hS hconfig hseed hk hbody2 hsigned2 ht
  have hisPrimary1 : e1.body.isPrimary = side1 := congrArg Side.isPrimary hbody1
  have hisPrimary2 : e2.body.isPrimary = side2 := congrArg Side.isPrimary hbody2
  have hopposite : e1.body.isPrimary ≠ e2.body.isPrimary := by
    rw [hisPrimary1, hisPrimary2]
    exact hside
  have hlink : e1.body.link = e2.body.link := by
    rw [hbody1, hbody2]
    rfl
  obtain ⟨hpending, hlinked⟩ := Linker.submit_pair (hexamine1 t1 ht1) (hexamine1 t2 ht2)
    (hexamine2 t2 ht2) hopposite hlink hnone (hk ▸ hintime)
  obtain ⟨hevidence1, hevidence2⟩ := Linkage.evidence_ofSides hopposite hlink
  refine ⟨hpending, _, hlinked, hisPrimary1 ▸ hevidence1, hisPrimary2 ▸ hevidence2, ?_⟩
  intro t ht k' hk'
  obtain ⟨haddressed, hverify1⟩ := Linker.examine_eq_ok_iff.mp (hexamine1 t ht)
  obtain ⟨-, hverify2⟩ := Linker.examine_eq_ok_iff.mp (hexamine2 t ht)
  rw [Linker.fst_verify, mapError_eq_ok_iff, hk', ← hk]
  exact Linker.verify_signedOfSides hS haddressed hopposite hlink hverify1 hverify2

theorem Proved.settles (hS : S.Signs) (hconfig : config.Sensible)
    (h : Proved S seed config a b p q) (linkedMics : Mics) :
    Settles S seed config a b p q fun isPrimary =>
      LinkedEvidence.of isPrimary linkedMics (WholeBase.ofProof p : B) (WholeBase.ofProof q) := by
  obtain ⟨primary, hprimary, hbody1, hsigned1⟩ :=
    h.honest1.exists_cosign hS (h.credit? (B := B) true linkedMics)
  obtain ⟨secondary, hsecondary, hbody2, hsigned2⟩ :=
    h.honest2.exists_cosign hS (h.credit? (B := B) false linkedMics)
  refine ⟨primary, secondary, hprimary, hsecondary, ?_⟩
  intro k hseed hk hnone t1 t2 ht1 ht2 hintime first second horder
  rcases horder with ⟨rfl, rfl⟩ | ⟨rfl, rfl⟩
  · exact h.submit_pair hS hconfig hseed hk Bool.true_eq_false.mp hbody1 hbody2 hsigned1 hsigned2
      (hbody1 ▸ hnone) ht1 ht2 hintime
  · obtain ⟨hpending, l, hlinked, hevidence2, hevidence1, hverify⟩ :=
      h.submit_pair hS hconfig hseed hk Bool.false_ne_true hbody2 hbody1 hsigned2 hsigned1
        (hbody2 ▸ hnone) ht1 ht2 hintime
    exact ⟨hpending, l, hlinked, hevidence1, hevidence2, hverify⟩

end

/-- **An honest settlement completes.** If the signatures of the suite's keys verify and the
parameters are sensible, honest participants can sign their proofs for the linker, and both as
proofs and as contracts over their whole values these settle. -/
theorem honest_settles {S : Suite} (hS : S.Signs) (seed : Seed) {config : LinkerConfig}
    (hconfig : config.Sensible) {a b : Participant} (ha : a.Honest S config.policy.root)
    (hb : b.Honest S config.policy.root) (linkedMics : Mics) :
    ∃ p q, a.prove S (S.publicKey seed) config.policy = .ok p ∧
      b.prove S (S.publicKey seed) config.policy = .ok q ∧
      Settles S seed config a b p q (fun isPrimary => LinkedEvidence.of isPrimary linkedMics p q) ∧
      Settles S seed config a b p q
        (fun isPrimary => LinkedEvidence.ofProofs isPrimary linkedMics p q) := by
  obtain ⟨p, hp⟩ := ha.exists_prove (S.publicKey seed)
  obtain ⟨q, hq⟩ := hb.exists_prove (S.publicKey seed)
  have hproved : Proved S seed config a b p q := ⟨ha, hb, hp, hq⟩
  exact ⟨p, q, hp, hq, hproved.settles (B := Proof) hS hconfig linkedMics,
    hproved.settles (B := Contract) hS hconfig linkedMics⟩

/-- The participant with a number who owes five, with three mergers of which two share a key. The
proof has a slot and the second merger signs it, or the owner signs. -/
def plainParticipant (number : UInt8) (slotted : Bool) : Participant :=
  let owner : Seed := .padded [number]
  let mergers : Nat → Seed := fun i => if i = 1 then .padded [number, 1] else .padded [number, 2]
  { value := ⟨Suite.plain.publicKey owner, ⟨-5⟩, ⟨Suite.plain.publicKey owner,
      [Suite.plain.publicKey (mergers 0), Suite.plain.publicKey (mergers 1),
        Suite.plain.publicKey (mergers 2)]⟩⟩
    slotted := slotted
    signer := if slotted then mergers 1 else owner
    requested := 0
    signedMics := 7
    mergers := mergers
    order := [2, 0, 1] }

theorem honest_plainParticipant (number : UInt8) (slotted : Bool) :
    (plainParticipant number slotted).Honest Suite.plain none where
  wellFormed :=
    ⟨Point.inRange_iff.mp rfl, rfl, Nat.le_add_left 1 2, Nat.le_refl 3, rfl, fun _ _ => rfl⟩
  signer := by
    cases slotted with
    | true => exact .inr ⟨rfl, .inl (.tail _ (.head _))⟩
    | false => exact .inl rfl
  signedMics_lt := (by decide : (7 : Mics) < Int64.maxValue)
  mergers i key h := by
    match i with
    | 0 => exact Option.some.inj h
    | 1 => exact Option.some.inj h
    | 2 => exact Option.some.inj h
    | _ + 3 => cases h
  order i := by
    show i ∈ [2, 0, 1] ↔ i < 3
    simp only [List.mem_cons, List.not_mem_nil, or_false]
    omega

/-- Two such participants settle at a new linker. -/
theorem honest_settles_plainParticipant :
    ∃ p q primary secondary l,
      (plainParticipant 1 true).prove Suite.plain (Suite.plain.publicKey (.padded [])) {} = .ok p ∧
      (plainParticipant 2 false).prove Suite.plain (Suite.plain.publicKey (.padded [])) {} = .ok q ∧
      (plainParticipant 1 true).cosign Suite.plain (LinkedEvidence.of true 3 p q) = .ok primary ∧
      (plainParticipant 2 false).cosign Suite.plain (LinkedEvidence.of false 3 p q) =
        .ok secondary ∧
      (((Linker.new (.padded []) {}).submit Suite.plain secondary 9).2.submit
        Suite.plain primary 8).1 = .ok (.linked l) := by
  have hconfig : LinkerConfig.Sensible {} := ⟨by decide, by decide, by decide⟩
  obtain ⟨p, q, hp, hq, ⟨primary, secondary, hprimary, hsecondary, hsettle⟩, -⟩ :=
    honest_settles Suite.plain_signs (.padded []) hconfig (honest_plainParticipant 1 true)
      (honest_plainParticipant 2 false) 3
  have hholds : ∀ t : Mics, 7 ≤ t → t ≤ Policy.expiration {} 0 7 → p.Holds t ∧ q.Holds t :=
    fun t hfrom hto =>
      ⟨Participant.prove_holds hp hfrom hto, Participant.prove_holds hq hfrom hto⟩
  obtain ⟨-, l, hl, -⟩ := hsettle (Linker.new (.padded []) {}) rfl rfl rfl 9 8
    (hholds 9 (by decide) (by decide)) (hholds 8 (by decide) (by decide)) (by decide)
    secondary primary (.inr ⟨rfl, rfl⟩)
  exact ⟨p, q, primary, secondary, l, hp, hq, hprimary, hsecondary, hl⟩

end Settlement
