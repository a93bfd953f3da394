import Settlement.Proofs.Proof.Signing

/-!
# Principals

Who may sign is asked twice: at signing, where the candidate's place is
recorded, and at verification, where the place is read back as a key. A
candidate finds a place exactly if the assertion admits it, the place is read
back as the candidate, and no place that a proof may hold is read as anyone who
is not permitted (`Proof.prepare_resolves`). Written in place, a proof that
refuses the candidate is left as it was: `Proof.prepareInPlace_of_not_admits`.
-/

namespace Settlement

namespace Credit

variable {c : Credit} {key : PublicKey}

theorem indexOf?_eq_none (h : key ∉ c.mergers) : c.indexOf? key = none := by
  cases hindex : c.indexOf? key with
  | none => rfl
  | some i => exact absurd (exists_indexOf?_iff.mp ⟨i, hindex⟩) h

theorem mem_of_merger? {index : Nat} (h : c.merger? index = some key) : key ∈ c.mergers :=
  List.mem_of_getElem? h

end Credit

namespace Assertion

variable {a a' : Assertion} {root : Option PublicKey} {key : PublicKey} {kinds : Principals}

/-- The subject of a credential. -/
def subject? : Assertion → Option PublicKey
  | .credential _ subject _ => some subject
  | _ => none

/-- The key is that of a principal of one of the kinds: of the value's owner, of a merger of the
credit, or the root key. -/
def HasPrincipal (kinds : Principals) (root : Option PublicKey) (key : PublicKey)
    (a : Assertion) : Prop :=
  (kinds.owner = true ∧ ∃ v, a.value? = some v ∧ v.owner = key) ∨
    (kinds.merger = true ∧ key ∈ a.credit.mergers) ∨ (kinds.root = true ∧ root = some key)

/-- An assertion admits the principals of the kinds that it permits. -/
theorem hasPrincipal_permitted_iff :
    a.HasPrincipal a.permitted root key ↔ a.Admits root key := by
  cases a with
  | value v linker => simp [HasPrincipal, permitted, Admits, value?]
  | signer v slot linker => simp [HasPrincipal, permitted, Admits, value?, credit]
  | credential c subject index => simp [HasPrincipal, permitted, Admits, credit]

/-- Whatever place is recorded, it is read as a principal who is admitted, or as nobody. -/
theorem admits_of_signatureKey (h : a.signatureKey root = some key) : a.Admits root key := by
  cases a with
  | value v linker => exact Option.some.inj h
  | signer v slot linker =>
      rw [signatureKey] at h
      split at h
      · exact .inl (Option.some.inj h)
      · split at h
        · exact .inr (.inl (Credit.mem_of_merger? h))
        · exact .inr (.inr h)
  | credential c subject index => exact Credit.mem_of_merger? h

theorem signedBy_of_not_admits (h : ¬ a.Admits root key) :
    a.signedBy key root = .error .signerNotPermitted := by
  cases a with
  | value v linker => exact if_neg h
  | signer v slot linker =>
      rw [Admits, not_or, not_or] at h
      obtain ⟨howner, hmerger, hroot⟩ := h
      simp only [signedBy, howner, Credit.indexOf?_eq_none hmerger, hroot, if_false]
  | credential c subject index =>
      simp only [signedBy, Credit.indexOf?_eq_none h]

theorem SignedAs.subject?_eq (h : SignedAs root key a a') : a'.subject? = a.subject? := by
  cases h <;> rfl

end Assertion

namespace Proof

variable {p p' : Proof} {candidate : PublicKey} {requested now : Mics} {policy : Policy}
  {root : Option PublicKey}

/-- The subject of a credential. -/
def subject? (p : Proof) : Option PublicKey := p.assertion.subject?

/-! ## Signing in place -/

/-- Records the candidate's place in the proof, each kind of principal only where the assertion
permits it. Comes with what the proof is then, whether or not the candidate is refused. -/
def recordSigner (candidate : PublicKey) (root : Option PublicKey) (p : Proof) :
    Except SigningFault Unit × Proof :=
  let permitted := p.assertion.permitted
  match p.assertion with
  | .value v _ => (if v.owner = candidate then .ok () else .error .signerNotPermitted, p)
  | .signer v _ linker =>
    if permitted.contains { owner := true } ∧ v.owner = candidate then
      (.ok (), { p with assertion := .signer v Assertion.ownerSlot linker })
    else
      let index :=
        if permitted.contains { merger := true } then v.credit.indexOf? candidate else none
      match index with
      | some i => (.ok (), { p with assertion := .signer v (UInt8.ofNat i + 1) linker })
      | none =>
        if permitted.contains { root := true } ∧ root = some candidate then
          (.ok (), { p with assertion := .signer v Assertion.rootSlot linker })
        else (.error .signerNotPermitted, p)
  | .credential c subject _ =>
    match c.indexOf? candidate with
    | some i => (.ok (), { p with assertion := .credential c subject (UInt8.ofNat i) })
    | none => (.error .signerNotPermitted, p)

/-- Opens the window, first at its full length, and drops the signature. -/
def openWindow (requested : Mics) (policy : Policy) (now : Mics) (p : Proof) : Proof :=
  let window := policy.window requested
  let opened := { p with signedMics := now, expirationMics := now.plus window }
  let last := opened.expirationMics.startOfDay
  let truncated :=
    if policy.truncateAbove < window then
      if now < last then { opened with expirationMics := last } else opened
    else opened
  { truncated with signature := none }

/-- Prepares the proof in place: a refusal stops it after what has been written by then. -/
def prepareInPlace (p : Proof) (candidate : PublicKey) (requested : Mics) (policy : Policy)
    (now : Mics) : Except SigningFault Unit × Proof :=
  let (result, recorded) := p.recordSigner candidate policy.root
  match result with
  | .error fault => (.error fault, recorded)
  | .ok () => (.ok (), recorded.openWindow requested policy now)

theorem recordSigner_of_signedAs {a : Assertion} (h : p.assertion.SignedAs root candidate a) :
    p.recordSigner candidate root = (.ok (), { p with assertion := a }) := by
  obtain ⟨assertion, signed, expiration, signature⟩ := p
  unfold recordSigner
  cases h with
  | owner howner => exact congrArg (·, _) (if_pos howner)
  | slotOwner howner => exact if_pos ⟨rfl, howner⟩
  | slotMerger howner hindex =>
      simp [Assertion.permitted, Principals.contains, howner, hindex]
  | slotRoot howner hindex hroot =>
      simp [Assertion.permitted, Principals.contains, howner, hindex, hroot]
  | merger hindex => simp [hindex]

theorem recordSigner_of_not_admits (h : ¬ p.assertion.Admits root candidate) :
    p.recordSigner candidate root = (.error .signerNotPermitted, p) := by
  obtain ⟨assertion, signed, expiration, signature⟩ := p
  unfold recordSigner
  cases assertion with
  | value v linker => exact congrArg (·, _) (if_neg h)
  | signer v slot linker =>
      rw [Assertion.Admits, not_or, not_or] at h
      obtain ⟨howner, hmerger, hroot⟩ := h
      simp [howner, Credit.indexOf?_eq_none hmerger, hroot]
  | credential c subject index => simp [Credit.indexOf?_eq_none h]

theorem openWindow_eq (p : Proof) : p.openWindow requested policy now =
    ⟨p.assertion, now, policy.expiration requested now, none⟩ := by
  unfold openWindow Policy.expiration
  by_cases hlong : policy.truncateAbove < policy.window requested
  · by_cases hlast : now < (now.plus (policy.window requested)).startOfDay
    · simp only [hlong, hlast, and_self, if_true]
    · simp only [hlong, hlast, and_false, if_true, if_false]
  · simp only [hlong, false_and, if_false]

theorem prepareInPlace_of_signedAs {a : Assertion}
    (h : p.assertion.SignedAs policy.root candidate a) :
    p.prepareInPlace candidate requested policy now =
      (.ok (), ⟨a, now, policy.expiration requested now, none⟩) := by
  unfold prepareInPlace
  rw [recordSigner_of_signedAs h]
  exact congrArg (Except.ok (), ·) (openWindow_eq _)

/-- A refusal comes before anything is written. -/
theorem prepareInPlace_of_not_admits (h : ¬ p.assertion.Admits policy.root candidate) :
    p.prepareInPlace candidate requested policy now = (.error .signerNotPermitted, p) := by
  unfold prepareInPlace
  rw [recordSigner_of_not_admits h]

/-! ## Places and keys -/

theorem exists_prepare_iff : (∃ p', p.prepare candidate requested policy now = .ok p') ↔
    p.assertion.Admits policy.root candidate := by
  simp only [prepare_eq_ok_iff]
  constructor
  · rintro ⟨p', a, ha, -⟩
    exact ha.admits
  · intro h
    obtain ⟨a, ha⟩ := h.exists_signedAs
    exact ⟨_, a, ha, rfl⟩

theorem prepare_of_not_admits (h : ¬ p.assertion.Admits policy.root candidate) :
    p.prepare candidate requested policy now = .error .signerNotPermitted := by
  unfold prepare
  rw [Assertion.signedBy_of_not_admits h]
  rfl

/-- **The place of a signer is read back as the signer.** Exactly the principals that a proof
admits can prepare it, whatever place was recorded before and however many of its roles they have.
The key that the prepared proof then asks for is theirs, the signature of an earlier signer is
gone, and what is asserted stays; a refusal leaves the proof as it was, that signature included. No
proof at all asks for the key of anyone but a principal of the kinds that it permits. -/
theorem prepare_resolves (p : Proof) (candidate : PublicKey) (requested : Mics) (policy : Policy)
    (now : Mics) (hmergers : p.credit.mergers.length ≤ maxMergers) :
    ((∃ p', p.prepare candidate requested policy now = .ok p') ↔
      p.assertion.Admits policy.root candidate) ∧
    (∀ p', p.prepare candidate requested policy now = .ok p' →
      p.prepareInPlace candidate requested policy now = (.ok (), p') ∧
      p'.signatureKey policy.root = some candidate ∧ p'.signature = none ∧
      p'.value? = p.value? ∧ p'.linker? = p.linker? ∧ p'.credit = p.credit ∧
      p'.subject? = p.subject?) ∧
    (∀ fault, p.prepare candidate requested policy now = .error fault →
      fault = .signerNotPermitted ∧
      p.prepareInPlace candidate requested policy now = (.error fault, p)) ∧
    ∀ (q : Proof) (root : Option PublicKey) (key : PublicKey), q.signatureKey root = some key →
      q.assertion.HasPrincipal q.assertion.permitted root key := by
  refine ⟨exists_prepare_iff, fun p' h => ?_, fun fault h => ?_, fun q root key h => ?_⟩
  · obtain ⟨a, ha, rfl⟩ := prepare_eq_ok_iff.mp h
    obtain ⟨hcredit, hvalue, hlinker⟩ := ha.frame
    exact ⟨prepareInPlace_of_signedAs ha, ha.signatureKey hmergers, rfl, hvalue, hlinker, hcredit,
      ha.subject?_eq⟩
  · have hnot : ¬ p.assertion.Admits policy.root candidate := by
      intro hadmits
      obtain ⟨p', hp'⟩ := exists_prepare_iff.mpr hadmits
      cases hp'.symm.trans h
    obtain rfl := Except.error.inj ((prepare_of_not_admits hnot).symm.trans h)
    exact ⟨rfl, prepareInPlace_of_not_admits hnot⟩
  · exact Assertion.hasPrincipal_permitted_iff.mpr (Assertion.admits_of_signatureKey h)

/-- A proof of a hundred that the root key has signed, under a slot that belongs to nobody. The
owner is the holder of the first seed, both mergers' key is that of the second. -/
def staleProof : Proof :=
  let owner := Suite.plain.publicKey (.padded [1])
  let merger := Suite.plain.publicKey (.padded [2])
  ⟨.signer ⟨owner, ⟨100⟩, ⟨owner, [merger, merger]⟩⟩ 7 (Suite.plain.publicKey (.padded [])), 3, 9,
    some .zero⟩

/-- The key of both mergers is the root key too, and prepares the proof; a key without a role is
refused, and the signature stays. -/
theorem prepare_resolves_staleProof :
    staleProof.credit.mergers.length ≤ maxMergers ∧
    (∃ p', staleProof.prepare (Suite.plain.publicKey (.padded [2])) 0
        { root := some (Suite.plain.publicKey (.padded [2])) } 5 = .ok p' ∧
      p'.signatureKey (some (Suite.plain.publicKey (.padded [2]))) =
        some (Suite.plain.publicKey (.padded [2])) ∧ p'.signature = none) ∧
    (staleProof.prepareInPlace (Suite.plain.publicKey (.padded [3])) 0
        { root := some (Suite.plain.publicKey (.padded [2])) } 5).2 = staleProof := by
  have hmergers : staleProof.credit.mergers.length ≤ maxMergers := by decide
  have hresolves := fun candidate => prepare_resolves staleProof candidate 0
    { root := some (Suite.plain.publicKey (.padded [2])) } 5 hmergers
  obtain ⟨hiff, hprepared, -, -⟩ := hresolves (Suite.plain.publicKey (.padded [2]))
  obtain ⟨p', hp'⟩ := hiff.mpr (.inr (.inl (.head _)))
  obtain ⟨-, hkey, hsignature, -⟩ := hprepared p' hp'
  refine ⟨hmergers, ⟨p', hp', hkey, hsignature⟩, ?_⟩
  obtain ⟨hiff, -, hrefused, -⟩ := hresolves (Suite.plain.publicKey (.padded [3]))
  cases hprepare : staleProof.prepare (Suite.plain.publicKey (.padded [3])) 0
      { root := some (Suite.plain.publicKey (.padded [2])) } 5 with
  | ok p' =>
      rcases hiff.mp ⟨p', hprepare⟩ with howner | hmerger | hroot
      · exact absurd howner (by decide)
      · exact absurd hmerger (by decide)
      · exact absurd hroot (by decide)
  | error fault => rw [(hrefused fault hprepare).2]

end Proof

end Settlement
