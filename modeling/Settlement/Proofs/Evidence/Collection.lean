import Mathlib.Data.List.Induction
import Settlement.Proofs.Evidence.Cosigning

/-!
# Collecting co-signatures

Co-signatures are collected in place: mergers and others call in any order, call
again, or call for a slot that is not theirs, and each signature is made over the
evidence as the calls before it left it. It makes no difference, since a merger's
message is of the body and a call writes to its own slot or not at all
(`Evidence.call_frame`). Whatever the calls, a slot that was signed ends up with its
merger's signature over the evidence as it was in the beginning
(`Evidence.get?_collect_of_signedAt`), and any other slot as it was; so the evidence
that comes out depends on the indices that were signed and on nothing else, and the
check of the first mergers asks for exactly their indices
(`Evidence.collect_order_free`).
-/

namespace Settlement

namespace MergerSignatures

/-- Signatures are equal slot by slot. -/
theorem eq_of_get?_eq {s t : MergerSignatures} (h : ∀ i < maxMergers, s.get? i = t.get? i) :
    s = t := by
  apply MergerSignatures.ext
  apply List.ext_getElem (s.length_slots.trans t.length_slots.symm)
  intro i hs ht
  have hslot : s.get? i = t.get? i := h i (s.length_slots ▸ hs)
  unfold get? at hslot
  rw [List.getElem?_eq_getElem hs, List.getElem?_eq_getElem ht] at hslot
  exact hslot

theorem get?_empty (i : Nat) : empty.get? i = none := by
  unfold get? empty
  rw [List.getElem?_replicate]
  split <;> rfl

end MergerSignatures

attribute [ext] Evidence

namespace Evidence

variable {β : Type}

/-! ## Calls in place -/

/-- Puts a signature into a merger's slot in place. Whatever is written before a failure stays. -/
def attachInPlace (index : Nat) (signature : Signature) :
    ExceptT SigningFault (StateM (Evidence β)) Unit := do
  if maxMergers ≤ index then
    throw (.mergerIndexOutOfRange index)
  modify fun e => { e with signatures := e.signatures.set index (some signature) }

theorem run_attachInPlace {index : Nat} (hindex : index < maxMergers) (signature : Signature)
    (e : Evidence β) : (attachInPlace index signature).run.run e =
      (.ok (), { e with signatures := e.signatures.set index (some signature) }) := by
  unfold attachInPlace
  rw [if_neg (Nat.not_le.mpr hindex)]
  rfl

theorem run_get_bind (e : Evidence β)
    (f : Evidence β → ExceptT SigningFault (StateM (Evidence β)) Unit) :
    (get >>= f).run.run e = (f e).run.run e := rfl

variable [EvidenceBody β]

/-- Co-signs in place as the merger with the given index, whose key the seed must have. -/
def signInPlace (S : Suite) (index : Nat) (seed : Seed) :
    ExceptT SigningFault (StateM (Evidence β)) Unit := do
  if maxMergers ≤ index then
    throw (.mergerIndexOutOfRange index)
  let e ← get
  match e.credit? with
  | none => throw .missingCredit
  | some credit =>
    match credit.merger? index with
    | none => throw (.mergerIndexOutOfRange index)
    | some key =>
      if key ≠ S.publicKey seed then
        throw .keyMismatch
      attachInPlace index (S.sign seed (e.mergerMessage S index))

/-- A call to co-sign: the index of a slot and the seed whose holder calls. -/
structure Cosigning where
  index : Nat
  seed : Seed

/-- What a call answers, and the evidence that it leaves. -/
def call (S : Suite) (e : Evidence β) (c : Cosigning) : Except SigningFault Unit × Evidence β :=
  ((signInPlace S c.index c.seed).run.run e).run

/-- The evidence that is left by calls one after another. -/
def collect (S : Suite) (e : Evidence β) (calls : List Cosigning) : Evidence β :=
  calls.foldl (fun e c => (e.call S c).2) e

/-- One of the calls for the index succeeds, on the evidence that the calls before it left. -/
def SignedAt (S : Suite) (e : Evidence β) (calls : List Cosigning) (index : Nat) : Prop :=
  ∃ before c after, calls = before ++ c :: after ∧ c.index = index ∧
    ((e.collect S before).call S c).1 = .ok ()

variable {S : Suite} {e e' : Evidence β} {c : Cosigning} {calls : List Cosigning}
  {credit : Credit}

/-- Calling in place comes to the same as making a new evidence. -/
theorem call_eq (S : Suite) (e : Evidence β) (c : Cosigning) :
    e.call S c = match e.sign S c.index c.seed with
      | .ok e' => (.ok (), e')
      | .error fault => (.error fault, e) := by
  unfold call signInPlace sign attach
  by_cases hindex : maxMergers ≤ c.index
  · rw [if_pos hindex, if_pos hindex]
    rfl
  · rw [if_neg hindex, if_neg hindex]
    beta_reduce
    rw [run_get_bind]
    cases e.credit? with
    | none => rfl
    | some credit =>
        dsimp only
        cases credit.merger? c.index with
        | none => rfl
        | some key =>
            dsimp only
            by_cases hkey : key = S.publicKey c.seed
            · rw [if_neg (not_not.mpr hkey), if_neg (not_not.mpr hkey), if_neg hindex]
              exact run_attachInPlace (Nat.not_le.mp hindex) _ e
            · rw [if_pos hkey, if_pos hkey]
              rfl

/-! ## One call -/

theorem call_of_sign (h : e.sign S c.index c.seed = .ok e') : e.call S c = (.ok (), e') := by
  rw [call_eq, h]

/-- A refused call leaves the evidence as it was. -/
theorem call_of_ne_ok (h : (e.call S c).1 ≠ .ok ()) : (e.call S c).2 = e := by
  rw [call_eq] at h ⊢
  cases hsign : e.sign S c.index c.seed with
  | error fault => rfl
  | ok e' =>
      rw [hsign] at h
      exact absurd rfl h

/-- Exactly the merger whose slot it is can call. -/
theorem call_ok_iff (hcredit : e.credit? = some credit)
    (hmergers : credit.mergers.length ≤ maxMergers) :
    (e.call S c).1 = .ok () ↔ credit.merger? c.index = some (S.publicKey c.seed) := by
  constructor
  · intro h
    rw [call_eq] at h
    cases hsign : e.sign S c.index c.seed with
    | error fault =>
        rw [hsign] at h
        cases h
    | ok e' =>
        obtain ⟨-, ⟨credit', hcredit', hmerger⟩, -⟩ := sign_eq_ok_iff.mp hsign
        obtain rfl := Option.some.inj (hcredit.symm.trans hcredit')
        exact hmerger
  · intro hmerger
    obtain ⟨hlt, -⟩ := List.getElem?_eq_some_iff.mp hmerger
    have hindex : c.index < maxMergers := Nat.lt_of_lt_of_le hlt hmergers
    rw [call_of_sign (sign_eq_ok hcredit hindex hmerger)]

/-- A successful call leaves the caller's signature over the evidence as it was. -/
theorem call_of_ok (h : (e.call S c).1 = .ok ()) :
    c.index < maxMergers ∧ (e.call S c).2 = e.withCosignature S c.index c.seed := by
  rw [call_eq] at h ⊢
  cases hsign : e.sign S c.index c.seed with
  | error fault =>
      rw [hsign] at h
      cases h
  | ok e' =>
      obtain ⟨hindex, -, rfl⟩ := sign_eq_ok_iff.mp hsign
      exact ⟨hindex, rfl⟩

/-- **A call writes to its own slot or not at all.** -/
theorem call_frame (S : Suite) (e : Evidence β) (c : Cosigning) :
    (e.call S c).2.body = e.body ∧
      ∀ i, i ≠ c.index → (e.call S c).2.signatures.get? i = e.signatures.get? i := by
  by_cases hok : (e.call S c).1 = .ok ()
  · obtain ⟨-, hcall⟩ := call_of_ok hok
    rw [hcall]
    exact ⟨rfl, fun i hi => e.signatures.get?_set_of_ne (Ne.symm hi) _⟩
  · rw [call_of_ne_ok hok]
    exact ⟨rfl, fun i _ => rfl⟩

/-! ## Sequences of calls -/

theorem collect_concat (S : Suite) (e : Evidence β) (calls : List Cosigning) (c : Cosigning) :
    e.collect S (calls ++ [c]) = ((e.collect S calls).call S c).2 :=
  List.foldl_concat ..

theorem body_collect (S : Suite) (e : Evidence β) (calls : List Cosigning) :
    (e.collect S calls).body = e.body := by
  induction calls using List.reverseRecOn with
  | nil => rfl
  | append_singleton calls c ih =>
      rw [collect_concat, (call_frame S _ c).1]
      exact ih

theorem credit?_collect (S : Suite) (e : Evidence β) (calls : List Cosigning) :
    (e.collect S calls).credit? = e.credit? := by
  unfold credit?
  rw [body_collect]

theorem signedAt_concat {index : Nat} :
    e.SignedAt S (calls ++ [c]) index ↔ e.SignedAt S calls index ∨
      c.index = index ∧ ((e.collect S calls).call S c).1 = .ok () := by
  constructor
  · rintro ⟨before, c', after, hcalls, hindex, hok⟩
    cases after using List.reverseRecOn with
    | nil =>
        obtain ⟨rfl, hlast⟩ := List.append_inj' hcalls rfl
        obtain rfl := List.cons.inj hlast |>.1
        exact .inr ⟨hindex, hok⟩
    | append_singleton after last =>
        rw [← List.cons_append, ← List.append_assoc] at hcalls
        obtain ⟨hinit, -⟩ := List.append_inj' hcalls rfl
        exact .inl ⟨before, c', after, hinit, hindex, hok⟩
  · rintro (⟨before, c', after, rfl, hindex, hok⟩ | ⟨hindex, hok⟩)
    · exact ⟨before, c', after ++ [c], by simp, hindex, hok⟩
    · exact ⟨calls, c, [], rfl, hindex, hok⟩

/-- The calls that succeed are those of the mergers, whatever was called before. -/
theorem signedAt_iff (hcredit : e.credit? = some credit)
    (hmergers : credit.mergers.length ≤ maxMergers) {index : Nat} :
    e.SignedAt S calls index ↔
      ∃ c ∈ calls, c.index = index ∧ credit.merger? c.index = some (S.publicKey c.seed) := by
  have hcall : ∀ before c, ((e.collect S before).call S c).1 = .ok () ↔
      credit.merger? c.index = some (S.publicKey c.seed) := fun before c =>
    call_ok_iff ((credit?_collect S e before).trans hcredit) hmergers
  constructor
  · rintro ⟨before, c, after, rfl, hindex, hok⟩
    exact ⟨c, by simp, hindex, (hcall before c).mp hok⟩
  · rintro ⟨c, hc, hindex, hmerger⟩
    obtain ⟨before, after, rfl⟩ := List.append_of_mem hc
    exact ⟨before, c, after, rfl, hindex, (hcall before c).mpr hmerger⟩

/-- A slot that was signed holds the signature of its merger, over the evidence as it was in the
beginning. -/
theorem get?_collect_of_signedAt (hcredit : e.credit? = some credit)
    (hmergers : credit.mergers.length ≤ maxMergers) {index : Nat} (h : e.SignedAt S calls index) :
    ∃ c ∈ calls, credit.merger? index = some (S.publicKey c.seed) ∧
      (e.collect S calls).signatures.get? index =
        some (S.sign c.seed (e.mergerMessage S index)) := by
  -- over the calls from the last one on: it made the signature, or left the slot as it was
  induction calls using List.reverseRecOn with
  | nil =>
      obtain ⟨before, c, after, hcalls, -⟩ := h
      cases before <;> cases hcalls
  | append_singleton calls c ih =>
      have hcredit' : (e.collect S calls).credit? = some credit :=
        (credit?_collect S e calls).trans hcredit
      by_cases hlast : c.index = index ∧ ((e.collect S calls).call S c).1 = .ok ()
      · obtain ⟨rfl, hok⟩ := hlast
        obtain ⟨hindex, hcall⟩ := call_of_ok hok
        refine ⟨c, by simp, (call_ok_iff hcredit' hmergers).mp hok, ?_⟩
        have hmessage : (e.collect S calls).mergerMessage S c.index = e.mergerMessage S c.index :=
          mergerMessage_congr (body_collect S e calls) hindex
        rw [collect_concat, hcall, ← hmessage]
        exact MergerSignatures.get?_set_self _ hindex _
      · obtain ⟨c', hc', hmerger, hslot⟩ := ih ((signedAt_concat.mp h).resolve_right hlast)
        refine ⟨c', List.mem_append_left _ hc', hmerger, ?_⟩
        rw [collect_concat, ← hslot]
        by_cases hindex : c.index = index
        · rw [call_of_ne_ok fun hok => hlast ⟨hindex, hok⟩]
        · exact (call_frame S _ c).2 index (Ne.symm hindex)

/-- A slot that was not signed is as it was. -/
theorem get?_collect_of_not_signedAt {index : Nat} (h : ¬ e.SignedAt S calls index) :
    (e.collect S calls).signatures.get? index = e.signatures.get? index := by
  induction calls using List.reverseRecOn with
  | nil => rfl
  | append_singleton calls c ih =>
      rw [signedAt_concat, not_or, not_and] at h
      obtain ⟨hcalls, hlast⟩ := h
      rw [collect_concat, ← ih hcalls]
      by_cases hindex : c.index = index
      · rw [call_of_ne_ok (hlast hindex)]
      · exact (call_frame S _ c).2 index (Ne.symm hindex)

/-! ## What comes out -/

/-- Slots that were empty vouch for their mergers where they were signed, and nowhere else. -/
theorem cosigned_collect_iff (hS : S.Signs) (hcredit : e.credit? = some credit)
    (hmergers : credit.mergers.length ≤ maxMergers) (hempty : e.signatures = .empty)
    {index : Nat} {key : PublicKey} (hkey : credit.merger? index = some key) :
    (e.collect S calls).Cosigned S index key ↔ e.SignedAt S calls index := by
  constructor
  · rintro ⟨signature, hslot, -⟩
    by_contra hnot
    rw [get?_collect_of_not_signedAt hnot, hempty, MergerSignatures.get?_empty] at hslot
    cases hslot
  · intro h
    obtain ⟨c, -, hmerger, hslot⟩ := get?_collect_of_signedAt hcredit hmergers h
    obtain rfl := Option.some.inj (hkey.symm.trans hmerger)
    obtain ⟨hlt, -⟩ := List.getElem?_eq_some_iff.mp hmerger
    have hmessage : (e.collect S calls).mergerMessage S index = e.mergerMessage S index :=
      mergerMessage_congr (body_collect S e calls) (Nat.lt_of_lt_of_le hlt hmergers)
    refine cosigned_iff.mpr ⟨_, hslot, ?_⟩
    rw [hmessage]
    exact hS.accepts c.seed _

theorem checkSignatures_collect_iff (hS : S.Signs) (hcredit : e.credit? = some credit)
    (hmergers : credit.mergers.length ≤ maxMergers) (hempty : e.signatures = .empty) {cap : Nat} :
    (e.collect S calls).checkSignatures S cap = .ok () ↔
      ∀ i < min cap credit.mergers.length, e.SignedAt S calls i := by
  rw [checkSignatures_eq_ok_iff, credit?_collect, hcredit]
  simp only [Option.some.injEq, exists_eq_left']
  constructor
  · intro h i hi
    rw [Nat.lt_min] at hi
    have hkey : credit.merger? i = some credit.mergers[i] := List.getElem?_eq_getElem hi.2
    exact (cosigned_collect_iff hS hcredit hmergers hempty hkey).mp (h i hi.1 _ hkey)
  · intro h i hi key hkey
    obtain ⟨hlt, -⟩ := List.getElem?_eq_some_iff.mp hkey
    exact (cosigned_collect_iff hS hcredit hmergers hempty hkey).mpr
      (h i (Nat.lt_min.mpr ⟨hi, hlt⟩))

/-- Calls that sign the same slots leave the same evidence. -/
theorem collect_congr (hcredit : e.credit? = some credit)
    (hmergers : credit.mergers.length ≤ maxMergers) {calls' : List Cosigning}
    (hdet : S.Deterministic {seed | ∃ c ∈ calls ++ calls', c.seed = seed})
    (h : ∀ i, e.SignedAt S calls i ↔ e.SignedAt S calls' i) :
    e.collect S calls = e.collect S calls' := by
  have hbody : (e.collect S calls).body = (e.collect S calls').body :=
    (body_collect S e calls).trans (body_collect S e calls').symm
  have hsignatures : (e.collect S calls).signatures = (e.collect S calls').signatures := by
    apply MergerSignatures.eq_of_get?_eq
    intro i _
    by_cases hsigned : e.SignedAt S calls i
    · obtain ⟨c, hc, hmerger, hslot⟩ := get?_collect_of_signedAt hcredit hmergers hsigned
      obtain ⟨c', hc', hmerger', hslot'⟩ :=
        get?_collect_of_signedAt hcredit hmergers ((h i).mp hsigned)
      have hkey : S.publicKey c.seed = S.publicKey c'.seed :=
        Option.some.inj (hmerger.symm.trans hmerger')
      have hsame : S.sign c.seed (e.mergerMessage S i) = S.sign c'.seed (e.mergerMessage S i) := by
        apply hdet c.seed _ c'.seed _ hkey
        · exact ⟨c, List.mem_append_left _ hc, rfl⟩
        · exact ⟨c', List.mem_append_right _ hc', rfl⟩
      rw [hslot, hslot', hsame]
    · rw [get?_collect_of_not_signedAt hsigned,
        get?_collect_of_not_signedAt fun hsigned' => hsigned ((h i).mpr hsigned')]
  exact Evidence.ext hbody hsignatures

/-- **Co-signatures can be collected in any order.** Let an evidence have the proof that supplies
its mergers and nobody's signature yet, and let anyone call for any slot, in any order and as often
as they like. Exactly the merger of a slot is let in; a refused call leaves the evidence as it was,
and no call changes anything but its own slot. What comes out depends on the slots that were signed
alone, and verifies for a cap exactly if each slot within it was. -/
theorem collect_order_free (hS : S.Signs) {p : Proof}
    (hproof : EvidenceBody.proof? e.body = some p)
    (hmergers : p.credit.mergers.length ≤ maxMergers) (hempty : e.signatures = .empty) :
    (∀ (before : List Cosigning) (c : Cosigning),
      (((e.collect S before).call S c).1 = .ok () ↔
        ∃ h : c.index < p.credit.mergers.length,
          p.credit.mergers[c.index] = S.publicKey c.seed) ∧
      (((e.collect S before).call S c).1 ≠ .ok () →
        ((e.collect S before).call S c).2 = e.collect S before) ∧
      ((e.collect S before).call S c).2.body = (e.collect S before).body ∧
      ∀ i, i ≠ c.index → ((e.collect S before).call S c).2.signatures.get? i =
        (e.collect S before).signatures.get? i) ∧
    (∀ calls calls' : List Cosigning,
      S.Deterministic {seed | ∃ c ∈ calls ++ calls', c.seed = seed} →
      (∀ i, e.SignedAt S calls i ↔ e.SignedAt S calls' i) →
      e.collect S calls = e.collect S calls') ∧
    ∀ (calls : List Cosigning) (cap : Nat), (e.collect S calls).checkSignatures S cap = .ok () ↔
      ∀ i < min cap p.credit.mergers.length, e.SignedAt S calls i := by
  have hcredit : e.credit? = some p.credit := congrArg (Option.map Proof.credit) hproof
  refine ⟨fun before c => ⟨?_, call_of_ne_ok, call_frame S _ c⟩, ?_, ?_⟩
  · rw [call_ok_iff ((credit?_collect S e before).trans hcredit) hmergers]
    exact List.getElem?_eq_some_iff
  · intro calls calls' hdet h
    exact collect_congr hcredit hmergers hdet h
  · intro calls cap
    exact checkSignatures_collect_iff hS hcredit hmergers hempty

/-- A proof with three mergers, of whom the first and the last are one key, that nobody has
co-signed yet. -/
def sharedKeyEvidence : ProofEvidence :=
  let owner := Suite.plain.publicKey (.padded [1])
  let first := Suite.plain.publicKey (.padded [2])
  let second := Suite.plain.publicKey (.padded [3])
  let linker := Suite.plain.publicKey (.padded [])
  .ofBody ⟨.forValue ⟨owner, ⟨5⟩, ⟨owner, [first, second, first]⟩⟩ linker⟩

/-- The mergers call, the last slot first and again later; one of them calls for the slot of the
other before, and there is a call for a slot that nobody has. -/
def disorderedCalls : List Cosigning :=
  [⟨2, .padded [2]⟩, ⟨0, .padded [3]⟩, ⟨7, .padded [2]⟩, ⟨0, .padded [2]⟩, ⟨2, .padded [2]⟩,
    ⟨1, .padded [3]⟩]

/-- Each slot is called for once, in the mergers' order. -/
def orderedCalls : List Cosigning := [⟨0, .padded [2]⟩, ⟨1, .padded [3]⟩, ⟨2, .padded [2]⟩]

/-- Both sequences of calls come to one evidence, which verifies for three mergers; the call for
another's slot changed nothing. -/
theorem collect_order_free_sharedKey :
    sharedKeyEvidence.collect .plain disorderedCalls =
        sharedKeyEvidence.collect .plain orderedCalls ∧
      (sharedKeyEvidence.collect .plain disorderedCalls).checkSignatures .plain 3 = .ok () ∧
      (sharedKeyEvidence.call .plain ⟨0, .padded [3]⟩).2 = sharedKeyEvidence := by
  obtain ⟨hcall, hsame, hcheck⟩ := collect_order_free (e := sharedKeyEvidence) Suite.plain_signs
    rfl (by decide) rfl
  have hcredit : sharedKeyEvidence.credit? = some sharedKeyEvidence.body.proof.credit := rfl
  have hsigned : ∀ calls i, sharedKeyEvidence.SignedAt .plain calls i ↔
      i ∈ (calls.filter fun c => sharedKeyEvidence.body.proof.credit.merger? c.index =
        some (Suite.plain.publicKey c.seed)).map Cosigning.index := by
    intro calls i
    rw [signedAt_iff hcredit (by decide)]
    simp only [List.mem_map, List.mem_filter, decide_eq_true_eq]
    tauto
  have hdisordered : ∀ i, sharedKeyEvidence.SignedAt .plain disorderedCalls i ↔ i ∈ [2, 0, 2, 1] :=
    hsigned disorderedCalls
  have hordered : ∀ i, sharedKeyEvidence.SignedAt .plain orderedCalls i ↔ i ∈ [0, 1, 2] :=
    hsigned orderedCalls
  refine ⟨hsame _ _ (Suite.plain_deterministic _) fun i => ?_, (hcheck _ 3).mpr fun i hi => ?_, ?_⟩
  · rw [hdisordered, hordered]
    simp only [List.mem_cons, List.not_mem_nil, or_false]
    omega
  · have hlt : i < 3 := hi
    rw [hdisordered]
    simp only [List.mem_cons, List.not_mem_nil, or_false]
    omega
  · obtain ⟨hok, hrefused, -⟩ := hcall [] ⟨0, .padded [3]⟩
    refine hrefused fun h => ?_
    have hkey : sharedKeyEvidence.body.proof.credit.merger? 0 =
        some (Suite.plain.publicKey (.padded [3])) := List.getElem?_eq_some_iff.mpr (hok.mp h)
    exact absurd hkey (by decide)

end Evidence

end Settlement
