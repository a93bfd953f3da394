import Settlement.Proofs.Results
import Settlement.Proofs.WellFormed
import Settlement.Storage.Evidence

/-!
# What is read is well formed

Stored credits and values go through their checked constructors when they are
read, so an object that is read holds well-formed ones alone, whatever the
octets: `Storage.gives_linkedEvidence`, by `Stored.of_ofOctets`.

`Reader.Gives` is a postcondition of a reader. A record keeps an invariant of
its draft from member to member (`Reader.gives_record`), an alternative needs a
postcondition of each of its contents (`Reader.gives_oneOf`).
-/

namespace Settlement

namespace Storage

variable {α β δ : Type}

namespace Reader

/-! ## Postconditions -/

/-- Every value that the reader gives has the property. -/
def Gives (r : Reader α) (P : α → Prop) : Prop := ∀ ⦃o x rest⦄, r o = .ok (x, rest) → P x

theorem gives_true (r : Reader α) : r.Gives fun _ => True := fun _ _ _ _ => trivial

theorem gives_pure {P : α → Prop} {x : α} (h : P x) : Gives (pure x) P := by
  intro o y rest hy
  cases hy
  exact h

theorem gives_throw {P : α → Prop} (fault : DecodeFault) : Gives (throw fault) P := by
  intro o y rest hy
  cases hy

theorem gives_lift {P : α → Prop} {r : Except DecodeFault α} (h : ∀ x, r = .ok x → P x) :
    Gives (liftM r) P := by
  intro o y rest hy
  cases r with
  | error fault => cases hy
  | ok x =>
      cases hy
      exact h _ rfl

theorem Gives.bind {Q : α → Prop} {P : β → Prop} {r : Reader α} {f : α → Reader β}
    (hr : r.Gives Q) (hf : ∀ x, Q x → (f x).Gives P) : Gives (r >>= f) P := by
  intro o y rest hy
  obtain ⟨⟨x, o'⟩, hx, hy⟩ := bind_eq_ok_iff.mp hy
  exact hf x (hr hx) hy

/-- What comes after a reader decides. -/
theorem gives_bind {P : β → Prop} {r : Reader α} {f : α → Reader β}
    (hf : ∀ x, (f x).Gives P) : Gives (r >>= f) P :=
  (gives_true r).bind fun x _ => hf x

theorem Gives.map {Q : α → Prop} {P : β → Prop} {r : Reader α} {f : α → β}
    (hr : r.Gives Q) (hf : ∀ x, Q x → P (f x)) : Gives (f <$> r) P := by
  rw [map_eq_pure_bind]
  exact hr.bind fun x hx => gives_pure (hf x hx)

/-! ## Elements, records and alternatives -/

theorem gives_times {I : δ → Prop} {step : Head → δ → Reader δ}
    (hstep : ∀ h d, I d → (step h d).Gives I) (count : Nat) :
    ∀ d, I d → (times step count d).Gives I := by
  induction count with
  | zero => exact fun d hd => gives_pure hd
  | succ count ih =>
      intro d hd
      exact gives_bind fun h => (hstep h d hd).bind ih

theorem gives_untilStop {I : δ → Prop} {step : Head → δ → Reader δ}
    (hstep : ∀ h d, I d → (step h d).Gives I) (fuel : Nat) :
    ∀ d, I d → (untilStop step fuel d).Gives I := by
  induction fuel with
  | zero => exact fun d hd => gives_throw _
  | succ fuel ih =>
      intro d hd
      refine gives_bind fun h => ?_
      split
      · exact gives_pure hd
      · exact (hstep h d hd).bind ih

/-- An invariant of every step is one of all elements, whether or not their number is stated. -/
theorem gives_elements {I : δ → Prop} {step : Head → δ → Reader δ}
    (hstep : ∀ h d, I d → (step h d).Gives I) (length : Option Nat) {d : δ} (hd : I d) :
    (elements step length d).Gives I := by
  cases length with
  | some count => exact gives_times hstep count d hd
  | none => exact fun o _ _ h => gives_untilStop hstep (o.length + 1) d hd h

end Reader

/-- Every value that the reader gives has the property, whatever the budget and the head. -/
def ItemReader.Gives (item : ItemReader α) (P : α → Prop) : Prop :=
  ∀ budget h, Reader.Gives (item budget h) P

/-- Whatever is in the octets, the member keeps the invariant of the draft. -/
def Member.Keeps (m : Member δ) (I : δ → Prop) : Prop :=
  ∀ budget d, I d → Reader.Gives (m.read budget d) I

theorem Member.keeps_of {I : δ → Prop} {Q : α → Prop} {name : String} {get : δ → Option α}
    {set : δ → α → δ} {item : ItemReader α} (hitem : item.Gives Q)
    (hset : ∀ d x, I d → Q x → I (set d x)) : (Member.of name get set item).Keeps I := by
  intro budget d hd
  have hread : Reader.Gives (do
      let h ← Reader.head
      return set d (← item budget h)) I :=
    Reader.gives_bind fun h =>
      (hitem budget h).bind fun x hx => Reader.gives_pure (hset d x hd hx)
  unfold Member.of
  simp only
  split
  · exact Reader.gives_bind fun _ => hread
  · exact hread

/-- A member beside those that the invariant looks at. -/
theorem Member.keeps_other {I : δ → Prop} {name : String} {get : δ → Option α}
    {set : δ → α → δ} {item : ItemReader α} (hset : ∀ d x, I d → I (set d x)) :
    (Member.of name get set item).Keeps I :=
  Member.keeps_of (Q := fun _ => True) (fun _ _ => Reader.gives_true _) fun d x hd _ => hset d x hd

namespace Reader

theorem gives_record {I : δ → Prop} {P : α → Prop} {members : List (Member δ)} {empty : δ}
    {finish : δ → Except DecodeFault α} (hempty : I empty) (hmembers : ∀ m ∈ members, m.Keeps I)
    (hfinish : ∀ d x, I d → finish d = .ok x → P x) :
    ItemReader.Gives (record members empty finish) P := by
  intro budget h
  refine gives_bind fun h' => ?_
  split
  · refine gives_bind fun inner => ?_
    refine (gives_elements ?_ _ hempty).bind fun d hd => gives_lift (hfinish d · hd)
    intro h d hd
    refine gives_bind fun key => ?_
    split
    · next m hm => exact hmembers m (List.mem_of_find?_eq_some hm) inner d hd
    · exact gives_bind fun h => gives_bind fun _ => gives_pure hd
  · exact gives_throw _

theorem gives_oneOf {P : α → Prop} {alternatives : List (String × ItemReader α)}
    (h : ∀ a ∈ alternatives, a.2.Gives P) : ItemReader.Gives (oneOf alternatives) P := by
  have hcontent : ∀ budget key, (content alternatives budget key).Gives P := by
    intro budget key
    unfold content
    split
    · next a ha =>
      exact gives_bind fun head => h a (List.mem_of_find?_eq_some ha) budget head
    · exact gives_throw _
  intro budget head
  refine gives_bind fun h' => ?_
  split
  · exact gives_bind fun inner => gives_bind fun h'' => gives_bind fun key => hcontent inner key
  · exact gives_bind fun inner => gives_bind fun key => hcontent inner key
  · exact gives_throw _

theorem require_eq_ok_iff {o : Option α} {x : α} : require o = .ok x ↔ o = some x := by
  cases o with
  | none => exact ⟨nofun, nofun⟩
  | some y => exact ⟨fun h => congrArg _ (Except.ok.inj h), fun h => congrArg _ (Option.some.inj h)⟩

end Reader

/-! ## Credits, values and assertions -/

variable {S : Suite}

theorem CreditDraft.finish_wellFormed {d : CreditDraft} {c : Credit}
    (h : d.finish S = .ok c) : c.WellFormed S := by
  obtain ⟨originator, -, h⟩ := bind_eq_ok_iff.mp h
  obtain ⟨mergers, -, h⟩ := bind_eq_ok_iff.mp h
  exact (Credit.of_eq_ok_iff.mp (mapError_eq_ok_iff.mp h)).2

theorem ValueDraft.finish_wellFormed {d : ValueDraft} {v : Value}
    (h : d.finish S = .ok v) : v.WellFormed S := by
  obtain ⟨owner, -, h⟩ := bind_eq_ok_iff.mp h
  obtain ⟨point, -, h⟩ := bind_eq_ok_iff.mp h
  obtain ⟨credit, -, h⟩ := bind_eq_ok_iff.mp h
  exact (Value.of_eq_ok_iff.mp (mapError_eq_ok_iff.mp h)).2

/-- A member that an invariant does not look at. -/
theorem Member.keeps_true (m : Member δ) : m.Keeps fun _ => True :=
  fun _ _ _ => Reader.gives_true _

theorem gives_credit : ItemReader.Gives (Stored.read S) (Credit.WellFormed S) :=
  Reader.gives_record trivial (fun m _ => m.keeps_true) fun _ _ _ h =>
    CreditDraft.finish_wellFormed h

theorem gives_value : ItemReader.Gives (Stored.read S) (Value.WellFormed S) :=
  Reader.gives_record trivial (fun m _ => m.keeps_true) fun _ _ _ h =>
    ValueDraft.finish_wellFormed h

theorem gives_valueAssertion :
    ItemReader.Gives (readValueAssertion S) (Assertion.WellFormed S) := by
  refine Reader.gives_record (I := fun d => ∀ v, d.value = some v → v.WellFormed S) nofun ?_ ?_
  · simp only [List.forall_mem_cons]
    exact ⟨Member.keeps_of gives_value fun d x _ hx v hv => Option.some.inj hv ▸ hx,
      Member.keeps_other fun _ _ hd => hd, nofun⟩
  · intro d a hd h
    obtain ⟨v, hv, h⟩ := bind_eq_ok_iff.mp h
    obtain ⟨linker, -, h⟩ := bind_eq_ok_iff.mp h
    cases h
    exact hd v (Reader.require_eq_ok_iff.mp hv)

theorem gives_signerAssertion :
    ItemReader.Gives (readSignerAssertion S) (Assertion.WellFormed S) := by
  refine Reader.gives_record (I := fun d => ∀ v, d.value = some v → v.WellFormed S) nofun ?_ ?_
  · simp only [List.forall_mem_cons]
    exact ⟨Member.keeps_of gives_value fun d x _ hx v hv => Option.some.inj hv ▸ hx,
      Member.keeps_other fun _ _ hd => hd,
      Member.keeps_other fun _ _ hd => hd, nofun⟩
  · intro d a hd h
    obtain ⟨v, hv, h⟩ := bind_eq_ok_iff.mp h
    obtain ⟨slot, -, h⟩ := bind_eq_ok_iff.mp h
    obtain ⟨linker, -, h⟩ := bind_eq_ok_iff.mp h
    cases h
    exact hd v (Reader.require_eq_ok_iff.mp hv)

theorem gives_credentialAssertion :
    ItemReader.Gives (readCredential S) (Assertion.WellFormed S) := by
  refine Reader.gives_record (I := fun d => ∀ c, d.credit = some c → c.WellFormed S) nofun ?_ ?_
  · simp only [List.forall_mem_cons]
    exact ⟨Member.keeps_of gives_credit fun d x _ hx c hc => Option.some.inj hc ▸ hx,
      Member.keeps_other fun _ _ hd => hd,
      Member.keeps_other fun _ _ hd => hd, nofun⟩
  · intro d a hd h
    obtain ⟨c, hc, h⟩ := bind_eq_ok_iff.mp h
    obtain ⟨subject, -, h⟩ := bind_eq_ok_iff.mp h
    obtain ⟨index, -, h⟩ := bind_eq_ok_iff.mp h
    cases h
    exact hd c (Reader.require_eq_ok_iff.mp hc)

theorem gives_assertion : ItemReader.Gives (Stored.read S) (Assertion.WellFormed S) := by
  refine Reader.gives_oneOf ?_
  simp only [List.forall_mem_cons]
  exact ⟨gives_valueAssertion, gives_signerAssertion, gives_credentialAssertion, nofun⟩

/-! ## Proofs, contracts and evidences -/

theorem gives_proof : ItemReader.Gives (Stored.read S) (Proof.WellFormed S) := by
  refine Reader.gives_record (I := fun d => ∀ a, d.assertion = some a → a.WellFormed S) nofun
    ?_ ?_
  · simp only [List.forall_mem_cons]
    exact ⟨Member.keeps_of gives_assertion fun d x _ hx a ha => Option.some.inj ha ▸ hx,
      Member.keeps_other fun _ _ hd => hd,
      Member.keeps_other fun _ _ hd => hd,
      Member.keeps_other fun _ _ hd => hd, nofun⟩
  · intro d p hd h
    obtain ⟨a, ha, h⟩ := bind_eq_ok_iff.mp h
    obtain ⟨signed, -, h⟩ := bind_eq_ok_iff.mp h
    obtain ⟨expiration, -, h⟩ := bind_eq_ok_iff.mp h
    cases h
    exact hd a (Reader.require_eq_ok_iff.mp ha)

theorem gives_contractBody :
    ItemReader.Gives (Stored.read S) (ContractBody.WellFormed S) := by
  refine Reader.gives_oneOf ?_
  simp only [List.forall_mem_cons]
  refine ⟨fun budget h => ?_, fun budget h => ?_, nofun⟩
  · exact (gives_proof budget h).map fun p hp q hq => ContractBody.proof.inj hq ▸ hp
  · exact (Reader.gives_true _).map fun _ _ => nofun

theorem gives_contract : ItemReader.Gives (Stored.read S) (Base.WellFormed (B := Contract) S) := by
  refine Reader.gives_record (I := fun d => ∀ b, d.body = some b → b.WellFormed S) nofun ?_ ?_
  · simp only [List.forall_mem_cons]
    exact ⟨Member.keeps_of gives_contractBody fun d x _ hx b hb => Option.some.inj hb ▸ hx,
      Member.keeps_other fun _ _ hd => hd,
      Member.keeps_other fun _ _ hd => hd, nofun⟩
  · intro d c hd h
    obtain ⟨body, hbody, h⟩ := bind_eq_ok_iff.mp h
    obtain ⟨part, -, h⟩ := bind_eq_ok_iff.mp h
    obtain ⟨whole, -, h⟩ := bind_eq_ok_iff.mp h
    cases h
    intro p hp
    refine hd body (Reader.require_eq_ok_iff.mp hbody) p ?_
    cases body with
    | proof q => exact congrArg _ (Option.some.inj hp)
    | identifier id => cases hp

theorem gives_proofEvidence :
    ItemReader.Gives (Stored.read S) fun e : ProofEvidence => e.body.proof.WellFormed S := by
  refine Reader.gives_record (I := fun d => ∀ p, d.proof = some p → p.WellFormed S) nofun ?_ ?_
  · simp only [List.forall_mem_cons]
    exact ⟨Member.keeps_of gives_proof fun d x _ hx p hp => Option.some.inj hp ▸ hx,
      Member.keeps_other fun _ _ hd => hd, nofun⟩
  · intro d e hd h
    obtain ⟨p, hp, h⟩ := bind_eq_ok_iff.mp h
    obtain ⟨signatures, -, h⟩ := bind_eq_ok_iff.mp h
    cases h
    exact hd p (Reader.require_eq_ok_iff.mp hp)

theorem gives_linkedEvidence {B : Type} [Base B] [Stored B]
    (hbase : ItemReader.Gives (Stored.read S) (Base.WellFormed (B := B) S)) :
    ItemReader.Gives (Stored.read S) fun e : LinkedEvidence B => e.body.link.WellFormed S := by
  refine Reader.gives_record (I := fun d => (∀ b, d.base1 = some b → Base.WellFormed S b) ∧
    ∀ b, d.base2 = some b → Base.WellFormed S b) ⟨nofun, nofun⟩ ?_ ?_
  · simp only [List.forall_mem_cons]
    exact ⟨Member.keeps_other fun _ _ hd => hd, Member.keeps_other fun _ _ hd => hd,
      Member.keeps_of hbase fun d x hd hx => ⟨fun b hb => Option.some.inj hb ▸ hx, hd.2⟩,
      Member.keeps_of hbase fun d x hd hx => ⟨hd.1, fun b hb => Option.some.inj hb ▸ hx⟩,
      Member.keeps_other fun _ _ hd => hd, nofun⟩
  · intro d e hd h
    obtain ⟨isPrimary, -, h⟩ := bind_eq_ok_iff.mp h
    obtain ⟨linkedMics, -, h⟩ := bind_eq_ok_iff.mp h
    obtain ⟨base1, hbase1, h⟩ := bind_eq_ok_iff.mp h
    obtain ⟨base2, hbase2, h⟩ := bind_eq_ok_iff.mp h
    obtain ⟨signatures, -, h⟩ := bind_eq_ok_iff.mp h
    cases h
    exact ⟨hd.1 base1 (Reader.require_eq_ok_iff.mp hbase1),
      hd.2 base2 (Reader.require_eq_ok_iff.mp hbase2)⟩

theorem gives_linkage {B : Type} [Base B] [Stored B]
    (hbase : ItemReader.Gives (Stored.read S) (Base.WellFormed (B := B) S)) :
    ItemReader.Gives (Stored.read S) fun l : Linkage B => l.link.WellFormed S := by
  refine Reader.gives_record (I := fun d => (∀ b, d.base1 = some b → Base.WellFormed S b) ∧
    ∀ b, d.base2 = some b → Base.WellFormed S b) ⟨nofun, nofun⟩ ?_ ?_
  · simp only [List.forall_mem_cons]
    exact ⟨Member.keeps_other fun _ _ hd => hd,
      Member.keeps_of hbase fun d x hd hx => ⟨fun b hb => Option.some.inj hb ▸ hx, hd.2⟩,
      Member.keeps_of hbase fun d x hd hx => ⟨hd.1, fun b hb => Option.some.inj hb ▸ hx⟩,
      Member.keeps_other fun _ _ hd => hd, Member.keeps_other fun _ _ hd => hd,
      Member.keeps_other fun _ _ hd => hd, nofun⟩
  · intro d l hd h
    obtain ⟨linkedMics, -, h⟩ := bind_eq_ok_iff.mp h
    obtain ⟨base1, hbase1, h⟩ := bind_eq_ok_iff.mp h
    obtain ⟨base2, hbase2, h⟩ := bind_eq_ok_iff.mp h
    obtain ⟨primarySignatures, -, h⟩ := bind_eq_ok_iff.mp h
    obtain ⟨secondarySignatures, -, h⟩ := bind_eq_ok_iff.mp h
    cases h
    exact ⟨hd.1 base1 (Reader.require_eq_ok_iff.mp hbase1),
      hd.2 base2 (Reader.require_eq_ok_iff.mp hbase2)⟩

/-! ## Tokens -/

theorem gives_token : ItemReader.Gives (Stored.read S) (OwnerToken.WellFormed S) := by
  refine Reader.gives_record
    (I := fun d => ∀ c, d.credit.join = some c → c.WellFormed S) nofun ?_ ?_
  · have hcredit : ItemReader.Gives (Reader.optional (Stored.read S))
        fun c : Option Credit => ∀ c', c = some c' → c'.WellFormed S := by
      intro budget h
      unfold Reader.optional
      split
      · exact Reader.gives_pure nofun
      · exact Reader.gives_pure nofun
      · exact (gives_credit budget h).map fun c hc c' heq => Option.some.inj heq ▸ hc
    simp only [List.forall_mem_cons]
    exact ⟨Member.keeps_other fun _ _ hd => hd, Member.keeps_other fun _ _ hd => hd,
      Member.keeps_other fun _ _ hd => hd, Member.keeps_other fun _ _ hd => hd,
      Member.keeps_of hcredit fun d x _ hx c hc => hx c hc, nofun⟩
  · intro d t hd h
    obtain ⟨publicKey, -, h⟩ := bind_eq_ok_iff.mp h
    obtain ⟨signature, -, h⟩ := bind_eq_ok_iff.mp h
    obtain ⟨signedMics, -, h⟩ := bind_eq_ok_iff.mp h
    obtain ⟨salt, -, h⟩ := bind_eq_ok_iff.mp h
    cases h
    exact hd

end Storage

namespace Stored

variable {α : Type} [Stored α] {S : Suite} {o : Octets} {x : α}

theorem ofOctets_eq_ok_iff : ofOctets S o = .ok x ↔
    ∃ rest, (Storage.Reader.head >>= read S Storage.depthLimit) o = .ok (x, rest) := by
  unfold ofOctets
  constructor
  · intro h
    simp only at h
    split at h
    · next y rest hy => exact ⟨rest, Except.ok.inj h ▸ hy⟩
    · cases h
  · rintro ⟨rest, h⟩
    simp only [h]

/-- What a reader guarantees holds of everything that octets store. -/
theorem of_ofOctets {P : α → Prop} (hread : Storage.ItemReader.Gives (read S) P) {o : Octets}
    {x : α} (h : ofOctets S o = .ok x) : P x := by
  obtain ⟨rest, hx⟩ := ofOctets_eq_ok_iff.mp h
  exact Storage.Reader.gives_bind (fun head => hread _ head) hx

end Stored

end Settlement
