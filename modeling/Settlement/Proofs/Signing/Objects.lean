import Settlement.Proofs.Signing.Records
import Settlement.Proofs.WellFormed

/-!
# What the record of an object says

From the full record of a credit, a value or a proof the object can be read
off again: `Credit.record_inj`, `Value.record_inj`, `Proof.record_inj`. The
record of a contract says as much as the compacted contract,
`Contract.record_inj`.
-/

namespace Settlement

/-! ## Members -/

namespace Cbor

@[simp] theorem normalize_int (n : Int64) : (int n).normalize = int n := by
  unfold int
  split <;> rfl

theorem toUInt64_inj {n m : Int64} (h : n.toUInt64 = m.toUInt64) : n = m := by
  cases n
  cases m
  exact congrArg _ h

@[simp] theorem int_inj {n m : Int64} : int n = int m ↔ n = m := by
  constructor
  · intro h
    unfold int at h
    split at h <;> split at h
    · exact toUInt64_inj (Cbor.uint.inj h)
    · cases h
    · cases h
    · exact (Int64.sub_right_inj (-1)).mp (toUInt64_inj (Cbor.nint.inj h))
  · rintro rfl
    rfl

theorem sized_int (n : Int64) : (int n).Sized := by
  unfold int
  split <;> trivial

end Cbor

namespace Block

theorem sized_octets {n : Nat} (b : Block n) (h : n < UInt64.size) :
    (Cbor.bytes b.octets).Sized := by
  rw [Cbor.Sized, b.length_octets]
  exact h

end Block

@[simp] theorem Identifier.octets_inj {i j : Identifier} : i.octets = j.octets ↔ i = j := by
  constructor
  · intro h
    cases i
    cases j
    exact congrArg _ (Block.ext h)
  · rintro rfl
    rfl

@[simp] theorem Point.units_inj {x y : Point} : x.units = y.units ↔ x = y := by
  constructor
  · intro h
    cases x
    cases y
    exact congrArg _ h
  · rintro rfl
    rfl

namespace PublicKey

@[simp] theorem normalize_cbor (k : PublicKey) : k.cbor.normalize = k.cbor := rfl

@[simp] theorem cbor_inj {k k' : PublicKey} : k.cbor = k'.cbor ↔ k = k' := by
  constructor
  · intro h
    cases k
    cases k'
    exact congrArg _ (Block.ext (Cbor.bytes.inj h))
  · rintro rfl
    rfl

theorem sized_cbor (k : PublicKey) : k.cbor.Sized := k.block.sized_octets (by decide)

end PublicKey

namespace Signature

@[simp] theorem normalize_cborOf (s : Option Signature) :
    (cborOf s).normalize = cborOf s := by
  cases s <;> rfl

@[simp] theorem cborOf_inj {s t : Option Signature} : cborOf s = cborOf t ↔ s = t := by
  constructor
  · intro h
    cases s with
    | none =>
        cases t with
        | none => rfl
        | some t => cases h
    | some s =>
        cases t with
        | none => cases h
        | some t =>
            cases s
            cases t
            exact congrArg (some ∘ Signature.mk) (Block.ext (Cbor.bytes.inj h))
  · rintro rfl
    rfl

theorem sized_cborOf (s : Option Signature) : (cborOf s).Sized := by
  cases s with
  | none => trivial
  | some s => exact s.block.sized_octets (by decide)

end Signature

namespace Cbor

/-- An array of items that are in order within themselves is in order. -/
theorem normalize_array_map {α : Type} {f : α → Cbor} (hf : ∀ a, (f a).normalize = f a)
    (as : List α) : (array (as.map f)).normalize = array (as.map f) := by
  rw [normalize, normalizeItems_eq_map, List.map_map]
  congr 2
  exact funext hf

theorem sized_array_map {α : Type} {f : α → Cbor} {as : List α} (hf : ∀ a, (f a).Sized)
    (hlen : as.length < UInt64.size) : (array (as.map f)).Sized := by
  refine ⟨by rwa [List.length_map], ?_⟩
  rw [sizedItems_iff]
  intro v hv
  obtain ⟨a, -, rfl⟩ := List.mem_map.mp hv
  exact hf a

end Cbor

namespace MergerSignatures

@[simp] theorem normalize_cbor (s : MergerSignatures) : s.cbor.normalize = s.cbor :=
  Cbor.normalize_array_map Signature.normalize_cborOf s.slots

@[simp] theorem cbor_inj {s t : MergerSignatures} : s.cbor = t.cbor ↔ s = t := by
  constructor
  · intro h
    refine MergerSignatures.ext (List.map_injective_iff.mpr ?_ (Cbor.array.inj h))
    exact fun _ _ => Signature.cborOf_inj.mp
  · rintro rfl
    rfl

theorem sized_cbor (s : MergerSignatures) : s.cbor.Sized := by
  refine Cbor.sized_array_map Signature.sized_cborOf ?_
  rw [s.length_slots]
  decide

end MergerSignatures

/-! ## Credits and values -/

theorem Field.ascending_of_keys {fields : List Field} (keys : List UInt64)
    (h : fields.map Field.key = keys)
    (hkeys : keys.Pairwise (· < ·) ∧ keys.all (·.toNat < 24) = true) :
    Field.Ascending fields where
  keys := List.pairwise_map.mp (h ▸ hkeys.1)
  small := by
    intro f hf
    have hmem : f.key ∈ keys := h ▸ List.mem_map_of_mem hf
    exact of_decide_eq_true (List.all_eq_true.mp hkeys.2 f.key hmem)

section Accounts

variable {S : Suite}

theorem Credit.ascending (c : Credit) : Field.Ascending (Signable.fields S c) :=
  Field.ascending_of_keys [0, 1, 2] rfl (by decide)

theorem Credit.normalEntries (c : Credit) :
    (Field.present .full (Signable.fields S c)).map Field.normalEntry =
      [(.uint 0, .uint Entity.credit.number), (.uint 1, c.originator.cbor),
       (.uint 2, .array (c.mergers.map PublicKey.cbor))] := by
  show [_, _, (Cbor.uint 2, Cbor.normalize _)] = _
  rw [Cbor.normalize_array_map PublicKey.normalize_cbor]
  rfl

@[simp] theorem Credit.record_inj {c d : Credit} :
    (Signable.record S .full c).normalize = (Signable.record S .full d).normalize ↔ c = d := by
  rw [Signable.record, Signable.record,
    Field.normalize_record_eq_iff (c.ascending.present _) (d.ascending.present _),
    Credit.normalEntries, Credit.normalEntries]
  cases c
  cases d
  simp [List.map_inj_right]

/-- A credit of few mergers fits, at every level. -/
theorem Credit.sized_record {c : Credit} (h : c.WellFormed S) (level : Level) :
    (Signable.record S level c).Sized := by
  refine Field.sized_record (c.ascending.present _) ?_
  have hlen : c.mergers.length < UInt64.size :=
    Nat.lt_of_le_of_lt h.mergers_le (by decide)
  simp only [Signable.fields, List.forall_mem_cons]
  exact ⟨trivial, c.originator.sized_cbor, Cbor.sized_array_map PublicKey.sized_cbor hlen, nofun⟩

theorem Value.ascending (v : Value) : Field.Ascending (Signable.fields S v) :=
  Field.ascending_of_keys [0, 1, 2, 3] rfl (by decide)

theorem Value.normalEntries (v : Value) :
    (Field.present .full (Signable.fields S v)).map Field.normalEntry =
      [(.uint 0, .uint Entity.value.number), (.uint 1, v.owner.cbor),
       (.uint 2, .int v.point.units), (.uint 3, (Signable.record S .full v.credit).normalize)] := by
  show [_, _, (Cbor.uint 2, Cbor.normalize _), _] = _
  rw [Cbor.normalize_int]
  rfl

@[simp] theorem Value.record_inj {v w : Value} :
    (Signable.record S .full v).normalize = (Signable.record S .full w).normalize ↔ v = w := by
  rw [Signable.record, Signable.record,
    Field.normalize_record_eq_iff (v.ascending.present _) (w.ascending.present _),
    Value.normalEntries, Value.normalEntries]
  cases v
  cases w
  simp

theorem Value.sized_record {v : Value} (h : v.WellFormed S) (level : Level) :
    (Signable.record S level v).Sized := by
  refine Field.sized_record (v.ascending.present _) ?_
  simp only [Signable.fields, List.forall_mem_cons]
  exact ⟨trivial, v.owner.sized_cbor, Cbor.sized_int _,
    Credit.sized_record h.wellFormed_credit _, nofun⟩

end Accounts

/-! ## Proofs -/

namespace Proof

variable {S : Suite}

theorem ascending (p : Proof) : Field.Ascending (Signable.fields S p) := by
  obtain ⟨a, signed, expiration, signature⟩ := p
  cases a with
  | value => exact Field.ascending_of_keys [0, 1, 2, 3, 4, 15] rfl (by decide)
  | signer => exact Field.ascending_of_keys [0, 1, 2, 3, 4, 5, 15] rfl (by decide)
  | credential => exact Field.ascending_of_keys [0, 1, 2, 6, 7, 8, 15] rfl (by decide)

/-- The entries that every proof has, signed or not. -/
def signedEntries (S : Suite) (p : Proof) : List (Cbor × Cbor) :=
  (.uint 0, .uint p.assertion.entity.number) :: (.uint 1, .int p.signedMics) ::
    (.uint 2, .int p.expirationMics) :: (p.assertion.fields S).map Field.normalEntry

theorem normalEntries_signer (p : Proof) :
    (Field.present .signer (Signable.fields S p)).map Field.normalEntry = p.signedEntries S := by
  obtain ⟨a, signed, expiration, signature⟩ := p
  unfold signedEntries
  rw [← Cbor.normalize_int signed, ← Cbor.normalize_int expiration]
  cases a <;> rfl

theorem normalEntries_full (p : Proof) :
    (Field.present .full (Signable.fields S p)).map Field.normalEntry =
      p.signedEntries S ++ [(.uint 15, Signature.cborOf p.signature)] := by
  obtain ⟨a, signed, expiration, signature⟩ := p
  unfold signedEntries
  rw [← Cbor.normalize_int signed, ← Cbor.normalize_int expiration,
    ← Signature.normalize_cborOf signature]
  cases a <;> rfl

/-- The assertion and the window can be read off, whatever follows them. -/
theorem signedEntries_append_inj {p q : Proof} {xs ys : List (Cbor × Cbor)} :
    p.signedEntries S ++ xs = q.signedEntries S ++ ys ↔
      (p.assertion = q.assertion ∧ p.signedMics = q.signedMics ∧
        p.expirationMics = q.expirationMics) ∧ xs = ys := by
  obtain ⟨a, signed, expiration, signature⟩ := p
  obtain ⟨b, signed', expiration', signature'⟩ := q
  -- the numbers of the records differ between the kinds of proofs
  cases a <;> cases b <;>
    simp [signedEntries, Assertion.fields, Assertion.entity, Entity.number, Field.normalEntry,
      Cbor.normalize, UInt8.toUInt64_inj, and_assoc]
  all_goals tauto

@[simp] theorem record_inj {p q : Proof} :
    (Signable.record S .full p).normalize = (Signable.record S .full q).normalize ↔ p = q := by
  rw [Signable.record, Signable.record,
    Field.normalize_record_eq_iff (p.ascending.present _) (q.ascending.present _),
    normalEntries_full, normalEntries_full, signedEntries_append_inj]
  cases p
  cases q
  simp [and_assoc]

theorem sized_record {p : Proof} (h : p.WellFormed S) (level : Level) :
    (Signable.record S level p).Sized := by
  refine Field.sized_record (p.ascending.present _) ?_
  simp only [Signable.fields, List.forall_mem_append, List.forall_mem_cons]
  refine ⟨⟨⟨trivial, Cbor.sized_int _, Cbor.sized_int _, nofun⟩, ?_⟩,
    Signature.sized_cborOf _, nofun⟩
  obtain ⟨a, signed, expiration, signature⟩ := p
  cases a with
  | value v linker =>
      simp only [Assertion.fields, List.forall_mem_cons]
      exact ⟨Value.sized_record h _, linker.sized_cbor, nofun⟩
  | signer v slot linker =>
      simp only [Assertion.fields, List.forall_mem_cons]
      exact ⟨Value.sized_record h _, linker.sized_cbor, trivial, nofun⟩
  | credential c subject index =>
      simp only [Assertion.fields, List.forall_mem_cons]
      exact ⟨Credit.sized_record h _, subject.sized_cbor, trivial, nofun⟩

end Proof

/-! ## Contracts -/

namespace Contract

variable {S : Suite}

theorem ascending (c : Contract) : Field.Ascending (Signable.fields S c) :=
  Field.ascending_of_keys [0, 1, 2, 3] rfl (by decide)

theorem normalEntries (c : Contract) :
    (Field.present .full (Signable.fields S c)).map Field.normalEntry =
      [(.uint 0, .uint Entity.contract.number), (.uint 1, .bytes (c.hash S).octets),
       (.uint 2, .int c.part.units), (.uint 3, .int c.whole.units)] := by
  rw [← Cbor.normalize_int c.part.units, ← Cbor.normalize_int c.whole.units]
  rfl

theorem strip_eq_strip_iff {c d : Contract} :
    c.strip S = d.strip S ↔ c.hash S = d.hash S ∧ c.part = d.part ∧ c.whole = d.whole := by
  simp [strip]

/-- The record of a contract says what is left of it when it is compacted. -/
theorem record_inj {c d : Contract} :
    (Signable.record S .full c).normalize = (Signable.record S .full d).normalize ↔
      c.strip S = d.strip S := by
  rw [Signable.record, Signable.record,
    Field.normalize_record_eq_iff (c.ascending.present _) (d.ascending.present _),
    normalEntries, normalEntries, strip_eq_strip_iff]
  simp

theorem sized_record (c : Contract) (level : Level) : (Signable.record S level c).Sized := by
  refine Field.sized_record (c.ascending.present _) ?_
  simp only [Signable.fields, List.forall_mem_cons]
  exact ⟨trivial, (c.hash S).block.sized_octets (by decide), Cbor.sized_int _, Cbor.sized_int _,
    nofun⟩

end Contract

/-! ## Bases -/

/-- A base that records can carry, and what they say of it. -/
class RecordedBase (B : Type) [Base B] where
  /-- What a record says of a base. -/
  recorded : Suite → B → B
  record_inj {S : Suite} {a b : B} :
    (Signable.record S .full a).normalize = (Signable.record S .full b).normalize ↔
      recorded S a = recorded S b
  sized_record {S : Suite} {b : B} : Base.WellFormed S b → (Signable.record S .full b).Sized

/-- The record of a proof says all of it. -/
instance : RecordedBase Proof where
  recorded _ p := p
  record_inj := Proof.record_inj
  sized_record h := Proof.sized_record (h _ rfl) _

/-- The record of a contract says all but the proof behind its hash. -/
instance : RecordedBase Contract where
  recorded S c := c.strip S
  record_inj := Contract.record_inj
  sized_record _ := Contract.sized_record _ _

/-- A link as records of its bases say it. -/
def Link.recorded {B : Type} [Base B] [RecordedBase B] (S : Suite) (l : Link B) : Link B :=
  ⟨l.linkedMics, RecordedBase.recorded S l.base1, RecordedBase.recorded S l.base2⟩

theorem Link.recorded_inj {S : Suite} {B : Type} [Base B] [RecordedBase B] {l l' : Link B} :
    l.recorded S = l'.recorded S ↔ l.linkedMics = l'.linkedMics ∧
      (Signable.record S .full l.base1).normalize = (Signable.record S .full l'.base1).normalize ∧
      (Signable.record S .full l.base2).normalize =
        (Signable.record S .full l'.base2).normalize := by
  rw [RecordedBase.record_inj, RecordedBase.record_inj, Link.recorded, Link.recorded,
    Link.mk.injEq]

/-- No proof has the record of a contract. -/
theorem Proof.record_ne_contract {S : Suite} (p : Proof) (c : Contract) :
    (Signable.record S .full p).normalize ≠ (Signable.record S .full c).normalize := by
  rw [Signable.record, Signable.record, Ne,
    Field.normalize_record_eq_iff (p.ascending.present _) (c.ascending.present _),
    Proof.normalEntries_full, Contract.normalEntries]
  obtain ⟨a, signed, expiration, signature⟩ := p
  cases a <;> simp [Proof.signedEntries, Assertion.entity, Entity.number]

/-! ## Evidences and linkages -/

section

variable {S : Suite} {B : Type} [Base B]

theorem ProofEvidence.ascending (e : ProofEvidence) : Field.Ascending (Signable.fields S e) :=
  Field.ascending_of_keys [0, 5, 15] rfl (by decide)

theorem ProofEvidence.sized_record {e : ProofEvidence} (h : e.body.proof.WellFormed S)
    (level : Level) : (Signable.record S level e).Sized := by
  refine Field.sized_record (ProofEvidence.ascending e |>.present _) ?_
  simp only [Signable.fields, List.forall_mem_append, List.forall_mem_cons]
  exact ⟨⟨trivial, Proof.sized_record h _, nofun⟩, e.signatures.sized_cbor, nofun⟩

theorem LinkedEvidence.ascending (e : LinkedEvidence B) :
    Field.Ascending (Signable.fields S e) :=
  Field.ascending_of_keys [0, 1, 2, 3, 4, 15] rfl (by decide)

theorem Linkage.ascending (l : Linkage B) : Field.Ascending (Signable.fields S l) :=
  Field.ascending_of_keys [0, 1, 2, 3, 4, 5, 15] rfl (by decide)

variable [RecordedBase B]

theorem LinkedEvidence.sized_record {e : LinkedEvidence B} (h : e.body.link.WellFormed S)
    (level : Level) : (Signable.record S level e).Sized := by
  refine Field.sized_record (LinkedEvidence.ascending e |>.present _) ?_
  simp only [Signable.fields, List.forall_mem_append, List.forall_mem_cons]
  exact ⟨⟨trivial, trivial, Cbor.sized_int _, RecordedBase.sized_record h.base1,
    RecordedBase.sized_record h.base2, nofun⟩, e.signatures.sized_cbor, nofun⟩

theorem Linkage.sized_record {l : Linkage B} (h : l.link.WellFormed S) (level : Level) :
    (Signable.record S level l).Sized := by
  refine Field.sized_record (l.ascending.present _) ?_
  simp only [Signable.fields, List.forall_mem_cons]
  exact ⟨trivial, Cbor.sized_int _, RecordedBase.sized_record h.base1,
    RecordedBase.sized_record h.base2, l.primarySignatures.sized_cbor,
    l.secondarySignatures.sized_cbor, Signature.sized_cborOf _, nofun⟩

end

end Settlement
