import Settlement.Proofs.Storage.Labels
import Settlement.Proofs.Storage.RoundTrip

/-!
# Stored objects are told apart

What is stored carries no mark of its type. All the same no object is read as
one of another type, nor its text form: `Storage.stored_objects_separated`. The
members of an object are all that its octets hold, each is dropped or read
without losing the place, and the label that the other type asks for is not
among them. Where two types share all labels, their first bases are of two
types, and it comes down to these.
-/

namespace Settlement.Storage

variable {S : Suite}

/-! ## What stored objects are made of -/

theorem storable_block {n : Nat} (b : Block n) (hn : n < UInt64.size) :
    Storable (.bytes b.octets) :=
  .bytes (by rw [b.length_octets]; exact hn)

theorem storable_int (n : Int64) : Storable (.int n) := by
  unfold Cbor.int
  split
  · exact .uint _
  · exact .nint _

theorem storable_option {α : Type} {cbor : α → Cbor} {o : Option α}
    (h : ∀ x, o = some x → Storable (cbor x)) : Storable (optionCbor cbor o) := by
  cases o with
  | none => exact .null
  | some x => exact h x rfl

theorem storable_publicKey (k : PublicKey) : Storable (Stored.cbor k) :=
  storable_block k.block (by decide)

theorem storable_signature? (s : Option Signature) : Storable (optionCbor Stored.cbor s) :=
  storable_option fun s _ => storable_block s.block (by decide)

theorem storable_mergerSignatures (s : MergerSignatures) : Storable (Stored.cbor s) := by
  refine .array ?_ fun v hv => ?_
  · rw [List.length_map, s.length_slots]
  · obtain ⟨slot, -, rfl⟩ := List.mem_map.mp hv
    exact storable_signature? slot

/-- The value is a record of storable members with the given names. -/
def IsRecord (v : Cbor) (names : List String) : Prop :=
  ∃ members : List (String × Cbor), v = recordCbor members ∧ members.map Prod.fst = names ∧
    ∀ m ∈ members, Storable m.2

theorem IsRecord.storable {v : Cbor} {names : List String} (h : IsRecord v names)
    (hnames : AreNames names) : Storable v := by
  obtain ⟨members, rfl, rfl, hvalues⟩ := h
  refine .map ?_ ?_ ?_
  · rw [List.length_map, ← List.length_map Prod.fst]
    exact hnames.2.2
  · intro e he
    obtain ⟨m, hm, rfl⟩ := List.mem_map.mp he
    exact ⟨m.1, hnames.2.1 _ (List.mem_map.mpr ⟨m, hm, rfl⟩), rfl⟩
  · intro e he
    obtain ⟨m, hm, rfl⟩ := List.mem_map.mp he
    exact hvalues m hm

/-- A label that is none of the names stands in no entry. -/
theorem IsRecord.refused {α : Type} {item : ItemReader α} {v : Cbor} {names : List String}
    {label : String} (h : IsRecord v names) (hnames : AreNames names)
    (hitem : item.Labelled label Never) (hlabel : label ∉ names) : item.Refuses v := by
  have hstorable := h.storable hnames
  obtain ⟨members, rfl, rfl, -⟩ := h
  refine hitem.refuses _ hstorable fun v hv => ?_
  obtain ⟨m, hm, heq⟩ := List.mem_map.mp hv
  injection heq with hkey
  injection hkey with hkey
  exact hlabel (List.mem_map.mpr ⟨m, hm, hkey⟩)

theorem storable_alternative {names : List String} (hnames : AreNames names) {name : String}
    (hname : name ∈ names) {v : Cbor} (hv : Storable v) : Storable (alternativeCbor name v) := by
  have hrecord : IsRecord (alternativeCbor name v) [name] := ⟨[(name, v)], rfl, rfl, by simpa⟩
  refine hrecord.storable ⟨List.nodup_singleton name, by simpa using hnames.2.1 name hname, ?_⟩
  rw [List.length_singleton]
  decide

/-! ## Objects as records -/

theorem isRecord_credit {c : Credit} (h : c.WellFormed S) :
    IsRecord (Stored.cbor c) ["originator", "mergers"] := by
  refine ⟨_, rfl, rfl, ?_⟩
  simp only [List.forall_mem_cons]
  refine ⟨storable_publicKey _, .array ?_ fun v hv => ?_, nofun⟩
  · rw [List.length_map]
    exact h.mergers_le
  · obtain ⟨merger, -, rfl⟩ := List.mem_map.mp hv
    exact storable_publicKey merger

theorem storable_credit {c : Credit} (h : c.WellFormed S) : Storable (Stored.cbor c) :=
  (isRecord_credit h).storable (by decide)

theorem isRecord_value {v : Value} (h : v.WellFormed S) :
    IsRecord (Stored.cbor v) ["owner", "point", "credit"] := by
  refine ⟨_, rfl, rfl, ?_⟩
  simp only [List.forall_mem_cons]
  exact ⟨storable_publicKey _, storable_int _, storable_credit h.wellFormed_credit, nofun⟩

theorem storable_value {v : Value} (h : v.WellFormed S) : Storable (Stored.cbor v) :=
  (isRecord_value h).storable (by decide)

theorem storable_assertion {a : Assertion} (h : a.WellFormed S) : Storable (Stored.cbor a) := by
  cases a with
  | value v linker =>
      have hcontent : IsRecord (recordCbor [("value", Stored.cbor v),
          ("linker_public_key", Stored.cbor linker)]) ["value", "linker_public_key"] := by
        refine ⟨_, rfl, rfl, ?_⟩
        simp only [List.forall_mem_cons]
        exact ⟨storable_value h, storable_publicKey _, nofun⟩
      exact storable_alternative areNames_assertions (.head _) (hcontent.storable (by decide))
  | signer v slot linker =>
      have hcontent : IsRecord (recordCbor [("value", Stored.cbor v),
          ("signer", .uint slot.toUInt64), ("linker_public_key", Stored.cbor linker)])
          ["value", "signer", "linker_public_key"] := by
        refine ⟨_, rfl, rfl, ?_⟩
        simp only [List.forall_mem_cons]
        exact ⟨storable_value h, .uint _, storable_publicKey _, nofun⟩
      exact storable_alternative areNames_assertions (.tail _ (.head _))
        (hcontent.storable (by decide))
  | credential c subject index =>
      have hcontent : IsRecord (recordCbor [("credit", Stored.cbor c),
          ("subject", Stored.cbor subject), ("merger_index", .uint index.toUInt64)])
          ["credit", "subject", "merger_index"] := by
        refine ⟨_, rfl, rfl, ?_⟩
        simp only [List.forall_mem_cons]
        exact ⟨storable_credit h, storable_publicKey _, .uint _, nofun⟩
      exact storable_alternative areNames_assertions (.tail _ (.tail _ (.head _)))
        (hcontent.storable (by decide))

theorem isRecord_proof {p : Proof} (h : p.WellFormed S) :
    IsRecord (Stored.cbor p) ["kind", "signed_mics", "expiration_mics", "signature"] := by
  refine ⟨_, rfl, rfl, ?_⟩
  simp only [List.forall_mem_cons]
  exact ⟨storable_assertion h, storable_int _, storable_int _, storable_signature? _, nofun⟩

theorem storable_proof {p : Proof} (h : p.WellFormed S) : Storable (Stored.cbor p) :=
  (isRecord_proof h).storable (by decide)

theorem isRecord_contract {c : Contract} (h : Base.WellFormed S c) :
    IsRecord (Stored.cbor c) ["body", "partial", "total"] := by
  have hbody : Storable (Stored.cbor c.body) := by
    obtain ⟨body, part, whole⟩ := c
    cases body with
    | proof p =>
        exact storable_alternative areNames_contractBodies (.head _) (storable_proof (h p rfl))
    | identifier id =>
        exact storable_alternative areNames_contractBodies (.tail _ (.head _))
          (storable_block id.block (by decide))
  refine ⟨_, rfl, rfl, ?_⟩
  simp only [List.forall_mem_cons]
  exact ⟨hbody, storable_int _, storable_int _, nofun⟩

theorem isRecord_proofEvidence {e : ProofEvidence} (h : e.body.proof.WellFormed S) :
    IsRecord (Stored.cbor e) ["proof", "merger_signatures"] := by
  refine ⟨_, rfl, rfl, ?_⟩
  simp only [List.forall_mem_cons]
  exact ⟨storable_proof h, storable_mergerSignatures _, nofun⟩

theorem isRecord_token {t : OwnerToken} (h : t.WellFormed S) :
    IsRecord (Stored.cbor t) ["public_key", "signature", "signed_mics", "salt", "credit"] := by
  refine ⟨_, rfl, rfl, ?_⟩
  simp only [List.forall_mem_cons]
  exact ⟨storable_publicKey _, storable_block _ (by decide), storable_int _, .uint _,
    storable_option fun c hc => storable_credit (h c hc), nofun⟩

section

variable {B : Type} [Stored B]

theorem isRecord_linkedEvidence {e : LinkedEvidence B}
    (hbase1 : Storable (Stored.cbor e.body.link.base1))
    (hbase2 : Storable (Stored.cbor e.body.link.base2)) :
    IsRecord (Stored.cbor e)
      ["is_primary", "linked_mics", "base1", "base2", "merger_signatures"] := by
  refine ⟨_, rfl, rfl, ?_⟩
  simp only [List.forall_mem_cons]
  exact ⟨.bool _, storable_int _, hbase1, hbase2, storable_mergerSignatures _, nofun⟩

theorem isRecord_linkage {l : Linkage B} (hbase1 : Storable (Stored.cbor l.link.base1))
    (hbase2 : Storable (Stored.cbor l.link.base2)) :
    IsRecord (Stored.cbor l)
      ["linked_mics", "base1", "base2", "primary_signatures", "secondary_signatures",
        "linker_signature"] := by
  refine ⟨_, rfl, rfl, ?_⟩
  simp only [List.forall_mem_cons]
  exact ⟨storable_int _, hbase1, hbase2, storable_mergerSignatures _,
    storable_mergerSignatures _, storable_signature? _, nofun⟩

end

/-! ## Labels of kinds -/

namespace Kind

/-- The names of the members. -/
def names : Kind → List String
  | .credit => ["originator", "mergers"]
  | .value => ["owner", "point", "credit"]
  | .proof => ["kind", "signed_mics", "expiration_mics", "signature"]
  | .contract => ["body", "partial", "total"]
  | .proofEvidence => ["proof", "merger_signatures"]
  | .linkedEvidence _ => ["is_primary", "linked_mics", "base1", "base2", "merger_signatures"]
  | .linkage _ => ["linked_mics", "base1", "base2", "primary_signatures", "secondary_signatures",
      "linker_signature"]
  | .token => ["public_key", "signature", "signed_mics", "salt", "credit"]

/-- The name of the member that sets the type apart. -/
def label : Kind → String
  | .credit => "originator"
  | .value => "owner"
  | .proof => "kind"
  | .contract => "body"
  | .proofEvidence => "proof"
  | .linkedEvidence _ => "is_primary"
  | .linkage _ => "primary_signatures"
  | .token => "public_key"

theorem areNames_names (k : Kind) : AreNames k.names := by
  cases k with
  | linkedEvidence base => exact (by decide : AreNames (linkedEvidence .proof).names)
  | linkage base => exact (by decide : AreNames (linkage .proof).names)
  | _ => decide

/-- Only what differs in its bases alone shares a label. -/
theorem exists_of_label_mem {j k : Kind} (hne : j ≠ k) (h : k.label ∈ j.names) :
    ∃ b b', b ≠ b' ∧ (j = .linkedEvidence b ∧ k = .linkedEvidence b' ∨
      j = .linkage b ∧ k = .linkage b') := by
  cases j <;> cases k <;> simp_all [label, names]

end Kind

theorem BaseKind.storable {b : BaseKind} {x : b.Object} (h : Base.WellFormed S x) :
    Storable (Stored.cbor x) := by
  cases b with
  | proof => exact storable_proof (h x rfl)
  | contract => exact (isRecord_contract h).storable (by decide)

theorem BaseKind.steady {b : BaseKind} : (Stored.read S : ItemReader b.Object).Steady := by
  cases b with
  | proof => exact labelled_proof.steady
  | contract => exact labelled_contract.steady

/-- A base of one type is refused where one of the other is read. -/
theorem BaseKind.refuses {b b' : BaseKind} (hne : b ≠ b') {x : b.Object}
    (h : Base.WellFormed S x) :
    (Stored.read S : ItemReader b'.Object).Refuses (Stored.cbor x) := by
  cases b with
  | proof =>
      cases b' with
      | proof => exact absurd rfl hne
      | contract =>
          exact (isRecord_proof (h x rfl)).refused (by decide) labelled_contract (by decide)
  | contract =>
      cases b' with
      | proof => exact (isRecord_contract h).refused (by decide) labelled_proof (by decide)
      | contract => exact absurd rfl hne

namespace Kind

/-- An object is stored as a record of its members. -/
theorem isRecord {k : Kind} {x : k.Object} (h : k.WellFormed S x) :
    IsRecord (Stored.cbor x) k.names := by
  cases k with
  | credit => exact isRecord_credit h
  | value => exact isRecord_value h
  | proof => exact isRecord_proof h
  | contract => exact isRecord_contract h
  | proofEvidence => exact isRecord_proofEvidence h
  | linkedEvidence base =>
      exact isRecord_linkedEvidence (BaseKind.storable (Link.WellFormed.base1 h))
        (BaseKind.storable (Link.WellFormed.base2 h))
  | linkage base =>
      exact isRecord_linkage (BaseKind.storable (Link.WellFormed.base1 h))
        (BaseKind.storable (Link.WellFormed.base2 h))
  | token => exact isRecord_token h

/-- The readers of all kinds refuse records without their labels. -/
theorem labelled (k : Kind) : (Stored.read S : ItemReader k.Object).Labelled k.label Never := by
  cases k with
  | credit => exact labelled_credit
  | value => exact labelled_value
  | proof => exact labelled_proof
  | contract => exact labelled_contract
  | proofEvidence => exact labelled_proofEvidence
  | linkedEvidence base => exact labelled_linkedEvidence BaseKind.steady
  | linkage base => exact labelled_linkage BaseKind.steady
  | token => exact labelled_token

/-- **An object is refused where one of another type is read.** -/
theorem refuses {j k : Kind} (hne : j ≠ k) {x : j.Object} (h : j.WellFormed S x) :
    (Stored.read S : ItemReader k.Object).Refuses (Stored.cbor x) := by
  have hrecord := isRecord h
  by_cases hlabel : k.label ∈ j.names
  · -- both labels are there, but the first base is of the other type
    have hstorable := hrecord.storable j.areNames_names
    obtain ⟨b, b', hb, ⟨rfl, rfl⟩ | ⟨rfl, rfl⟩⟩ := exists_of_label_mem hne hlabel
    · refine (labelled_linkedEvidence_base1 BaseKind.steady).refuses _ hstorable fun v hv => ?_
      have hv' : v = Stored.cbor x.body.link.base1 := by simpa using hv
      rw [hv']
      exact BaseKind.refuses hb (Link.WellFormed.base1 h)
    · refine (labelled_linkage_base1 BaseKind.steady).refuses _ hstorable fun v hv => ?_
      have hv' : v = Stored.cbor x.link.base1 := by simpa using hv
      rw [hv']
      exact BaseKind.refuses hb (Link.WellFormed.base1 h)
  · exact hrecord.refused j.areNames_names k.labelled hlabel

theorem exists_ofOctets_eq_error {j k : Kind} (hne : j ≠ k) {x : j.Object}
    (h : j.WellFormed S x) (rest : Octets) :
    ∃ fault, (Stored.ofOctets S (Stored.octets x ++ rest) : Except DataFault k.Object) =
      .error fault := by
  cases hread : (Stored.ofOctets S (Stored.octets x ++ rest) : Except DataFault k.Object) with
  | error fault => exact ⟨fault, rfl⟩
  | ok y =>
      obtain ⟨left, hy⟩ := Stored.ofOctets_eq_ok_iff.mp hread
      exact ((refuses hne h) depthLimit hy).2.elim

end Kind

/-- A text is not read as another type if its octets are not. -/
theorem TextKind.exists_parse_eq_error {j k : TextKind} {x : j.kind.Object}
    (h : ∃ fault, (Stored.ofOctets S (Stored.octets x) : Except DataFault k.kind.Object) =
      .error fault) :
    ∃ fault, (Marked.parse S (Marked.text x) : Except DataFault k.kind.Object) =
      .error fault := by
  by_cases hmark : Marked.mark j.kind.Object = Marked.mark k.kind.Object
  · obtain ⟨fault, hfault⟩ := h
    refine ⟨fault, (Marked.parse_text hmark x).trans ?_⟩
    cases j <;> cases k <;> exact hfault
  · exact ⟨_, Marked.parse_text_of_ne hmark x⟩

/-- **Stored objects of two types are never taken for each other.** Whatever the object, it is not
read as one of another type from its octets, nor from octets that start with them; and of the
types with text forms none is read from the text of another, the two linkages with one mark
included. -/
theorem stored_objects_separated (S : Suite) :
    (∀ j k : Kind, j ≠ k → ∀ x : j.Object, j.WellFormed S x → ∀ rest,
      ∃ fault, (Stored.ofOctets S (Stored.octets x ++ rest) : Except DataFault k.Object) =
        .error fault) ∧
    ∀ j k : TextKind, j ≠ k → ∀ x : j.kind.Object, j.kind.WellFormed S x →
      ∃ fault, (Marked.parse S (Marked.text x) : Except DataFault k.kind.Object) =
        .error fault := by
  constructor
  · intro j k hne x hx rest
    exact Kind.exists_ofOctets_eq_error hne hx rest
  · intro j k hne x hx
    have hkind : j.kind ≠ k.kind := by
      intro heq
      cases j <;> cases k <;> simp_all [TextKind.kind]
    have hoctets := Kind.exists_ofOctets_eq_error hkind hx []
    rw [List.append_nil] at hoctets
    exact TextKind.exists_parse_eq_error hoctets

/-- A linkage over contracts is no linkage over proofs, though both are marked alike. -/
theorem stored_objects_separated_plainContractSide :
    Link.WellFormed .plain plainContractSide.body.link ∧
    (∃ fault, (Stored.ofOctets .plain
        (Stored.octets (Linkage.join plainContractSide alteredContractSide)) :
      Except DataFault (Linkage Proof)) = .error fault) ∧
    ∃ fault, (Marked.parse .plain
        (Marked.text (Linkage.join plainContractSide alteredContractSide)) :
      Except DataFault (Linkage Proof)) = .error fault := by
  have hwell : Link.WellFormed .plain plainContractSide.body.link :=
    ⟨wellFormed_wholeOf_plainProof _, wellFormed_wholeOf_plainProof _⟩
  obtain ⟨hoctets, htext⟩ := stored_objects_separated .plain
  have hrest := hoctets (.linkage .contract) (.linkage .proof) (by decide)
    (Linkage.join plainContractSide alteredContractSide) hwell []
  rw [List.append_nil] at hrest
  exact ⟨hwell, hrest, htext (.linkage .contract) (.linkage .proof) (by decide) _ hwell⟩

end Settlement.Storage
