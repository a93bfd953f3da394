import Settlement.Proofs.Storage.Items
import Settlement.Proofs.WellFormed
import Settlement.Storage.Evidence

/-!
# Stored objects are read as they were written

Every object of a settlement, from keys up to linkages and tokens, is read
whole from the octets that store it. Credits and values have to be well formed
for that, since reading makes them anew; of all else any object will do.
-/

namespace Settlement.Storage

open ItemReader Reader

variable {S : Suite}

/-! ## Keys, signatures, identifiers and amounts -/

theorem reads_publicKey (k : PublicKey) : (Stored.read S).Reads 0 (Stored.cbor k) k :=
  (reads_block (by decide) k.block).map

theorem reads_signature (s : Signature) : (Stored.read S).Reads 0 (Stored.cbor s) s :=
  (reads_block (by decide) s.block).map

theorem reads_identifier (i : Identifier) : (Stored.read S).Reads 0 (Stored.cbor i) i :=
  (reads_block (by decide) i.block).map

theorem reads_point (p : Point) : (Stored.read S).Reads 0 (Stored.cbor p) p :=
  (reads_int64 p.units).map

/-- A signature that is there or not. -/
theorem reads_signature? (s : Option Signature) :
    (optional (Stored.read S)).Reads 0 (optionCbor Stored.cbor s) s := by
  cases s with
  | none => exact reads_none
  | some s =>
      have hlength : s.octets.length < UInt64.size := by
        rw [s.block.length_octets]
        decide
      exact reads_some (reads_signature s) (starts_bytes hlength) nofun nofun

/-! ## Credits and values -/

variable {c : Credit} {v : Value}

theorem reads_credit (h : c.WellFormed S) : (Stored.read S).Reads 2 (Stored.cbor c) c := by
  have hlength : c.mergers.length < UInt64.size :=
    Nat.lt_of_le_of_lt h.mergers_le (by decide)
  refine reads_record (show AreNames ["originator", "mergers"] by decide)
    (.of (reads_publicKey c.originator) rfl (Nat.zero_le _) <|
      .of (reads_list hlength fun m _ => reads_publicKey m) rfl (Nat.le_refl _) .nil) ?_
  show (Credit.of S c.originator c.mergers).mapError DecodeFault.model = .ok c
  rw [mapError_eq_ok_iff]
  exact Credit.of_eq_ok_iff.mpr ⟨rfl, h⟩

theorem reads_value (h : v.WellFormed S) : (Stored.read S).Reads 3 (Stored.cbor v) v := by
  refine reads_record (show AreNames ["owner", "point", "credit"] by decide)
    (.of (reads_publicKey v.owner) rfl (Nat.zero_le _) <|
      .of (reads_point v.point) rfl (Nat.zero_le _) <|
        .of (reads_credit h.wellFormed_credit) rfl (Nat.le_refl _) .nil) ?_
  show (Value.of S v.owner v.point v.credit).mapError DecodeFault.model = .ok v
  rw [mapError_eq_ok_iff]
  exact Value.of_eq_ok_iff.mpr ⟨rfl, h⟩

/-- A credit that is there or not. -/
theorem reads_credit? {c : Option Credit} (h : ∀ c', c = some c' → c'.WellFormed S) :
    (optional (Stored.read S)).Reads 2 (optionCbor Stored.cbor c) c := by
  cases c with
  | none => exact reads_none.mono (Nat.zero_le _)
  | some c =>
      exact reads_some (reads_credit (h c rfl)) (starts_map (show 2 < UInt64.size by decide))
        nofun nofun

/-! ## Proofs -/

theorem areNames_assertions : AreNames ["Value", "Signer", "Credential"] := by decide

theorem reads_assertion {a : Assertion} (h : a.WellFormed S) :
    (Stored.read S).Reads 5 (Stored.cbor a) a := by
  cases a with
  | value v linker =>
      have hcontent : (readValueAssertion S).Reads 4 _ (.value v linker) :=
        reads_record (show AreNames ["value", "linker_public_key"] by decide)
          (.of (reads_value h) rfl (Nat.le_refl _) <|
            .of (reads_publicKey linker) rfl (Nat.zero_le _) .nil) rfl
      exact reads_oneOf areNames_assertions (.head _) hcontent
  | signer v slot linker =>
      have hcontent : (readSignerAssertion S).Reads 4 _ (.signer v slot linker) :=
        reads_record (show AreNames ["value", "signer", "linker_public_key"] by decide)
          (.of (reads_value h) rfl (Nat.le_refl _) <|
            .of (reads_uint8 slot) rfl (Nat.zero_le _) <|
              .of (reads_publicKey linker) rfl (Nat.zero_le _) .nil) rfl
      exact reads_oneOf areNames_assertions (.tail _ (.head _)) hcontent
  | credential c subject index =>
      have hcontent : (readCredential S).Reads 4 _ (.credential c subject index) :=
        reads_record (show AreNames ["credit", "subject", "merger_index"] by decide)
          (.of (reads_credit h) rfl (by decide) <|
            .of (reads_publicKey subject) rfl (Nat.zero_le _) <|
              .of (reads_uint8 index) rfl (Nat.zero_le _) .nil) rfl
      exact reads_oneOf areNames_assertions (.tail _ (.tail _ (.head _))) hcontent

theorem reads_proof {p : Proof} (h : p.WellFormed S) :
    (Stored.read S).Reads 6 (Stored.cbor p) p :=
  reads_record (show AreNames ["kind", "signed_mics", "expiration_mics", "signature"] by decide)
    (.of (reads_assertion h) rfl (Nat.le_refl _) <|
      .of (reads_int64 p.signedMics) rfl (Nat.zero_le _) <|
        .of (reads_int64 p.expirationMics) rfl (Nat.zero_le _) <|
          .of (reads_signature? p.signature) rfl (Nat.zero_le _) .nil) rfl

/-! ## Contracts -/

theorem areNames_contractBodies : AreNames ["Proof", "Identifier"] := by decide

theorem reads_contractBody {b : ContractBody} (h : b.WellFormed S) :
    (Stored.read S).Reads 7 (Stored.cbor b) b := by
  cases b with
  | proof p => exact reads_oneOf areNames_contractBodies (.head _) (reads_proof (h p rfl)).map
  | identifier id =>
      exact reads_oneOf areNames_contractBodies (.tail _ (.head _))
        ((reads_identifier id).mono (Nat.zero_le 6)).map

theorem reads_contract {c : Contract} (h : Base.WellFormed S c) :
    (Stored.read S).Reads 8 (Stored.cbor c) c := by
  have hbody : c.body.WellFormed S := by
    intro p hp
    refine h p ?_
    show c.proof? = some p
    rw [Contract.proof?, hp]
  exact reads_record (show AreNames ["body", "partial", "total"] by decide)
    (.of (reads_contractBody hbody) rfl (Nat.le_refl _) <|
      .of (reads_point c.part) rfl (Nat.zero_le _) <|
        .of (reads_point c.whole) rfl (Nat.zero_le _) .nil) rfl

/-! ## Evidences and linkages -/

theorem reads_mergerSignatures (s : MergerSignatures) :
    (Stored.read S).Reads 1 (Stored.cbor s) s := by
  have hlength : s.slots.length < UInt64.size := by
    rw [s.length_slots]
    decide
  have hslots := reads_exactly hlength fun slot _ => reads_signature? (S := S) slot
  rw [s.length_slots] at hslots
  intro budget hbudget
  have hread := (hslots budget hbudget).bind_nil
    (f := fun slots => if h : slots.length = maxMergers then
      pure (⟨slots, h⟩ : MergerSignatures) else throw .unexpected)
    (by rw [dif_pos s.length_slots]; exact takes_pure _)
  rw [bind_assoc] at hread
  exact hread

theorem reads_proofEvidence {e : ProofEvidence} (h : e.body.proof.WellFormed S) :
    (Stored.read S).Reads 7 (Stored.cbor e) e :=
  reads_record (show AreNames ["proof", "merger_signatures"] by decide)
    (.of (reads_proof h) rfl (Nat.le_refl _) <|
      .of (reads_mergerSignatures e.signatures) rfl (by decide) .nil) rfl

section

variable {B : Type} [Stored B]

/-- The bases of a link are read as they were written. -/
def Link.ReadsBases (S : Suite) (l : Link B) : Prop :=
  (Stored.read S).Reads 8 (Stored.cbor l.base1) l.base1 ∧
    (Stored.read S).Reads 8 (Stored.cbor l.base2) l.base2

theorem reads_linkedEvidence {e : LinkedEvidence B} (h : Link.ReadsBases S e.body.link) :
    (Stored.read S).Reads 9 (Stored.cbor e) e :=
  reads_record (show AreNames ["is_primary", "linked_mics", "base1", "base2", "merger_signatures"]
      by decide)
    (.of (reads_bool e.body.isPrimary) rfl (Nat.zero_le _) <|
      .of (reads_int64 e.body.link.linkedMics) rfl (Nat.zero_le _) <|
        .of h.1 rfl (Nat.le_refl _) <|
          .of h.2 rfl (Nat.le_refl _) <|
            .of (reads_mergerSignatures e.signatures) rfl (by decide) .nil) rfl

theorem reads_linkage {l : Linkage B} (h : Link.ReadsBases S l.link) :
    (Stored.read S).Reads 9 (Stored.cbor l) l :=
  reads_record (show AreNames ["linked_mics", "base1", "base2", "primary_signatures",
      "secondary_signatures", "linker_signature"] by decide)
    (.of (reads_int64 l.link.linkedMics) rfl (Nat.zero_le _) <|
      .of h.1 rfl (Nat.le_refl _) <|
        .of h.2 rfl (Nat.le_refl _) <|
          .of (reads_mergerSignatures l.primarySignatures) rfl (by decide) <|
            .of (reads_mergerSignatures l.secondarySignatures) rfl (by decide) <|
              .of (reads_signature? l.linkerSignature) rfl (Nat.zero_le _) .nil) rfl

end

/-! ## Tokens -/

theorem reads_token {t : OwnerToken} (h : t.WellFormed S) :
    (Stored.read S).Reads 3 (Stored.cbor t) t :=
  reads_record (show AreNames ["public_key", "signature", "signed_mics", "salt", "credit"]
      by decide)
    (.of (reads_publicKey t.publicKey) rfl (Nat.zero_le _) <|
      .of (reads_signature t.signature) rfl (Nat.zero_le _) <|
        .of (reads_int64 t.signedMics) rfl (Nat.zero_le _) <|
          .of (reads_uint64 t.salt) rfl (Nat.zero_le _) <|
            .of (reads_credit? h) rfl (Nat.le_refl _) .nil) rfl

end Settlement.Storage
