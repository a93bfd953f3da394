import Settlement.Proofs.Cbor.Deterministic
import Settlement.Proofs.Signing.Messages
import Settlement.Proofs.Storage.Validity

/-!
# What is signed has one form

Records number their fields, and no two fields of a record have one number: at
no level, with a token's credit or without it, and with the context of its
connection behind the other fields. Nor do they hold floats (`Cbor.Plain`). So
every record is written in the deterministic form, `canonical_deterministic`.
-/

namespace Settlement

variable {S : Suite}

/-! ## Plain values -/

/-- No map in the value repeats a key, and there is no float in it. -/
structure Cbor.Plain (v : Cbor) : Prop where
  uniqueKeys : v.UniqueKeys
  floatFree : v.FloatFree

namespace Cbor

theorem plain_uint (n : UInt64) : (uint n).Plain := ⟨trivial, .uint n⟩

theorem plain_bool (b : Bool) : (bool b).Plain := ⟨trivial, .bool b⟩

theorem plain_bytes (b : Octets) : (bytes b).Plain := ⟨trivial, .bytes b⟩

theorem plain_int (n : Int64) : (int n).Plain := by
  unfold int
  split
  · exact plain_uint _
  · exact ⟨trivial, .nint _⟩

theorem plain_array_map {α : Type} {f : α → Cbor} (hf : ∀ a, (f a).Plain) (as : List α) :
    (array (as.map f)).Plain where
  uniqueKeys := uniqueKeysItems_iff.mpr (List.forall_mem_map.mpr fun a _ => (hf a).uniqueKeys)
  floatFree := .array (List.forall_mem_map.mpr fun a _ => (hf a).floatFree)

theorem canonical_uint_inj {n k : UInt64} (h : (uint n).canonical = (uint k).canonical) : n = k :=
  uint.inj (encode_inj trivial trivial h)

end Cbor

theorem PublicKey.plain_cbor (k : PublicKey) : k.cbor.Plain := Cbor.plain_bytes _

theorem Signature.plain_cborOf (s : Option Signature) : (cborOf s).Plain := by
  cases s with
  | none => exact ⟨trivial, .null⟩
  | some s => exact Cbor.plain_bytes _

theorem MergerSignatures.plain_cbor (s : MergerSignatures) : s.cbor.Plain :=
  Cbor.plain_array_map Signature.plain_cborOf s.slots

/-! ## Records -/

namespace Field

theorem Ascending.nodup_keys {fields : List Field} (h : Ascending fields) :
    (fields.map Field.key).Nodup := by
  rw [List.Nodup, List.pairwise_map]
  exact h.keys.imp fun hlt => UInt64.ne_of_lt hlt

/-- Fields of different numbers make a plain record at every level. -/
theorem plain_record {fields : List Field} (hkeys : (fields.map Field.key).Nodup)
    (hvalues : ∀ f ∈ fields, f.value.Plain) (level : Level) : (record level fields).Plain := by
  have hpresent : ∀ f ∈ present level fields, f.value.Plain := fun f hf =>
    hvalues f (List.mem_of_mem_filter hf)
  refine ⟨⟨?_, ?_⟩, .map ?_ ?_⟩
  · have hnodup : ((present level fields).map Field.key).Nodup :=
      hkeys.sublist (List.filter_sublist.map _)
    rw [List.Nodup, List.pairwise_map] at hnodup
    rw [List.map_map, List.Nodup, List.pairwise_map]
    exact hnodup.imp fun hne h => hne (Cbor.canonical_uint_inj h)
  · rw [Cbor.uniqueKeysEntries_iff]
    exact List.forall_mem_map.mpr fun f hf => ⟨trivial, (hpresent f hf).uniqueKeys⟩
  · exact List.forall_mem_map.mpr fun f _ => .uint f.key
  · exact List.forall_mem_map.mpr fun f hf => (hpresent f hf).floatFree

end Field

/-! ## The records of objects -/

section

variable {B : Type} [Base B]

theorem Credit.plain_record (c : Credit) (level : Level) : (Signable.record S level c).Plain := by
  refine Field.plain_record c.ascending.nodup_keys ?_ level
  simp only [Signable.fields, List.forall_mem_cons]
  exact ⟨Cbor.plain_uint _, c.originator.plain_cbor,
    Cbor.plain_array_map PublicKey.plain_cbor c.mergers, nofun⟩

theorem Value.plain_record (v : Value) (level : Level) : (Signable.record S level v).Plain := by
  refine Field.plain_record v.ascending.nodup_keys ?_ level
  simp only [Signable.fields, List.forall_mem_cons]
  exact ⟨Cbor.plain_uint _, v.owner.plain_cbor, Cbor.plain_int _, v.credit.plain_record _, nofun⟩

theorem Assertion.plain_fields (a : Assertion) : ∀ f ∈ a.fields S, f.value.Plain := by
  cases a with
  | value v linker =>
      simp only [fields, List.forall_mem_cons]
      exact ⟨v.plain_record _, linker.plain_cbor, List.forall_mem_nil _⟩
  | signer v slot linker =>
      simp only [fields, List.forall_mem_cons]
      exact ⟨v.plain_record _, linker.plain_cbor, Cbor.plain_uint _, List.forall_mem_nil _⟩
  | credential c subject index =>
      simp only [fields, List.forall_mem_cons]
      exact ⟨c.plain_record _, subject.plain_cbor, Cbor.plain_uint _, List.forall_mem_nil _⟩

theorem Proof.plain_record (p : Proof) (level : Level) : (Signable.record S level p).Plain := by
  refine Field.plain_record p.ascending.nodup_keys ?_ level
  simp only [Signable.fields, List.forall_mem_append, List.forall_mem_cons]
  exact ⟨⟨⟨Cbor.plain_uint _, Cbor.plain_int _, Cbor.plain_int _, nofun⟩,
    p.assertion.plain_fields⟩, Signature.plain_cborOf _, nofun⟩

theorem Contract.plain_record (c : Contract) (level : Level) :
    (Signable.record S level c).Plain := by
  refine Field.plain_record c.ascending.nodup_keys ?_ level
  simp only [Signable.fields, List.forall_mem_cons]
  exact ⟨Cbor.plain_uint _, Cbor.plain_bytes _, Cbor.plain_int _, Cbor.plain_int _, nofun⟩

theorem ProofEvidence.plain_record (e : ProofEvidence) (level : Level) :
    (Signable.record S level e).Plain := by
  refine Field.plain_record (ProofEvidence.ascending e).nodup_keys ?_ level
  simp only [Signable.fields, List.forall_mem_append, List.forall_mem_cons]
  exact ⟨⟨Cbor.plain_uint _, Proof.plain_record _ _, nofun⟩, e.signatures.plain_cbor, nofun⟩

theorem LinkedEvidence.plain_record (hbase : ∀ b : B, (Signable.record S .full b).Plain)
    (e : LinkedEvidence B) (level : Level) : (Signable.record S level e).Plain := by
  refine Field.plain_record (LinkedEvidence.ascending e).nodup_keys ?_ level
  simp only [Signable.fields, List.forall_mem_append, List.forall_mem_cons]
  exact ⟨⟨Cbor.plain_uint _, Cbor.plain_bool _, Cbor.plain_int _, hbase _, hbase _, nofun⟩,
    e.signatures.plain_cbor, nofun⟩

theorem Linkage.plain_record (hbase : ∀ b : B, (Signable.record S .full b).Plain)
    (l : Linkage B) (level : Level) : (Signable.record S level l).Plain := by
  refine Field.plain_record l.ascending.nodup_keys ?_ level
  simp only [Signable.fields, List.forall_mem_cons]
  exact ⟨Cbor.plain_uint _, Cbor.plain_int _, hbase _, hbase _, l.primarySignatures.plain_cbor,
    l.secondarySignatures.plain_cbor, Signature.plain_cborOf _, nofun⟩

end

/-! ## Tokens -/

namespace OwnerToken

variable {t : OwnerToken} {context : Octets}

/-- The fields that a token's owner signs on a connection with the given context. -/
def signingFields (S : Suite) (t : OwnerToken) (context : Octets) : List Field :=
  Signable.fields S t ++ [⟨5, .signer, .bytes context⟩]

/-- The context's number is none of the token's own, though it is lower than that of the signature
in front of it. -/
theorem nodup_keys (t : OwnerToken) (context : Octets) :
    ((t.signingFields S context).map Field.key).Nodup := by
  obtain ⟨key, signature, signed, salt, credit⟩ := t
  cases credit with
  | none =>
      show [(0 : UInt64), 1, 2, 3, 15, 5].Nodup
      decide
  | some c =>
      show [(0 : UInt64), 1, 2, 3, 4, 15, 5].Nodup
      decide

theorem plain_fields (t : OwnerToken) : ∀ f ∈ Signable.fields S t, f.value.Plain := by
  obtain ⟨key, signature, signed, salt, credit⟩ := t
  simp only [Signable.fields, List.forall_mem_append, List.forall_mem_cons]
  refine ⟨⟨⟨Cbor.plain_uint _, key.plain_cbor, Cbor.plain_int _, Cbor.plain_uint _, nofun⟩, ?_⟩,
    Cbor.plain_bytes _, nofun⟩
  cases credit with
  | none => exact nofun
  | some c => exact List.forall_mem_singleton.mpr (c.plain_record _)

theorem plain_signingRecord (t : OwnerToken) (context : Octets) (level : Level) :
    (Field.record level (t.signingFields S context)).Plain :=
  Field.plain_record (t.nodup_keys context)
    (List.forall_mem_append.mpr ⟨t.plain_fields, List.forall_mem_singleton.mpr
      (Cbor.plain_bytes context)⟩) level

theorem plain_record (t : OwnerToken) (level : Level) : (Signable.record S level t).Plain := by
  have hkeys := t.nodup_keys (S := S) []
  rw [signingFields, List.map_append] at hkeys
  exact Field.plain_record hkeys.of_append_left t.plain_fields level

theorem length_signingFields_le (t : OwnerToken) (context : Octets) :
    (t.signingFields S context).length ≤ 7 := by
  obtain ⟨key, signature, signed, salt, credit⟩ := t
  cases credit with
  | none => exact Nat.le_succ 6
  | some c => exact Nat.le_refl 7

theorem sized_signingRecord (h : t.WellFormed S) (hcontext : context.length < UInt64.size)
    (level : Level) : (Field.record level (t.signingFields S context)).Sized := by
  refine Field.sized_record_of_length ?_ (sized_signingFields h hcontext)
  refine Nat.lt_of_le_of_lt (List.length_filter_le _ _) ?_
  exact Nat.lt_of_le_of_lt (t.length_signingFields_le context) (by decide)

theorem sized_record (h : t.WellFormed S) (level : Level) :
    (Signable.record S level t).Sized := by
  have hlength := t.length_signingFields_le (S := S) []
  rw [signingFields, List.length_append] at hlength
  refine Field.sized_record_of_length ?_ (sized_fields h)
  refine Nat.lt_of_le_of_lt (List.length_filter_le _ _) ?_
  exact Nat.lt_of_le_of_lt (Nat.le_of_add_right_le hlength) (by decide)

end OwnerToken

/-! ## All objects -/

namespace Storage

instance : (k : Kind) → Signable k.Object
  | .credit => inferInstanceAs (Signable Credit)
  | .value => inferInstanceAs (Signable Value)
  | .proof => inferInstanceAs (Signable Proof)
  | .contract => inferInstanceAs (Signable Contract)
  | .proofEvidence => inferInstanceAs (Signable ProofEvidence)
  | .linkedEvidence base => inferInstanceAs (Signable (LinkedEvidence base.Object))
  | .linkage base => inferInstanceAs (Signable (Linkage base.Object))
  | .token => inferInstanceAs (Signable OwnerToken)

theorem BaseKind.plain_record (k : BaseKind) (b : k.Object) (level : Level) :
    (Signable.record S level b).Plain := by
  cases k with
  | proof => exact Proof.plain_record b level
  | contract => exact Contract.plain_record b level

namespace Kind

theorem plain_record (k : Kind) (x : k.Object) (level : Level) :
    (Signable.record S level x).Plain := by
  cases k with
  | credit => exact Credit.plain_record x level
  | value => exact Value.plain_record x level
  | proof => exact Proof.plain_record x level
  | contract => exact Contract.plain_record x level
  | proofEvidence => exact ProofEvidence.plain_record x level
  | linkedEvidence base =>
      exact LinkedEvidence.plain_record (fun b => base.plain_record b _) x level
  | linkage base => exact Linkage.plain_record (fun b => base.plain_record b _) x level
  | token => exact OwnerToken.plain_record x level

theorem sized_record (k : Kind) {x : k.Object} (h : k.WellFormed S x) (level : Level) :
    (Signable.record S level x).Sized := by
  cases k with
  | credit => exact Credit.sized_record h level
  | value => exact Value.sized_record h level
  | proof => exact Proof.sized_record h level
  | contract => exact Contract.sized_record x level
  | proofEvidence => exact ProofEvidence.sized_record h level
  | linkedEvidence base => exact LinkedEvidence.sized_record h level
  | linkage base => exact Linkage.sized_record h level
  | token => exact OwnerToken.sized_record h level

end Kind

end Storage

theorem Cbor.Plain.deterministic {v : Cbor} (h : v.Plain) (hsized : v.Sized) : v.Deterministic :=
  Cbor.deterministic hsized h.uniqueKeys h.floatFree

/-- **What is signed is written in the deterministic form.** The canonical form of a value without
floats in which no map repeats a key is one item of it and the only one; so is that of every object
at every level, and that of what a token's owner signs on any connection. The decoder reads the
items and nothing else, and no item goes on with another one. -/
theorem canonical_deterministic (S : Suite) :
    (∀ v : Cbor, v.Sized → v.UniqueKeys → v.FloatFree → v.Deterministic) ∧
    (∀ (k : Storage.Kind) (x : k.Object), k.WellFormed S x →
      ∀ level, (Signable.record S level x).Deterministic) ∧
    (∀ (t : OwnerToken) (context : Octets), t.WellFormed S → context.length < UInt64.size →
      t.ownerMessage S context =
        signedMessage .signer (Field.record .signer (t.signingFields S context)) ∧
      ∀ level, (Field.record level (t.signingFields S context)).Deterministic) ∧
    (∀ o v, Cbor.decode? o = some v ↔ Cbor.Item v o) ∧
    (∀ o rest v w, Cbor.Item v o → Cbor.Item w (o ++ rest) → v = w ∧ rest = []) := by
  refine ⟨fun v => Cbor.deterministic, ?_, ?_, fun o v => Cbor.decode?_eq_some_iff,
    fun o rest v w => Cbor.Item.eq_of_append⟩
  · intro k x hx level
    exact (k.plain_record x level).deterministic (k.sized_record hx level)
  · intro t context ht hcontext
    refine ⟨rfl, fun level => ?_⟩
    exact (t.plain_signingRecord context level).deterministic
      (OwnerToken.sized_signingRecord ht hcontext level)

/-- A map with a key that is a map, a contract at the level of a merger, and a token's fields on a
connection, of which the last two are not in order. -/
theorem canonical_deterministic_neutralContract :
    let v : Cbor := .map
      [(.map [(.uint 24, .null), (.nint 0, .bool true)], .text "é"),
        (.bytes [2], .tag 1 (.array []))]
    let t : OwnerToken := ⟨neutralKey, .zero, 3, 8, none⟩
    (v.Sized ∧ v.UniqueKeys ∧ v.FloatFree ∧ v.Deterministic) ∧
    (Base.WellFormed Suite.standard Signed.neutralContract ∧
      (Signable.record Suite.standard (.merger 1) Signed.neutralContract).Deterministic) ∧
    (t.WellFormed Suite.standard ∧
      (Field.record .full (t.signingFields Suite.standard [7])).Deterministic) := by
  intro v t
  obtain ⟨hvalues, hobjects, htokens, -⟩ := canonical_deterministic Suite.standard
  have hsized : v.Sized := by
    simp only [v, Cbor.Sized, Cbor.SizedEntries, Cbor.SizedItems, and_true]
    decide
  have hkeys : v.UniqueKeys := by
    simp only [v, Cbor.UniqueKeys, Cbor.UniqueKeysEntries, Cbor.UniqueKeysItems, and_true]
    decide
  have hkey : (Cbor.map [(.uint 24, .null), (.nint 0, .bool true)]).FloatFree :=
    .map (by simp [Cbor.FloatFree.uint, Cbor.FloatFree.nint])
      (by simp [Cbor.FloatFree.null, Cbor.FloatFree.bool])
  have hfloat : v.FloatFree :=
    .map (by simp [hkey, Cbor.FloatFree.bytes])
      (by simp [Cbor.FloatFree.text, Cbor.FloatFree.tag, Cbor.FloatFree.array])
  have htoken : t.WellFormed Suite.standard := by
    rintro c ⟨⟩
  exact ⟨⟨hsized, hkeys, hfloat, hvalues v hsized hkeys hfloat⟩,
    ⟨Signed.wellFormed_neutralContract,
      hobjects .contract Signed.neutralContract Signed.wellFormed_neutralContract _⟩,
    htoken, (htokens t [7] htoken (by decide)).2 _⟩

end Settlement
