import Mathlib.Data.List.Perm.Subperm
import Settlement.Policy
import Settlement.Proofs.Cbor.CanonicalForm
import Settlement.Signing.Fields

/-!
# Records of numbered fields

The records that are signed number their fields in ascending order, so sorting
leaves them as they are: the normal form of a record lists the normal forms of
the fields that are present (`Field.normalize_record`), and records are equal
there when field by field they are (`Field.normalize_record_eq_iff`). A message
gives back its level and the normal form of its record, `signedMessage_eq_iff`.
-/

namespace Settlement

/-! ## Levels -/

theorem Level.evidence_le_merger (i : Fin maxMergers) : Level.evidence ≤ Level.merger i := by
  revert i
  decide

theorem Level.not_full_le_merger (i : Fin maxMergers) : ¬ Level.full ≤ Level.merger i := by
  revert i
  decide

theorem Level.merger_inj {i j : Fin maxMergers} : Level.merger i = Level.merger j ↔ i = j := by
  revert i j
  decide

/-! ## Records -/

namespace Field

/-- The fields that are present at a level. -/
def present (level : Level) (fields : List Field) : List Field :=
  fields.filter (·.level ≤ level)

/-- A field as the normal form of its record lists it. -/
def normalEntry (f : Field) : Cbor × Cbor := (.uint f.key, f.value.normalize)

/-- A field above the level is not in the record. -/
theorem record_concat_of_not_le {level : Level} {f : Field} (fields : List Field)
    (h : ¬ f.level ≤ level) : record level (fields ++ [f]) = record level fields := by
  unfold record
  rw [List.filter_append, List.filter_cons_of_neg (by simpa using h), List.filter_nil,
    List.append_nil]

/-- Fields in the order of their numbers, which each fit the first octet of a head. -/
structure Ascending (fields : List Field) : Prop where
  keys : fields.Pairwise (fun f g => f.key < g.key)
  small : ∀ f ∈ fields, f.key.toNat < 24

theorem Ascending.present {fields : List Field} (h : Ascending fields) (level : Level) :
    Ascending (Field.present level fields) where
  keys := h.keys.filter _
  small := fun f hf => h.small f (List.mem_of_mem_filter hf)

/-- A field whose number is the only octet of its head. -/
theorem encode_uint_of_small {k : UInt64} (h : k.toNat < 24) :
    (Cbor.uint k).encode = [Cbor.initial .unsigned k.toNat] := by
  rw [Cbor.encode, Cbor.head, if_pos h]

theorem initial_lt_of_lt {m : Cbor.Major} {i j : Nat} (hj : j < 32) (h : i < j) :
    Cbor.initial m i < Cbor.initial m j := by
  rw [UInt8.lt_iff_toNat_lt, Cbor.toNat_initial (Nat.lt_trans h hj), Cbor.toNat_initial hj]
  omega

/-- Numbers in ascending order are keys in the order of their encodings. -/
theorem Ascending.entryLe {fields : List Field} (h : Ascending fields) :
    (fields.map normalEntry).Pairwise Cbor.EntryLe := by
  rw [List.pairwise_map]
  refine h.keys.imp_of_mem ?_
  intro f g hf hg hlt
  show (Cbor.uint f.key).encode ≤ (Cbor.uint g.key).encode
  rw [encode_uint_of_small (h.small f hf), encode_uint_of_small (h.small g hg)]
  have hg24 := h.small g hg
  exact List.le_of_lt (List.Lex.rel (initial_lt_of_lt (by omega) (UInt64.lt_iff_toNat_lt.mp hlt)))

theorem normalize_record {level : Level} {fields : List Field}
    (h : Ascending (present level fields)) :
    (record level fields).normalize = .map ((present level fields).map normalEntry) := by
  have hmap : Cbor.normalizeEntries
      ((present level fields).map fun f => (Cbor.uint f.key, f.value))
      = (present level fields).map normalEntry := by
    rw [Cbor.normalizeEntries_eq_map, List.map_map]
    rfl
  show (Cbor.map ((present level fields).map fun f => (Cbor.uint f.key, f.value))).normalize = _
  rw [Cbor.normalize, hmap, Cbor.sortEntries_of_pairwise h.entryLe]

/-- Records have one normal form when their fields do, one by one. -/
theorem normalize_record_eq_iff {l l' : Level} {fs gs : List Field}
    (hf : Ascending (present l fs)) (hg : Ascending (present l' gs)) :
    (record l fs).normalize = (record l' gs).normalize ↔
      (present l fs).map normalEntry = (present l' gs).map normalEntry := by
  rw [normalize_record hf, normalize_record hg, Cbor.map.injEq]

/-- There are no more numbers than fit one octet. -/
theorem Ascending.length_le {fields : List Field} (h : Ascending fields) :
    fields.length ≤ 24 := by
  have hnodup : (fields.map fun f => f.key.toNat).Nodup := by
    rw [List.Nodup, List.pairwise_map]
    exact h.keys.imp fun hlt => Nat.ne_of_lt (UInt64.lt_iff_toNat_lt.mp hlt)
  have hsubset : (fields.map fun f => f.key.toNat) ⊆ List.range 24 := by
    intro k hk
    obtain ⟨f, hf, rfl⟩ := List.mem_map.mp hk
    exact List.mem_range.mpr (h.small f hf)
  have hle := (List.subperm_of_subset hnodup hsubset).length_le
  rwa [List.length_map, List.length_range] at hle

theorem sized_record_of_length {level : Level} {fields : List Field}
    (hlength : (present level fields).length < UInt64.size)
    (hvalues : ∀ f ∈ fields, f.value.Sized) : (record level fields).Sized := by
  refine ⟨by rwa [List.length_map], ?_⟩
  rw [Cbor.sizedEntries_iff]
  intro e he
  obtain ⟨f, hf, rfl⟩ := List.mem_map.mp he
  exact ⟨trivial, hvalues f (List.mem_of_mem_filter hf)⟩

theorem sized_record {level : Level} {fields : List Field}
    (h : Ascending (present level fields)) (hvalues : ∀ f ∈ fields, f.value.Sized) :
    (record level fields).Sized :=
  sized_record_of_length (Nat.lt_of_le_of_lt h.length_le (by decide)) hvalues

end Field

theorem bigEndian_level_inj {l l' : Level}
    (h : Octets.bigEndian 4 l.toNat = Octets.bigEndian 4 l'.toNat) : l = l' := by
  have hfits : ∀ k : Level, k.toNat < 256 ^ 4 := UInt32.toNat_lt
  exact UInt32.toNat_inj.mp (Octets.bigEndian_inj (hfits l) (hfits l') h)

/-- A message says at which level it is signed, and over which value up to the order of entries. -/
theorem signedMessage_eq_iff {l l' : Level} {v w : Cbor} (hv : v.Sized) (hw : w.Sized) :
    signedMessage l v = signedMessage l' w ↔ l = l' ∧ v.normalize = w.normalize := by
  constructor
  · intro h
    unfold signedMessage at h
    rw [List.append_assoc, List.append_assoc] at h
    obtain ⟨hlevel, hbody⟩ := List.append_inj (List.append_cancel_left h) (by simp)
    exact ⟨bigEndian_level_inj hlevel, Cbor.encode_inj hv.normalize hw.normalize hbody⟩
  · rintro ⟨rfl, hnorm⟩
    unfold signedMessage Cbor.canonical
    rw [hnorm]

end Settlement
