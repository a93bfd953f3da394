import Settlement.Proofs.Cbor.CanonicalForm
import Settlement.Proofs.Cbor.Reading

/-!
# Canonical forms are deterministic

Where no map repeats a key, sorting by encoded keys leaves the keys strictly
ascending, and so the canonical form of a value without floats is an item of the
deterministic form: one that says the value up to the order of entries. There
is no other one (`deterministic`), so whoever writes the deterministic form
writes these octets.
-/

namespace Settlement.Cbor

/-! ## Values without floats -/

/-- There is no float in the value, however deep. -/
inductive FloatFree : Cbor → Prop
  | uint (n : UInt64) : FloatFree (.uint n)
  | nint (n : UInt64) : FloatFree (.nint n)
  | bytes (b : Octets) : FloatFree (.bytes b)
  | text (s : String) : FloatFree (.text s)
  | array {items : List Cbor} (hitems : ∀ v ∈ items, FloatFree v) : FloatFree (.array items)
  | map {entries : List (Cbor × Cbor)} (hkeys : ∀ e ∈ entries, FloatFree e.1)
      (hvalues : ∀ e ∈ entries, FloatFree e.2) : FloatFree (.map entries)
  | tag (number : UInt64) {content : Cbor} (hcontent : FloatFree content) :
      FloatFree (.tag number content)
  | bool (b : Bool) : FloatFree (.bool b)
  | null : FloatFree .null

/-! ## Canonical forms are items -/

/-- Keys that are distinct are in strict order when they are sorted. -/
theorem ascending_sortEntries {es : List (Cbor × Cbor)} (h : (es.map (·.1.encode)).Nodup) :
    ((sortEntries es).map (·.1.encode)).Pairwise (· < ·) := by
  have hdistinct : ((sortEntries es).map (·.1.encode)).Nodup :=
    ((sortEntries_perm es).map _).nodup_iff.mpr h
  rw [List.Nodup, List.pairwise_map] at hdistinct
  rw [List.pairwise_map]
  refine ((pairwise_sortEntries es).and hdistinct).imp ?_
  rintro e f ⟨hle, hne⟩
  exact List.not_le.mp fun hge => hne (List.le_antisymm hle hge)

theorem isShortestHead_head {m : Major} {n : Nat} (h : n < UInt64.size) :
    IsShortestHead m n (head m n) :=
  isShortestHead_iff.mpr ⟨h, rfl⟩

/-- An array is an item as it is written, if what is in it is. -/
theorem item_array {items : List Cbor} (hlength : items.length < UInt64.size)
    (h : ∀ v ∈ items, Item v v.encode) : Item (.array items) (encode (.array items)) := by
  let written : List Written := items.map fun v => (v, v.encode)
  have hwritten : ∀ v ∈ written, Item v.1 v.2 := by
    intro _ hmem
    obtain ⟨v, hv, rfl⟩ := List.mem_map.mp hmem
    exact h v hv
  have hvalues : written.map (·.1) = items := List.map_map.trans (List.map_id items)
  have hoctets : written.flatMap (·.2) = encodeItems items := by
    rw [encodeItems_eq_flatMap, List.flatMap_map]
  have hitem := Item.array (isShortestHead_head (by rwa [List.length_map])) hwritten
  rw [hvalues, hoctets, List.length_map] at hitem
  rwa [encode]

/-- A map is an item as it is written, if what is in it is and the keys ascend. -/
theorem item_map {entries : List (Cbor × Cbor)} (hlength : entries.length < UInt64.size)
    (hkeys : ∀ e ∈ entries, Item e.1 e.1.encode) (hvalues : ∀ e ∈ entries, Item e.2 e.2.encode)
    (hascending : (entries.map (·.1.encode)).Pairwise (· < ·)) :
    Item (.map entries) (encode (.map entries)) := by
  let written : List (Written × Written) :=
    entries.map fun e => ((e.1, e.1.encode), (e.2, e.2.encode))
  have hwritten : ∀ e ∈ written, Item e.1.1 e.1.2 ∧ Item e.2.1 e.2.2 := by
    intro _ hmem
    obtain ⟨e, he, rfl⟩ := List.mem_map.mp hmem
    exact ⟨hkeys e he, hvalues e he⟩
  have hentries : (written.map fun e => (e.1.1, e.2.1)) = entries :=
    List.map_map.trans (List.map_id entries)
  have hoctets : (written.flatMap fun e => e.1.2 ++ e.2.2) = encodeEntries entries := by
    rw [encodeEntries_eq_flatMap, List.flatMap_map]
  have hitem := Item.map (isShortestHead_head (by rwa [List.length_map]))
    (fun e he => (hwritten e he).1) (fun e he => (hwritten e he).2)
    (by rwa [List.map_map])
  rw [hentries, hoctets, List.length_map] at hitem
  rwa [encode]

/-- The canonical form of a value is an item that says the value's normal form. -/
theorem FloatFree.item_canonical {v : Cbor} (h : v.FloatFree) :
    v.Sized → v.UniqueKeys → Item v.normalize v.canonical := by
  unfold canonical
  induction h with
  | uint n => exact fun _ _ => .uint (isShortestHead_head n.toNat_lt)
  | nint n => exact fun _ _ => .nint (isShortestHead_head n.toNat_lt)
  | bytes b => exact fun hsized _ => .bytes (isShortestHead_head hsized)
  | text s => exact fun hsized _ => .text (isShortestHead_head hsized)
  | @array items hitems ih =>
      rintro ⟨hlength, hsized⟩ hkeys
      rw [sizedItems_iff] at hsized
      rw [UniqueKeys, uniqueKeysItems_iff] at hkeys
      rw [normalize, normalizeItems_eq_map]
      refine item_array (by rwa [List.length_map]) fun _ hmem => ?_
      obtain ⟨v, hv, rfl⟩ := List.mem_map.mp hmem
      exact ih v hv (hsized v hv) (hkeys v hv)
  | @map entries _ _ ihkeys ihvalues =>
      rintro ⟨hlength, hsized⟩ ⟨hdistinct, hkeys⟩
      rw [sizedEntries_iff] at hsized
      rw [uniqueKeysEntries_iff] at hkeys
      rw [normalize, normalizeEntries_eq_map]
      have hperm := sortEntries_perm (entries.map normalizeEntry)
      -- what is sorted are the entries in their normal forms
      have hsorted : ∀ f ∈ sortEntries (entries.map normalizeEntry),
          ∃ e ∈ entries, normalizeEntry e = f := fun f hf =>
        List.mem_map.mp (hperm.mem_iff.mp hf)
      refine item_map ?_ ?_ ?_ (ascending_sortEntries ?_)
      · rwa [hperm.length_eq, List.length_map]
      · intro f hf
        obtain ⟨e, he, rfl⟩ := hsorted f hf
        exact ihkeys e he (hsized e he).1 (hkeys e he).1
      · intro f hf
        obtain ⟨e, he, rfl⟩ := hsorted f hf
        exact ihvalues e he (hsized e he).2 (hkeys e he).2
      · rw [List.map_map]
        exact hdistinct
  | tag number _ ih =>
      intro hsized hkeys
      rw [Sized] at hsized
      rw [UniqueKeys] at hkeys
      exact .tag (isShortestHead_head number.toNat_lt) (ih hsized hkeys)
  | bool b =>
      intro _ _
      have hoctets : (normalize (.bool b)).encode = [if b then 0xf5 else 0xf4] := by
        cases b <;> rfl
      rw [hoctets]
      exact .bool b
  | null => exact fun _ _ => .null

/-! ## Nothing else is an item of the value -/

/-- An item is written as it is, and what it says is in normal form. -/
theorem Item.encode_eq {v : Cbor} {o : Octets} (h : Item v o) :
    v.encode = o ∧ v.normalize = v := by
  induction h with
  | uint hhead => exact ⟨(isShortestHead_iff.mp hhead).2.symm, rfl⟩
  | nint hhead => exact ⟨(isShortestHead_iff.mp hhead).2.symm, rfl⟩
  | bytes hhead =>
      obtain ⟨-, rfl⟩ := isShortestHead_iff.mp hhead
      exact ⟨rfl, rfl⟩
  | text hhead =>
      obtain ⟨-, rfl⟩ := isShortestHead_iff.mp hhead
      exact ⟨rfl, rfl⟩
  | @array items o hhead _ ih =>
      obtain ⟨-, rfl⟩ := isShortestHead_iff.mp hhead
      rw [encode, normalize, normalizeItems_eq_map, encodeItems_eq_flatMap, List.length_map,
        List.flatMap_map, List.map_map]
      refine ⟨congrArg _ (List.flatMap_congr fun v hv => (ih v hv).1), congrArg Cbor.array ?_⟩
      exact List.map_congr_left fun v hv => (ih v hv).2
  | @map entries o hhead _ _ hascending ihkeys ihvalues =>
      obtain ⟨-, rfl⟩ := isShortestHead_iff.mp hhead
      have hnormal : (entries.map fun e => (e.1.1, e.2.1)).map normalizeEntry =
          entries.map fun e => (e.1.1, e.2.1) := by
        rw [List.map_map]
        refine List.map_congr_left fun e he => ?_
        exact Prod.ext (ihkeys e he).2 (ihvalues e he).2
      have hordered : (entries.map fun e => (e.1.1, e.2.1)).Pairwise EntryLe := by
        rw [List.pairwise_map] at hascending ⊢
        refine hascending.imp_of_mem fun {e f} he hf hlt => ?_
        show e.1.1.encode ≤ f.1.1.encode
        rw [(ihkeys e he).1, (ihkeys f hf).1]
        exact List.le_of_lt hlt
      rw [encode, normalize, normalizeEntries_eq_map, hnormal, sortEntries_of_pairwise hordered,
        encodeEntries_eq_flatMap, List.length_map, List.flatMap_map]
      refine ⟨congrArg _ (List.flatMap_congr fun e he => ?_), rfl⟩
      rw [(ihkeys e he).1, (ihvalues e he).1]
  | tag hhead _ ih =>
      obtain ⟨-, rfl⟩ := isShortestHead_iff.mp hhead
      obtain ⟨rfl, hnormal⟩ := ih
      exact ⟨rfl, by rw [normalize, hnormal]⟩
  | bool b => exact ⟨by cases b <;> rfl, rfl⟩
  | null => exact ⟨rfl, rfl⟩

/-! ## The deterministic form of a value -/

/-- The canonical form of the value is an item of the deterministic form, which says the value up to
the order of entries and is read as that. No other octets are such an item. -/
structure Deterministic (v : Cbor) : Prop where
  exists_item : ∃ w, Reordered v w ∧ Item w v.canonical ∧ decode? v.canonical = some w
  canonical_eq : ∀ w o, Reordered v w → Item w o → v.canonical = o

/-- **Canonical forms are deterministic.** What it takes is that lengths fit their heads, that no
map repeats a key and that there are no floats. -/
theorem deterministic {v : Cbor} (hsized : v.Sized) (hkeys : v.UniqueKeys) (hfloat : v.FloatFree) :
    v.Deterministic where
  exists_item :=
    have hitem := hfloat.item_canonical hsized hkeys
    ⟨v.normalize, reordered_normalize v, hitem, decode?_eq_some_iff.mpr hitem⟩
  canonical_eq w o hreordered hitem := by
    obtain ⟨hencode, hnormal⟩ := hitem.encode_eq
    rw [canonical, (hreordered.normalize_eq hkeys).2, hnormal, hencode]

end Settlement.Cbor
