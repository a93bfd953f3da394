import Mathlib.Data.List.Nodup
import Settlement.Cbor.Canonical
import Settlement.Proofs.Cbor.PrefixFree

/-!
# The canonical form

`Cbor.canonical` forgets the order of the entries of maps and nothing else:
the values of a canonical form are each other's reorderings, and reorderings
of a value whose maps repeat no key have one canonical form. Canonical forms
are prefix free as well (`canonical_append_inj`).

The two halves meet in the normal form. A value is a reordering of its normal
form (`reordered_normalize`), encodings have one value (`encode_append_inj`),
and reordering keeps the normal form as long as sorting has no choice, which
is what distinct keys give (`sortEntries_eq_of_perm`).
-/

namespace Settlement.Cbor

/-! ## Sorting entries -/

theorem insertEntry_perm (e : Cbor × Cbor) (es : List (Cbor × Cbor)) :
    (insertEntry e es).Perm (e :: es) := by
  induction es with
  | nil => exact List.Perm.refl _
  | cons f rest ih =>
      unfold insertEntry
      split
      · exact List.Perm.refl _
      · exact (ih.cons f).trans (List.Perm.swap e f rest)

theorem sortEntries_perm (es : List (Cbor × Cbor)) : (sortEntries es).Perm es := by
  induction es with
  | nil => exact List.Perm.refl _
  | cons e rest ih =>
      show (insertEntry e (sortEntries rest)).Perm (e :: rest)
      exact (insertEntry_perm e _).trans (ih.cons e)

/-- The order in which entries are written. -/
def EntryLe (e f : Cbor × Cbor) : Prop := e.1.encode ≤ f.1.encode

theorem pairwise_insertEntry (e : Cbor × Cbor) {es : List (Cbor × Cbor)}
    (h : es.Pairwise EntryLe) : (insertEntry e es).Pairwise EntryLe := by
  induction es with
  | nil => exact List.pairwise_singleton _ _
  | cons f rest ih =>
      obtain ⟨hf, hrest⟩ := List.pairwise_cons.mp h
      unfold insertEntry
      split
      · rename_i hle
        refine List.pairwise_cons.mpr ⟨?_, h⟩
        intro g hg
        rcases List.mem_cons.mp hg with rfl | hg
        · exact hle
        · exact List.le_trans hle (hf g hg)
      · rename_i hle
        refine List.pairwise_cons.mpr ⟨?_, ih hrest⟩
        intro g hg
        rcases List.mem_cons.mp ((insertEntry_perm e rest).mem_iff.mp hg) with rfl | hg
        · exact (List.le_total _ _).resolve_left hle
        · exact hf g hg

theorem pairwise_sortEntries (es : List (Cbor × Cbor)) :
    (sortEntries es).Pairwise EntryLe := by
  induction es with
  | nil => exact List.Pairwise.nil
  | cons e rest ih => exact pairwise_insertEntry e ih

/-- Entries that stand in order are left so. -/
theorem sortEntries_of_pairwise {es : List (Cbor × Cbor)} (h : es.Pairwise EntryLe) :
    sortEntries es = es := by
  induction es with
  | nil => rfl
  | cons e rest ih =>
      obtain ⟨he, hrest⟩ := List.pairwise_cons.mp h
      show insertEntry e (sortEntries rest) = e :: rest
      rw [ih hrest]
      cases rest with
      | nil => rfl
      | cons f rest => exact if_pos (he f List.mem_cons_self)

/-- With distinct encoded keys the order of entries decides nothing. -/
theorem sortEntries_eq_of_perm {es fs : List (Cbor × Cbor)} (h : es.Perm fs)
    (hkeys : (es.map (·.1.encode)).Nodup) : sortEntries es = sortEntries fs := by
  have hperm : (sortEntries es).Perm (sortEntries fs) :=
    (sortEntries_perm es).trans (h.trans (sortEntries_perm fs).symm)
  refine hperm.eq_of_pairwise ?_ (pairwise_sortEntries es) (pairwise_sortEntries fs)
  intro e f he hf hef hfe
  have he' : e ∈ es := (sortEntries_perm es).mem_iff.mp he
  have hf' : f ∈ es := h.mem_iff.mpr ((sortEntries_perm fs).mem_iff.mp hf)
  exact List.inj_on_of_nodup_map hkeys he' hf' (List.le_antisymm hef hfe)

/-! ## Normal forms -/

theorem normalizeItems_eq_map (items : List Cbor) : normalizeItems items = items.map normalize := by
  induction items with
  | nil => rfl
  | cons item rest ih => rw [normalizeItems, ih, List.map_cons]

/-- An entry with its key and its value in order within themselves. -/
def normalizeEntry (e : Cbor × Cbor) : Cbor × Cbor := (e.1.normalize, e.2.normalize)

theorem normalizeEntries_eq_map (entries : List (Cbor × Cbor)) :
    normalizeEntries entries = entries.map normalizeEntry := by
  induction entries with
  | nil => rfl
  | cons e rest ih => rw [normalizeEntries, ih, List.map_cons, normalizeEntry]

theorem sizedItems_iff {items : List Cbor} : SizedItems items ↔ ∀ v ∈ items, v.Sized := by
  induction items with
  | nil => simp [SizedItems]
  | cons item rest ih => rw [SizedItems, ih, List.forall_mem_cons]

theorem sizedEntries_iff {entries : List (Cbor × Cbor)} :
    SizedEntries entries ↔ ∀ e ∈ entries, e.1.Sized ∧ e.2.Sized := by
  induction entries with
  | nil => simp [SizedEntries]
  | cons e rest ih => rw [SizedEntries, ih, List.forall_mem_cons, and_assoc]

mutual

theorem Sized.normalize : ∀ {v : Cbor}, v.Sized → v.normalize.Sized := by
  intro v h
  cases v with
  | array items =>
      obtain ⟨hlen, hitems⟩ := h
      rw [Cbor.normalize]
      exact ⟨by rwa [normalizeItems_eq_map, List.length_map], SizedItems.normalize hitems⟩
  | map entries =>
      obtain ⟨hlen, hentries⟩ := h
      have hperm := sortEntries_perm (normalizeEntries entries)
      rw [Cbor.normalize]
      refine ⟨?_, ?_⟩
      · rwa [hperm.length_eq, normalizeEntries_eq_map, List.length_map]
      · rw [sizedEntries_iff]
        intro e he
        exact sizedEntries_iff.mp (SizedEntries.normalize hentries) e (hperm.mem_iff.mp he)
  | tag number content =>
      simp only [Sized] at h
      rw [Cbor.normalize, Sized]
      exact Sized.normalize h
  | _ => exact h

theorem SizedItems.normalize : ∀ {items : List Cbor}, SizedItems items →
    SizedItems (normalizeItems items) := by
  intro items h
  cases items with
  | nil => exact h
  | cons item rest => exact ⟨Sized.normalize h.1, SizedItems.normalize h.2⟩

theorem SizedEntries.normalize : ∀ {entries : List (Cbor × Cbor)}, SizedEntries entries →
    SizedEntries (normalizeEntries entries) := by
  intro entries h
  cases entries with
  | nil => exact h
  | cons e rest =>
      exact ⟨Sized.normalize h.1, Sized.normalize h.2.1, SizedEntries.normalize h.2.2⟩

end

theorem canonical_append_inj {v w : Cbor} {x y : Octets} (hv : v.Sized) (hw : w.Sized)
    (h : v.canonical ++ x = w.canonical ++ y) : v.normalize = w.normalize ∧ x = y :=
  encode_append_inj hv.normalize hw.normalize h

/-! ## Reordering -/

/-- The second value is the first one with the entries of maps in it in another order, however
deep the maps stand: within an item of an array, a key or a value of a map, or behind a tag. -/
inductive Reordered : Cbor → Cbor → Prop
  | refl (v : Cbor) : Reordered v v
  | trans {u v w : Cbor} : Reordered u v → Reordered v w → Reordered u w
  | entries {es fs : List (Cbor × Cbor)} : es.Perm fs → Reordered (.map es) (.map fs)
  | item (before after : List Cbor) {v w : Cbor} : Reordered v w →
      Reordered (.array (before ++ v :: after)) (.array (before ++ w :: after))
  | key (before after : List (Cbor × Cbor)) (value : Cbor) {v w : Cbor} : Reordered v w →
      Reordered (.map (before ++ (v, value) :: after)) (.map (before ++ (w, value) :: after))
  | value (before after : List (Cbor × Cbor)) (key : Cbor) {v w : Cbor} : Reordered v w →
      Reordered (.map (before ++ (key, v) :: after)) (.map (before ++ (key, w) :: after))
  | content (number : UInt64) {v w : Cbor} : Reordered v w →
      Reordered (.tag number v) (.tag number w)

theorem Reordered.symm {v w : Cbor} (h : Reordered v w) : Reordered w v := by
  induction h with
  | refl v => exact .refl v
  | trans _ _ ih1 ih2 => exact ih2.trans ih1
  | entries hperm => exact .entries hperm.symm
  | item before after _ ih => exact .item before after ih
  | key before after value _ ih => exact .key before after value ih
  | value before after key _ ih => exact .value before after key ih
  | content number _ ih => exact .content number ih

mutual

/-- A value is a reordering of its normal form. -/
theorem reordered_normalize : ∀ v : Cbor, Reordered v v.normalize := by
  intro v
  cases v with
  | array items =>
      rw [normalize]
      exact reordered_normalizeItems [] items
  | map entries =>
      rw [normalize]
      exact (reordered_normalizeEntries [] entries).trans (.entries (sortEntries_perm _).symm)
  | tag number content =>
      rw [normalize]
      exact .content number (reordered_normalize content)
  | _ => exact .refl _

theorem reordered_normalizeItems : ∀ before items : List Cbor,
    Reordered (.array (before ++ items)) (.array (before ++ normalizeItems items)) := by
  intro before items
  cases items with
  | nil => exact .refl _
  | cons item rest =>
      have hrest := reordered_normalizeItems (before ++ [item.normalize]) rest
      rw [List.append_assoc, List.append_assoc] at hrest
      exact (Reordered.item before rest (reordered_normalize item)).trans hrest

theorem reordered_normalizeEntries : ∀ before entries : List (Cbor × Cbor),
    Reordered (.map (before ++ entries)) (.map (before ++ normalizeEntries entries)) := by
  intro before entries
  cases entries with
  | nil => exact .refl _
  | cons e rest =>
      obtain ⟨key, value⟩ := e
      have hrest := reordered_normalizeEntries (before ++ [(key.normalize, value.normalize)]) rest
      rw [List.append_assoc, List.append_assoc] at hrest
      exact ((Reordered.key before rest value (reordered_normalize key)).trans
        (.value before rest key.normalize (reordered_normalize value))).trans hrest

end

theorem reordered_of_normalize_eq {v w : Cbor} (h : v.normalize = w.normalize) :
    Reordered v w := by
  have hw := (reordered_normalize w).symm
  rw [← h] at hw
  exact (reordered_normalize v).trans hw

/-! ## Distinct keys -/

mutual

/-- No map in the value, however deep, has two keys with one encoding. -/
def UniqueKeys : Cbor → Prop
  | .array items => UniqueKeysItems items
  | .map entries => (entries.map (·.1.canonical)).Nodup ∧ UniqueKeysEntries entries
  | .tag _ content => UniqueKeys content
  | .uint _ => True
  | .nint _ => True
  | .bytes _ => True
  | .text _ => True
  | .bool _ => True
  | .null => True
  | .float _ => True

/-- No map in any of the values has two keys with one encoding. -/
def UniqueKeysItems : List Cbor → Prop
  | [] => True
  | item :: rest => UniqueKeys item ∧ UniqueKeysItems rest

/-- No map in any of the keys and values has two keys with one encoding. -/
def UniqueKeysEntries : List (Cbor × Cbor) → Prop
  | [] => True
  | (key, value) :: rest => UniqueKeys key ∧ UniqueKeys value ∧ UniqueKeysEntries rest

end

theorem uniqueKeysItems_iff {items : List Cbor} :
    UniqueKeysItems items ↔ ∀ v ∈ items, v.UniqueKeys := by
  induction items with
  | nil => simp [UniqueKeysItems]
  | cons item rest ih => rw [UniqueKeysItems, ih, List.forall_mem_cons]

theorem uniqueKeysEntries_iff {entries : List (Cbor × Cbor)} :
    UniqueKeysEntries entries ↔ ∀ e ∈ entries, e.1.UniqueKeys ∧ e.2.UniqueKeys := by
  induction entries with
  | nil => simp [UniqueKeysEntries]
  | cons e rest ih => rw [UniqueKeysEntries, ih, List.forall_mem_cons, and_assoc]

/-- Reordering keeps the normal form, and keys distinct. The two go together: that keys stay
distinct under a reordering within a key is read off the key's normal form. -/
theorem Reordered.normalize_eq {v w : Cbor} (h : Reordered v w) :
    v.UniqueKeys → w.UniqueKeys ∧ v.normalize = w.normalize := by
  induction h with
  | refl v => exact fun hv => ⟨hv, rfl⟩
  | trans _ _ ih1 ih2 =>
      intro hu
      obtain ⟨hv, huv⟩ := ih1 hu
      obtain ⟨hw, hvw⟩ := ih2 hv
      exact ⟨hw, huv.trans hvw⟩
  | @entries es fs hperm =>
      intro hv
      rw [UniqueKeys, uniqueKeysEntries_iff] at hv ⊢
      obtain ⟨hkeys, hentries⟩ := hv
      refine ⟨⟨(hperm.map _).nodup_iff.mp hkeys, fun e he => hentries e (hperm.mem_iff.mpr he)⟩, ?_⟩
      rw [normalize, normalize, normalizeEntries_eq_map, normalizeEntries_eq_map]
      congr 1
      -- sorting sees the normal forms of the keys, whose encodings are the ones that are distinct
      refine sortEntries_eq_of_perm (hperm.map _) ?_
      rw [List.map_map]
      exact hkeys
  | item before after _ ih =>
      intro hv
      rw [UniqueKeys, uniqueKeysItems_iff, List.forall_mem_append, List.forall_mem_cons] at hv ⊢
      obtain ⟨hbefore, hitem, hafter⟩ := hv
      obtain ⟨hw, hnorm⟩ := ih hitem
      refine ⟨⟨hbefore, hw, hafter⟩, ?_⟩
      rw [normalize, normalize, normalizeItems_eq_map, normalizeItems_eq_map]
      simp [hnorm]
  | key before after value _ ih =>
      intro hv
      rw [UniqueKeys, uniqueKeysEntries_iff, List.forall_mem_append, List.forall_mem_cons] at hv ⊢
      obtain ⟨hkeys, hbefore, ⟨hkey, hvalue⟩, hafter⟩ := hv
      obtain ⟨hw, hnorm⟩ := ih hkey
      -- the key has its encoding from its normal form, so all keys have the encodings they had
      refine ⟨⟨?_, hbefore, ⟨hw, hvalue⟩, hafter⟩, ?_⟩
      · simpa [canonical, hnorm] using hkeys
      · rw [normalize, normalize, normalizeEntries_eq_map, normalizeEntries_eq_map]
        simp [normalizeEntry, hnorm]
  | value before after key _ ih =>
      intro hv
      rw [UniqueKeys, uniqueKeysEntries_iff, List.forall_mem_append, List.forall_mem_cons] at hv ⊢
      obtain ⟨hkeys, hbefore, ⟨hkey, hvalue⟩, hafter⟩ := hv
      obtain ⟨hw, hnorm⟩ := ih hvalue
      refine ⟨⟨?_, hbefore, ⟨hkey, hw⟩, hafter⟩, ?_⟩
      · simpa using hkeys
      · rw [normalize, normalize, normalizeEntries_eq_map, normalizeEntries_eq_map]
        simp [normalizeEntry, hnorm]
  | content number _ ih =>
      intro hv
      rw [UniqueKeys] at hv ⊢
      obtain ⟨hw, hnorm⟩ := ih hv
      exact ⟨hw, by rw [normalize, normalize, hnorm]⟩

/-- **The canonical form.** Canonical forms are equal exactly for reorderings, and octets start
with the canonical form of one value only, up to reordering. -/
theorem canonical_eq_iff_reordered {v w : Cbor} (hv : v.Sized) (hw : w.Sized)
    (hkeys : v.UniqueKeys) :
    (v.canonical = w.canonical ↔ Reordered v w) ∧
      ∀ x y, v.canonical ++ x = w.canonical ++ y → Reordered v w ∧ x = y := by
  refine ⟨⟨?_, ?_⟩, ?_⟩
  · intro h
    exact reordered_of_normalize_eq (encode_inj hv.normalize hw.normalize h)
  · intro h
    exact congrArg encode (h.normalize_eq hkeys).2
  · intro x y h
    obtain ⟨hnorm, hxy⟩ := canonical_append_inj hv hw h
    exact ⟨reordered_of_normalize_eq hnorm, hxy⟩

/-- Two maps that differ in the order of their entries and of those of a map that is a key. -/
theorem canonical_eq_of_key_reordered :
    let v : Cbor := .map
      [(.map [(.uint 24, .null), (.nint 0, .bool true)], .float 7), (.bytes [2], .tag 1 .null)]
    let w : Cbor := .map
      [(.bytes [2], .tag 1 .null), (.map [(.nint 0, .bool true), (.uint 24, .null)], .float 7)]
    v.Sized ∧ w.Sized ∧ v.UniqueKeys ∧ v.canonical = w.canonical ∧ Reordered v w := by
  intro v w
  have hv : v.Sized := by simp [v, Sized, SizedEntries, UInt64.size]
  have hw : w.Sized := by simp [w, Sized, SizedEntries, UInt64.size]
  have hkeys : v.UniqueKeys := by
    simp only [v, UniqueKeys, UniqueKeysEntries, and_true]
    decide
  have hcanonical : v.canonical = w.canonical := by decide
  exact ⟨hv, hw, hkeys, hcanonical,
    (canonical_eq_iff_reordered hv hw hkeys).1.mp hcanonical⟩

end Settlement.Cbor
