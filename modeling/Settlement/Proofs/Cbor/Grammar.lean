import Settlement.Proofs.Cbor.PrefixFree

/-!
# The deterministic form

The data format has many ways to write one value. Of these the core
deterministic encoding of RFC 8949 keeps one: every head is the shortest with
its argument, every length is stated in front and is the number of octets,
items or entries that follow, and the keys of a map stand in ascending order of
their octets, none of them twice. `Item` is that form as a grammar, for the
values that hold no floats.

What a head is does not depend on how heads are written here. There is one
shortest head for an argument, and it is the one that is written
(`isShortestHead_iff`).
-/

namespace Settlement.Cbor

/-! ## Heads -/

/-- The octets are a head of the major type with the argument: five bits that are the argument, or
that say that it follows in one, two, four or eight octets. -/
inductive IsHead (m : Major) (n : Nat) : Octets → Prop
  | short (h : n < 24) : IsHead m n [initial m n]
  | long (k : Fin 4) (argument : Octets) (hlength : argument.length = 2 ^ k.val)
      (hargument : Octets.ofBigEndian argument = n) :
      IsHead m n (initial m (24 + k) :: argument)

/-- The octets are a head, and no head of the major type with the argument is shorter. -/
structure IsShortestHead (m : Major) (n : Nat) (o : Octets) : Prop where
  isHead : IsHead m n o
  length_le : ∀ o', IsHead m n o' → o.length ≤ o'.length

section

variable {m : Major} {n : Nat} {o o' : Octets}

theorem isHead_head (h : n < UInt64.size) : IsHead m n (head m n) := by
  have hlong : ∀ k : Fin 4, n < 256 ^ 2 ^ k.val →
      IsHead m n (initial m (24 + k) :: Octets.bigEndian (2 ^ k.val) n) := fun k hk =>
    .long k _ (Octets.length_bigEndian _ _) (Octets.ofBigEndian_bigEndian hk)
  unfold head
  split
  · exact .short ‹_›
  · repeat' split
    · exact hlong 0 ‹_›
    · exact hlong 1 ‹_›
    · exact hlong 2 ‹_›
    · exact hlong 3 h

/-- Behind a first octet that promises `2 ^ k` octets there is no larger argument. -/
theorem lt_of_long {k : Fin 4} {argument : Octets} (hlength : argument.length = 2 ^ k.val)
    (hargument : Octets.ofBigEndian argument = n) : n < 256 ^ 2 ^ k.val := by
  rw [← hlength, ← hargument]
  exact Octets.ofBigEndian_lt argument

theorem IsHead.lt_size (h : IsHead m n o) : n < UInt64.size := by
  cases h with
  | short h => exact Nat.lt_trans h (by decide)
  | long k argument hlength hargument =>
      have hk : 2 ^ k.val ≤ 2 ^ 3 := Nat.pow_le_pow_right (by decide) (Nat.le_of_lt_succ k.isLt)
      exact Nat.lt_of_lt_of_le (lt_of_long hlength hargument)
        (Nat.pow_le_pow_right (by decide) hk)

/-- An argument that fits `2 ^ k` octets is written in no more of them. -/
theorem infoWidth_headInfo_le {k : Fin 4} (h : n < 256 ^ 2 ^ k.val) :
    infoWidth (headInfo n) ≤ 2 ^ k.val := by
  have hk : k = 0 ∨ k = 1 ∨ k = 2 ∨ k = 3 := by
    clear h
    revert k
    decide
  unfold headInfo infoWidth
  rcases hk with rfl | rfl | rfl | rfl
  all_goals
    simp at h ⊢
    grind

theorem length_head (m : Major) (n : Nat) :
    (head m n).length = infoWidth (headInfo n) + 1 := by
  rw [head_eq, List.length_cons, Octets.length_bigEndian]

theorem IsHead.length_head_le (h : IsHead m n o) : (head m n).length ≤ o.length := by
  cases h with
  | short h => exact Nat.le_of_eq (congrArg List.length (if_pos h))
  | long k argument hlength hargument =>
      rw [length_head, List.length_cons, hlength]
      exact Nat.succ_le_succ (infoWidth_headInfo_le (lt_of_long hlength hargument))

theorem IsHead.isShortestHead (h : IsHead m n o) (hlength : o.length ≤ (head m n).length) :
    IsShortestHead m n o :=
  ⟨h, fun _ ho' => Nat.le_trans hlength ho'.length_head_le⟩

/-- Heads of one length are equal. -/
theorem IsHead.eq_of_length (h : IsHead m n o) (h' : IsHead m n o')
    (hlength : o.length = o'.length) : o = o' := by
  cases h with
  | short h =>
      cases h' with
      | short h' => rfl
      | long k argument harg hargument =>
          have hpos : 0 < 2 ^ k.val := Nat.two_pow_pos _
          simp only [List.length_cons, List.length_nil] at hlength
          omega
  | long k argument harg hargument =>
      cases h' with
      | short h' =>
          have hpos : 0 < 2 ^ k.val := Nat.two_pow_pos _
          simp only [List.length_cons, List.length_nil] at hlength
          omega
      | long k' argument' harg' hargument' =>
          have hsame : argument.length = argument'.length := Nat.succ.inj hlength
          have hk : k = k' := by
            rw [harg, harg'] at hsame
            exact Fin.ext ((Nat.pow_right_inj (by decide)).mp hsame)
          rw [hk, Octets.ofBigEndian_inj hsame (hargument.trans hargument'.symm)]

/-- There is one shortest head, and it is the one that is written. -/
theorem isShortestHead_iff : IsShortestHead m n o ↔ n < UInt64.size ∧ o = head m n := by
  constructor
  · intro h
    have hsize := h.isHead.lt_size
    refine ⟨hsize, h.isHead.eq_of_length (isHead_head hsize) ?_⟩
    exact Nat.le_antisymm (h.length_le _ (isHead_head hsize)) h.isHead.length_head_le
  · rintro ⟨hsize, rfl⟩
    exact (isHead_head hsize).isShortestHead (Nat.le_refl _)

theorem IsShortestHead.length_pos (h : IsShortestHead m n o) : 0 < o.length := by
  obtain ⟨-, rfl⟩ := isShortestHead_iff.mp h
  rw [length_head]
  exact Nat.succ_pos _

end

/-! ## Items -/

/-- A value and octets that may write it. -/
abbrev Written := Cbor × Octets

/-- The octets are one item of the deterministic form, and the value is what the item says. -/
inductive Item : Cbor → Octets → Prop
  | uint {n : UInt64} {o : Octets} (hhead : IsShortestHead .unsigned n.toNat o) :
      Item (.uint n) o
  | nint {n : UInt64} {o : Octets} (hhead : IsShortestHead .negative n.toNat o) :
      Item (.nint n) o
  | bytes {b o : Octets} (hhead : IsShortestHead .bytes b.length o) : Item (.bytes b) (o ++ b)
  | text {s : String} {o : Octets} (hhead : IsShortestHead .text (utf8 s).length o) :
      Item (.text s) (o ++ utf8 s)
  | array {items : List Written} {o : Octets} (hhead : IsShortestHead .array items.length o)
      (hitems : ∀ v ∈ items, Item v.1 v.2) :
      Item (.array (items.map (·.1))) (o ++ items.flatMap (·.2))
  | map {entries : List (Written × Written)} {o : Octets}
      (hhead : IsShortestHead .map entries.length o) (hkeys : ∀ e ∈ entries, Item e.1.1 e.1.2)
      (hvalues : ∀ e ∈ entries, Item e.2.1 e.2.2)
      (hascending : (entries.map (·.1.2)).Pairwise (· < ·)) :
      Item (.map (entries.map fun e => (e.1.1, e.2.1)))
        (o ++ entries.flatMap fun e => e.1.2 ++ e.2.2)
  | tag {number : UInt64} {content : Cbor} {o inside : Octets}
      (hhead : IsShortestHead .tag number.toNat o) (hcontent : Item content inside) :
      Item (.tag number content) (o ++ inside)
  | bool (b : Bool) : Item (.bool b) [if b then 0xf5 else 0xf4]
  | null : Item .null [0xf6]

end Settlement.Cbor
