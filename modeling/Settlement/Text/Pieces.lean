/-!
# Texts in pieces

Cutting a text at a character, once or wherever it stands. What the parts are:
`cut?_eq_some_iff` for one cut, `intercalate_pieces` and `not_mem_of_mem_pieces`
for all of them. Texts without the character are the pieces of what they are
joined to, `pieces_intercalate`.
-/

namespace Settlement.Text

/-- What stands before and after the first `c`. -/
def cut? (c : Char) : List Char → Option (List Char × List Char)
  | [] => none
  | d :: rest =>
    if d = c then some ([], rest)
    else (cut? c rest).map fun (before, after) => (d :: before, after)

/-- The texts between the occurrences of `c`. -/
def pieces (c : Char) : List Char → List (List Char)
  | [] => [[]]
  | d :: rest =>
    if d = c then [] :: pieces c rest
    else
      match pieces c rest with
      | [] => [[d]]
      | p :: ps => (d :: p) :: ps

/-- A text is cut at the first `c` and nowhere else, and nothing but that `c` is lost. -/
theorem cut?_eq_some_iff {c : Char} {s before after : List Char} :
    cut? c s = some (before, after) ↔ s = before ++ c :: after ∧ c ∉ before := by
  induction s generalizing before with
  | nil => simp [cut?]
  | cons d rest ih =>
    by_cases h : d = c
    · subst h
      cases before with
      | nil => simp [cut?, eq_comm]
      | cons b bs => simp [cut?]; intro hb; simp [hb]
    · cases before with
      | nil => simp [cut?, h]
      | cons b bs =>
        simp only [cut?, h, if_false, Option.map_eq_some_iff, Prod.exists, Prod.mk.injEq,
          List.cons_append, List.cons.injEq, List.mem_cons, not_or]
        constructor
        · rintro ⟨x, y, hxy, ⟨rfl, rfl⟩, rfl⟩
          obtain ⟨hs, hn⟩ := ih.1 hxy
          exact ⟨⟨rfl, hs⟩, fun hc => h hc.symm, hn⟩
        · rintro ⟨⟨rfl, hs⟩, _, hn⟩
          exact ⟨bs, after, ih.2 ⟨hs, hn⟩, ⟨rfl, rfl⟩, rfl⟩

/-- Even the empty text has a piece. -/
theorem pieces_ne_nil (c : Char) (s : List Char) : pieces c s ≠ [] := by
  cases s with
  | nil => simp [pieces]
  | cons d rest =>
    unfold pieces
    split
    · simp
    · split <;> simp

/-- Nothing but the occurrences of `c` is lost. -/
theorem intercalate_pieces (c : Char) (s : List Char) :
    List.intercalate [c] (pieces c s) = s := by
  induction s with
  | nil => rfl
  | cons d rest ih =>
    obtain ⟨p, ps, hp⟩ := List.exists_cons_of_ne_nil (pieces_ne_nil c rest)
    rw [hp] at ih
    unfold pieces
    split
    · next h => rw [hp, List.intercalate_cons_cons, ih, h]; rfl
    · cases ps with
      | nil => simp_all
      | cons q qs => simp_all [List.intercalate_cons_cons]

/-- No piece holds a `c`. -/
theorem not_mem_of_mem_pieces {c : Char} {s p : List Char} (h : p ∈ pieces c s) : c ∉ p := by
  induction s generalizing p with
  | nil => simp_all [pieces]
  | cons d rest ih =>
    obtain ⟨q, qs, hq⟩ := List.exists_cons_of_ne_nil (pieces_ne_nil c rest)
    unfold pieces at h
    split at h
    · rcases List.mem_cons.1 h with rfl | h
      · simp
      · exact ih h
    · next hd =>
      simp only [hq, List.mem_cons] at h ih
      rcases h with rfl | h
      · intro hc
        rcases List.mem_cons.1 hc with rfl | hc
        · exact hd rfl
        · exact ih (Or.inl rfl) hc
      · exact ih (Or.inr h)

theorem pieces_of_not_mem {c : Char} {p : List Char} (h : c ∉ p) : pieces c p = [p] := by
  induction p with
  | nil => rfl
  | cons d rest ih =>
    obtain ⟨hd, hrest⟩ := not_or.1 (mt List.mem_cons.2 h)
    rw [pieces, if_neg (Ne.symm hd), ih hrest]

theorem pieces_append_cons {c : Char} {p : List Char} (h : c ∉ p) (s : List Char) :
    pieces c (p ++ c :: s) = p :: pieces c s := by
  induction p with
  | nil => exact if_pos rfl
  | cons d rest ih =>
    obtain ⟨hd, hrest⟩ := not_or.1 (mt List.mem_cons.2 h)
    rw [List.cons_append, pieces, if_neg (Ne.symm hd), ih hrest]

/-- Texts that hold no `c` are found again between the occurrences of `c` that join them. -/
theorem pieces_intercalate {c : Char} {ps : List (List Char)} (hne : ps ≠ [])
    (h : ∀ p ∈ ps, c ∉ p) : pieces c (List.intercalate [c] ps) = ps := by
  induction ps with
  | nil => exact absurd rfl hne
  | cons p rest ih =>
    obtain ⟨hp, hrest⟩ := List.forall_mem_cons.1 h
    cases rest with
    | nil => simpa using pieces_of_not_mem hp
    | cons q qs =>
      rw [List.intercalate_cons_cons, List.append_assoc, List.singleton_append,
        pieces_append_cons hp, ih (List.cons_ne_nil q qs) hrest]

end Settlement.Text
