import Settlement.Linker.Basic
import Settlement.Proofs.Evidence.Verification
import Settlement.Proofs.WellFormed

/-!
# When linkages can be made

Two evidences make a linkage exactly if they are the two sides of one link and
both verify (`Linkage.create?_eq_ok_iff`); a linker signs it exactly if both
bases name the linker (`Linker.link_eq_ok_iff`).
-/

namespace Settlement

variable {B : Type}

namespace Linkage

/-- The linkage of two evidences of one link, given in either order, before the linker signs. -/
def ofSides (e1 e2 : LinkedEvidence B) : Linkage B :=
  if e1.body.isPrimary then join e1 e2 else join e2 e1

theorem ofSides_link {e1 e2 : LinkedEvidence B} (h : e1.body.link = e2.body.link) :
    (ofSides e1 e2).link = e1.body.link := by
  unfold ofSides
  split
  · rfl
  · exact h.symm

theorem linkerSignature_ofSides (e1 e2 : LinkedEvidence B) :
    (ofSides e1 e2).linkerSignature = none := by
  unfold ofSides
  split <;> rfl

theorem ofSides_comm {e1 e2 : LinkedEvidence B}
    (hside : e1.body.isPrimary ≠ e2.body.isPrimary) : ofSides e1 e2 = ofSides e2 e1 := by
  unfold ofSides
  cases h1 : e1.body.isPrimary with
  | true =>
      cases h2 : e2.body.isPrimary with
      | true => exact absurd (h1.trans h2.symm) hside
      | false => rfl
  | false =>
      cases h2 : e2.body.isPrimary with
      | true => rfl
      | false => exact absurd (h1.trans h2.symm) hside

variable [Base B] {S : Suite}

/-! ## The linker of a linkage -/

theorem sharedLinker_eq_ok_iff {l : Linkage B} {key : PublicKey} :
    l.sharedLinker = .ok key ↔
      Base.linker? l.link.base1 = some key ∧ Base.linker? l.link.base2 = some key := by
  unfold sharedLinker
  cases Base.linker? l.link.base1 with
  | none => simp
  | some first =>
      cases Base.linker? l.link.base2 with
      | none => simp
      | some second =>
          by_cases hsame : first = second
          · simp [hsame]
          · simp only [hsame, if_false, reduceCtorEq, Option.some.injEq, false_iff, not_and]
            exact fun hfirst hsecond => hsame (hfirst.trans hsecond.symm)

theorem linker?_eq_some_iff {l : Linkage B} {key : PublicKey} :
    l.linker? = some key ↔
      Base.linker? l.link.base1 = some key ∧ Base.linker? l.link.base2 = some key := by
  rw [← sharedLinker_eq_ok_iff, linker?]
  cases l.sharedLinker <;> simp [Except.toOption]

theorem sign_eq_ok_iff {l l' : Linkage B} {seed : Seed} :
    l.sign S seed = .ok l' ↔ l.linker? = some (S.publicKey seed) ∧
      l' = l.attach (S.sign seed (l.linkerMessage S)) := by
  unfold sign
  split
  · next h => simp [h, eq_comm]
  · next h => simp [h]

/-! ## Joining two sides -/

variable [DecidableEq B]

theorem joinSides?_eq_ok_iff {primary secondary : LinkedEvidence B} {o : Options}
    {l : Linkage B} : joinSides? S primary secondary o = .ok l ↔
      primary.body.link = secondary.body.link ∧ primary.verify S o.mergerCap o = .ok () ∧
        secondary.verify S o.mergerCap o = .ok () ∧ l = join primary secondary := by
  unfold joinSides?
  by_cases hlink : primary.body.link = secondary.body.link
  · simp only [hlink, ne_eq, not_true_eq_false, or_self, if_false, true_and]
    rw [check_bind_eq_ok_iff, check_bind_eq_ok_iff, mapError_eq_ok_iff, mapError_eq_ok_iff]
    exact and_congr_right fun _ => and_congr_right fun _ =>
      ⟨fun h => (Except.ok.inj h).symm, fun h => congrArg _ h.symm⟩
  · refine iff_of_false (fun h => ?_) (fun h => hlink h.1)
    simp only at h
    split at h
    · cases h
    · next hmics =>
      split at h
      · cases h
      · next hbases =>
        rw [not_or, Decidable.not_not, Decidable.not_not] at hbases
        exact hlink (Link.ext (Decidable.not_not.mp hmics) hbases.1 hbases.2)

/-- Two evidences make a linkage exactly if they are the two sides of one link and both verify. -/
theorem create?_eq_ok_iff {e1 e2 : LinkedEvidence B} {o : Options} {l : Linkage B} :
    create? S e1 e2 o = .ok l ↔
      e1.body.isPrimary ≠ e2.body.isPrimary ∧ e1.body.link = e2.body.link ∧
        e1.verify S o.mergerCap o = .ok () ∧ e2.verify S o.mergerCap o = .ok () ∧
        l = ofSides e1 e2 := by
  unfold create? ofSides
  by_cases hsides : e1.body.isPrimary = e2.body.isPrimary
  · rw [if_pos hsides]
    exact iff_of_false nofun fun h => h.1 hsides
  · rw [if_neg hsides]
    cases hprimary : e1.body.isPrimary with
    | true =>
        rw [if_pos rfl, if_pos rfl, joinSides?_eq_ok_iff]
        exact (and_iff_right (hprimary ▸ hsides)).symm
    | false =>
        rw [if_neg Bool.false_ne_true, if_neg Bool.false_ne_true, joinSides?_eq_ok_iff]
        constructor
        · rintro ⟨hlink, h2, h1, hl⟩
          exact ⟨hprimary ▸ hsides, hlink.symm, h1, h2, hl⟩
        · rintro ⟨-, hlink, h1, h2, hl⟩
          exact ⟨hlink.symm, h2, h1, hl⟩

end Linkage

namespace Linker

variable [Base B] {S : Suite} {k : Linker B}

/-! ## What a linker accepts and signs -/

theorem isAddressed_iff {e : LinkedEvidence B} : k.isAddressed S e = true ↔
    Base.linker? e.body.link.base1 = some (k.publicKey S) ∧
      Base.linker? e.body.link.base2 = some (k.publicKey S) := by
  unfold isAddressed
  rw [Bool.and_eq_true, decide_eq_true_eq, decide_eq_true_eq]

theorem examine_eq_ok_iff {e : LinkedEvidence B} {now : Mics} :
    k.examine S e now = .ok () ↔ k.isAddressed S e = true ∧
      e.verify S k.config.mergerCap (k.config.optionsAt now) = .ok () := by
  unfold examine
  cases k.isAddressed S e with
  | false => exact iff_of_false nofun fun h => Bool.false_ne_true h.1
  | true => exact mapError_eq_ok_iff.trans (and_iff_right rfl).symm

variable [DecidableEq B]

/-- The linkage that the linker signs for two sides. -/
def signedOfSides (S : Suite) (k : Linker B) (e1 e2 : LinkedEvidence B) : Linkage B :=
  let l := Linkage.ofSides e1 e2
  l.attach (S.sign k.seed (l.linkerMessage S))

theorem link_eq_ok_iff {e1 e2 : LinkedEvidence B} {now : Mics} {l : Linkage B} :
    k.link S e1 e2 now = .ok l ↔
      (k.isAddressed S e1 = true ∧ k.isAddressed S e2 = true) ∧
      (e1.body.isPrimary ≠ e2.body.isPrimary ∧ e1.body.link = e2.body.link) ∧
      (e1.verify S k.config.mergerCap (k.config.optionsAt now) = .ok () ∧
        e2.verify S k.config.mergerCap (k.config.optionsAt now) = .ok ()) ∧
      l = k.signedOfSides S e1 e2 := by
  unfold link
  by_cases haddressed : k.isAddressed S e1 = true ∧ k.isAddressed S e2 = true
  · rw [haddressed.1, haddressed.2]
    show (_ >>= _) = _ ↔ _
    rw [bind_eq_ok_iff]
    simp only [mapError_eq_ok_iff, Linkage.create?_eq_ok_iff, Linkage.sign_eq_ok_iff]
    constructor
    · rintro ⟨_, ⟨hsides, hlink, h1, h2, rfl⟩, -, hl⟩
      exact ⟨⟨trivial, trivial⟩, ⟨hsides, hlink⟩, ⟨h1, h2⟩, hl⟩
    · rintro ⟨-, ⟨hsides, hlink⟩, ⟨h1, h2⟩, hl⟩
      -- both evidences are addressed here, so the linkage names this linker
      have hlinker : (Linkage.ofSides e1 e2).linker? = some (S.publicKey k.seed) := by
        rw [Linkage.linker?_eq_some_iff, Linkage.ofSides_link hlink]
        exact isAddressed_iff.mp haddressed.1
      exact ⟨_, ⟨hsides, hlink, h1, h2, rfl⟩, hlinker, hl⟩
  · refine iff_of_false (fun h => haddressed ?_) (fun h => haddressed h.1)
    cases h1 : k.isAddressed S e1 with
    | false =>
        rw [h1] at h
        cases h
    | true =>
        cases h2 : k.isAddressed S e2 with
        | false =>
            rw [h1, h2] at h
            cases h
        | true => exact ⟨rfl, rfl⟩

/-- The order in which two sides are handed over does not matter. -/
theorem link_comm {e1 e2 : LinkedEvidence B} {now : Mics} {l : Linkage B} :
    k.link S e1 e2 now = .ok l ↔ k.link S e2 e1 now = .ok l := by
  have hswap : ∀ e1 e2 : LinkedEvidence B,
      k.link S e1 e2 now = .ok l → k.link S e2 e1 now = .ok l := by
    intro e1 e2 h
    obtain ⟨⟨haddressed1, haddressed2⟩, ⟨hside, hlink⟩, ⟨h1, h2⟩, rfl⟩ := link_eq_ok_iff.mp h
    refine link_eq_ok_iff.mpr
      ⟨⟨haddressed2, haddressed1⟩, ⟨hside.symm, hlink.symm⟩, ⟨h2, h1⟩, ?_⟩
    unfold signedOfSides
    rw [Linkage.ofSides_comm hside]
  exact ⟨hswap e1 e2, hswap e2 e1⟩

end Linker

end Settlement
