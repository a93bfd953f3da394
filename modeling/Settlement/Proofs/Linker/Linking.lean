import Settlement.Proofs.Linkage.Verification
import Settlement.Proofs.Linker.Matching

/-!
# Joining two sides

The two sides of a link are handed to a linker together, or come one after the
other. Together they are joined exactly if all four bases name the linker, both
verify and they are the two sides of one link; what the linker signs it then
accepts (`Linker.link_verifies`). One after the other they are joined exactly if
they would be together when the second one comes
(`Linker.submit_linked_iff_link`): the side that waits was verified before, but
joining verifies it anew, so neither its age nor a clock that went backwards
lets anything through.
-/

namespace Settlement

variable {B : Type} [Base B] {S : Suite}

namespace Linker

variable {k : Linker B}

/-! ## Both sides together -/

/-- Two evidences are addressed to a linker if their four bases name it. -/
theorem isAddressed_pair_iff {e1 e2 : LinkedEvidence B} :
    (k.isAddressed S e1 = true ∧ k.isAddressed S e2 = true) ↔
      ∀ b ∈ [e1.body.link.base1, e1.body.link.base2, e2.body.link.base1, e2.body.link.base2],
        Base.linker? b = some (k.publicKey S) := by
  simp only [isAddressed_iff, List.forall_mem_cons, List.not_mem_nil, false_imp_iff,
    implies_true, and_true, and_assoc]

section

variable [DecidableEq B]

/-- A linkage gives back the two sides that were handed over. -/
theorem evidence_of_link {e1 e2 : LinkedEvidence B} {now : Mics} {l : Linkage B}
    (h : k.link S e1 e2 now = .ok l) :
    l.evidence e1.body.isPrimary = e1 ∧ l.evidence e2.body.isPrimary = e2 := by
  obtain ⟨-, ⟨hside, hlink⟩, -, rfl⟩ := link_eq_ok_iff.mp h
  exact Linkage.evidence_ofSides hside hlink

/-- **A linker signs only what it then accepts.** Two evidences are joined exactly if all four bases
name the linker, just one of the two is primary, they are of one link, and both verify. The linkage
does not depend on their order, gives both of them back, and verifies on the linker's terms, by the
linker itself whatever its pool holds. -/
theorem link_verifies (hS : S.Signs) (k : Linker B) (e1 e2 : LinkedEvidence B) (now : Mics) :
    ((∃ l, k.link S e1 e2 now = .ok l) ↔
      (∀ b ∈ [e1.body.link.base1, e1.body.link.base2, e2.body.link.base1, e2.body.link.base2],
        Base.linker? b = some (k.publicKey S)) ∧
      e1.body.isPrimary ≠ e2.body.isPrimary ∧
      (e1.body.link.linkedMics = e2.body.link.linkedMics ∧
        e1.body.link.base1 = e2.body.link.base1 ∧ e1.body.link.base2 = e2.body.link.base2) ∧
      e1.verify S k.config.mergerCap (k.config.optionsAt now) = .ok () ∧
      e2.verify S k.config.mergerCap (k.config.optionsAt now) = .ok ()) ∧
    ∀ l, k.link S e1 e2 now = .ok l →
      k.link S e2 e1 now = .ok l ∧
      l.evidence true = (if e1.body.isPrimary then e1 else e2) ∧
      l.evidence false = (if e1.body.isPrimary then e2 else e1) ∧
      l.verify S (k.config.optionsAt now) = .ok () ∧
      ∀ pool, ({ k with pool := pool }.verify S l now).1 = .ok () := by
  constructor
  · constructor
    · rintro ⟨l, hl⟩
      obtain ⟨haddressed, ⟨hside, hlink⟩, hverify, -⟩ := link_eq_ok_iff.mp hl
      refine ⟨isAddressed_pair_iff.mp haddressed, hside, ?_, hverify⟩
      exact ⟨congrArg _ hlink, congrArg _ hlink, congrArg _ hlink⟩
    · rintro ⟨hlinkers, hside, ⟨hmics, hbase1, hbase2⟩, hverify⟩
      exact ⟨_, link_eq_ok_iff.mpr ⟨isAddressed_pair_iff.mpr hlinkers,
        ⟨hside, Link.ext hmics hbase1 hbase2⟩, hverify, rfl⟩⟩
  · intro l hl
    obtain ⟨hevidence1, hevidence2⟩ := evidence_of_link hl
    obtain ⟨⟨haddressed, -⟩, ⟨hside, hlink⟩, ⟨h1, h2⟩, hsigned⟩ := link_eq_ok_iff.mp hl
    have hverify : l.verify S (k.config.optionsAt now) = .ok () := by
      rw [hsigned]
      exact verify_signedOfSides hS haddressed hside hlink h1 h2
    have hevidences : l.evidence true = (if e1.body.isPrimary then e1 else e2) ∧
        l.evidence false = (if e1.body.isPrimary then e2 else e1) := by
      cases hprimary : e1.body.isPrimary with
      | true =>
          have hother : e2.body.isPrimary = false := by simpa [hprimary] using hside.symm
          rw [hprimary] at hevidence1
          rw [hother] at hevidence2
          exact ⟨hevidence1, hevidence2⟩
      | false =>
          have hother : e2.body.isPrimary = true := by simpa [hprimary] using hside.symm
          rw [hprimary] at hevidence1
          rw [hother] at hevidence2
          exact ⟨hevidence2, hevidence1⟩
    refine ⟨link_comm.mp hl, hevidences.1, hevidences.2, hverify, ?_⟩
    intro pool
    rw [fst_verify, mapError_eq_ok_iff]
    exact hverify

/-- Either side of the plain link is admitted by the linker that its bases name. -/
theorem examine_plainSide (isPrimary : Bool) (now : Mics) (h : now ∈ [3, 4]) :
    (new (.padded []) {}).examine Suite.plain (plainSide isPrimary) now = .ok () := by
  have hnow : now = 3 ∨ now = 4 := by simpa using h
  rcases hnow with rfl | rfl
  · cases isPrimary <;> decide +kernel
  · cases isPrimary <;> decide +kernel

/-- The secondary side is handed over first, and the linkage has both in their places. -/
theorem link_verifies_plainSide :
    Suite.plain.Signs ∧ ∃ l : Linkage Proof,
      (new (.padded []) {}).link Suite.plain (plainSide false) (plainSide true) 4 = .ok l ∧
      l.evidence true = plainSide true ∧ l.evidence false = plainSide false ∧
      l.verify Suite.plain (LinkerConfig.optionsAt {} 4) = .ok () := by
  obtain ⟨hiff, hlinked⟩ := link_verifies Suite.plain_signs (new (.padded []) {})
    (plainSide false) (plainSide true) 4
  obtain ⟨haddressed1, hverify1⟩ := examine_eq_ok_iff.mp (examine_plainSide false 4 (by simp))
  obtain ⟨haddressed2, hverify2⟩ := examine_eq_ok_iff.mp (examine_plainSide true 4 (by simp))
  obtain ⟨l, hl⟩ := hiff.mpr ⟨isAddressed_pair_iff.mp ⟨haddressed1, haddressed2⟩, by decide,
    ⟨rfl, rfl, rfl⟩, hverify1, hverify2⟩
  obtain ⟨-, hprimary, hsecondary, haccepted, -⟩ := hlinked l hl
  exact ⟨Suite.plain_signs, l, hl, hprimary, hsecondary, haccepted⟩

end

/-! ## One side after the other -/

/-- The linker after an evidence has begun to wait. -/
def holding (S : Suite) (k : Linker B) (e : LinkedEvidence B) (now : Mics) : Linker B :=
  let rest := k.dropExpired now
  { rest with pending := rest.pending.insert ⟨e.body.link.key S, e, now⟩ }

/-- It still waits when evidences are dropped before its time is over. -/
theorem find?_holding {e : LinkedEvidence B} {t1 t2 : Mics}
    (hintime : t2 < t1.plus k.config.pendingTtl) :
    ((k.holding S e t1).dropExpired t2).pending.find? (e.body.link.key S) =
      some ⟨e.body.link.key S, e, t1⟩ := by
  have hfresh : Waiting.isExpired k.config.pendingTtl t2 ⟨e.body.link.key S, e, t1⟩ = false :=
    Waiting.isExpired_eq_false_iff.mpr hintime
  simp [holding, dropExpired, PendingTable.dropExpired, PendingTable.insert, PendingTable.find?,
    hfresh]

variable [DecidableEq B]

/-- An admitted evidence waits if nothing does under the name of its link. -/
theorem submit_of_none {e : LinkedEvidence B} {now : Mics} (hexamine : k.examine S e now = .ok ())
    (hnone : k.pending.find? (e.body.link.key S) = none) :
    k.submit S e now = (.ok .pending, k.holding S e now) := by
  have hnone' : (k.dropExpired now).pending.find? (e.body.link.key S) = none := by
    refine List.find?_eq_none.mpr fun w hw => ?_
    have hw' := (PendingTable.mem_dropExpired.mp hw).1
    simpa using PendingTable.ne_key_of_find?_eq_none hnone hw'
  rw [submit_of_ok hexamine]
  unfold settle
  simp only [hnone']
  rfl

/-- What is answered that it waits does wait. -/
theorem submit_of_pending {e : LinkedEvidence B} {now : Mics}
    (h : (k.submit S e now).1 = .ok .pending) :
    k.submit S e now = (.ok .pending, k.holding S e now) := by
  cases hexamine : k.examine S e now with
  | error fault =>
      rw [submit_of_error hexamine] at h
      cases h
  | ok _ =>
      rw [submit_of_ok hexamine] at h ⊢
      rcases settle_cases (S := S) (k.dropExpired now) e now with
        ⟨-, hsettle⟩ | ⟨w, -, -, hsettle⟩ | ⟨w, -, -, hsettle⟩
      · rw [hsettle]
        rfl
      · rw [hsettle] at h
        by_cases hsame : w.evidence = e
        · simp [hsame] at h
        · simp [hsame] at h
      · rw [hsettle] at h
        cases hlink : (k.dropExpired now).link S w.evidence e now with
        | error fault => simp [hlink, Except.map] at h
        | ok l => simp [hlink, Except.map] at h

theorem fst_settle_of_find? {e : LinkedEvidence B} {w : Waiting B} {now : Mics}
    (hfind : k.pending.find? (e.body.link.key S) = some w)
    (hside : w.evidence.body.isPrimary ≠ e.body.isPrimary) :
    (k.settle S e now).1 = (k.link S w.evidence e now).map .linked := by
  unfold settle
  simp only [hfind, hside, if_false]

/-- The second side of a link is examined, and then joined with the first one if that is still
there. -/
theorem fst_submit_holding {e1 e2 : LinkedEvidence B} {t1 t2 : Mics}
    (hside : e1.body.isPrimary ≠ e2.body.isPrimary) (hlink : e1.body.link = e2.body.link)
    (hintime : t2 < t1.plus k.config.pendingTtl) (hexamine : k.examine S e2 t2 = .ok ()) :
    ((k.holding S e1 t1).submit S e2 t2).1 = (k.link S e1 e2 t2).map .linked := by
  -- examination and joining look at the seed and the parameters alone
  have hexamine' : (k.holding S e1 t1).examine S e2 t2 = .ok () := hexamine
  have hfind : ((k.holding S e1 t1).dropExpired t2).pending.find? (e2.body.link.key S) =
      some ⟨e1.body.link.key S, e1, t1⟩ := by
    rw [← hlink]
    exact find?_holding hintime
  rw [submit_of_ok hexamine']
  exact fst_settle_of_find? hfind hside

/-- The second side of a link meets the first one, if that came in time and both verify when the
second one comes. -/
theorem submit_pair {e1 e2 : LinkedEvidence B} {t1 t2 : Mics}
    (hexamine1 : k.examine S e1 t1 = .ok ()) (hagain : k.examine S e1 t2 = .ok ())
    (hexamine2 : k.examine S e2 t2 = .ok ())
    (hside : e1.body.isPrimary ≠ e2.body.isPrimary) (hlink : e1.body.link = e2.body.link)
    (hnone : k.pending.find? (e1.body.link.key S) = none)
    (hintime : t2 < t1.plus k.config.pendingTtl) :
    (k.submit S e1 t1).1 = .ok .pending ∧
      ((k.submit S e1 t1).2.submit S e2 t2).1 = .ok (.linked (k.signedOfSides S e1 e2)) := by
  have hfirst := submit_of_none hexamine1 hnone
  have hjoined : k.link S e1 e2 t2 = .ok (k.signedOfSides S e1 e2) := by
    obtain ⟨haddressed1, hverify1⟩ := examine_eq_ok_iff.mp hagain
    obtain ⟨haddressed2, hverify2⟩ := examine_eq_ok_iff.mp hexamine2
    exact link_eq_ok_iff.mpr
      ⟨⟨haddressed1, haddressed2⟩, ⟨hside, hlink⟩, ⟨hverify1, hverify2⟩, rfl⟩
  refine ⟨congrArg Prod.fst hfirst, ?_⟩
  rw [hfirst, fst_submit_holding hside hlink hintime hexamine2, hjoined]
  rfl

/-- The second side of a link is accepted exactly if it can be joined with the first one when it
comes, and is then answered by their linkage. -/
theorem submit_second_iff {e1 e2 : LinkedEvidence B} {t1 t2 : Mics}
    (hside : e1.body.isPrimary ≠ e2.body.isPrimary) (hlink : e1.body.link = e2.body.link)
    (hintime : t2 < t1.plus k.config.pendingTtl) (hpending : (k.submit S e1 t1).1 = .ok .pending)
    {outcome : SubmitOutcome B} :
    ((k.submit S e1 t1).2.submit S e2 t2).1 = .ok outcome ↔
      ∃ l, outcome = .linked l ∧ k.link S e1 e2 t2 = .ok l := by
  rw [submit_of_pending hpending]
  cases hexamine : k.examine S e2 t2 with
  | error fault =>
      have hexamine' : (k.holding S e1 t1).examine S e2 t2 = .error fault := hexamine
      rw [submit_of_error hexamine']
      constructor
      · intro h
        cases h
      · rintro ⟨l, -, hl⟩
        obtain ⟨⟨-, haddressed⟩, -, ⟨-, hverify⟩, -⟩ := link_eq_ok_iff.mp hl
        cases hexamine.symm.trans (examine_eq_ok_iff.mpr ⟨haddressed, hverify⟩)
  | ok _ =>
      rw [fst_submit_holding hside hlink hintime hexamine]
      cases k.link S e1 e2 t2 with
      | error fault => simp [Except.map]
      | ok l => simp [Except.map, eq_comm]

theorem submit_second_linked_iff {e1 e2 : LinkedEvidence B} {t1 t2 : Mics}
    (hside : e1.body.isPrimary ≠ e2.body.isPrimary) (hlink : e1.body.link = e2.body.link)
    (hintime : t2 < t1.plus k.config.pendingTtl) (hpending : (k.submit S e1 t1).1 = .ok .pending)
    {l : Linkage B} :
    ((k.submit S e1 t1).2.submit S e2 t2).1 = .ok (.linked l) ↔ k.link S e1 e2 t2 = .ok l := by
  rw [submit_second_iff hside hlink hintime hpending]
  constructor
  · rintro ⟨l', hl', h⟩
    cases hl'
    exact h
  · intro h
    exact ⟨l, rfl, h⟩

/-- **One side after the other is joined as both together are.** Let the one side of a link have
been answered that it waits, and the other one come next and in time, in whichever order. It is
answered by a linkage exactly if the linker would make that linkage of both sides at this instant,
it is accepted in no other way, and the order leaves no trace in the linkage. -/
theorem submit_linked_iff_link (k : Linker B) {primary secondary first second : LinkedEvidence B}
    {t1 t2 : Mics} (hprimary : primary.body.isPrimary = true)
    (hsecondary : secondary.body.isPrimary = false)
    (hmics : primary.body.link.linkedMics = secondary.body.link.linkedMics)
    (hbase1 : primary.body.link.base1 = secondary.body.link.base1)
    (hbase2 : primary.body.link.base2 = secondary.body.link.base2)
    (horder : first = primary ∧ second = secondary ∨ first = secondary ∧ second = primary)
    (hintime : t2 < t1.plus k.config.pendingTtl)
    (hpending : (k.submit S first t1).1 = .ok .pending) :
    (∀ l, ((k.submit S first t1).2.submit S second t2).1 = .ok (.linked l) ↔
      k.link S primary secondary t2 = .ok l) ∧
    ((∃ outcome, ((k.submit S first t1).2.submit S second t2).1 = .ok outcome) ↔
      ∃ l, k.link S primary secondary t2 = .ok l) ∧
    ∀ t1', t2 < t1'.plus k.config.pendingTtl → (k.submit S second t1').1 = .ok .pending →
      ∀ l, ((k.submit S second t1').2.submit S first t2).1 = .ok (.linked l) ↔
        ((k.submit S first t1).2.submit S second t2).1 = .ok (.linked l) := by
  have hsides : primary.body.isPrimary ≠ secondary.body.isPrimary := by
    rw [hprimary, hsecondary]
    decide
  have hlinks : primary.body.link = secondary.body.link := Link.ext hmics hbase1 hbase2
  have hside : first.body.isPrimary ≠ second.body.isPrimary := by
    rcases horder with ⟨rfl, rfl⟩ | ⟨rfl, rfl⟩
    · exact hsides
    · exact hsides.symm
  have hlink : first.body.link = second.body.link := by
    rcases horder with ⟨rfl, rfl⟩ | ⟨rfl, rfl⟩
    · exact hlinks
    · exact hlinks.symm
  have hdirect : ∀ l, k.link S first second t2 = .ok l ↔
      k.link S primary secondary t2 = .ok l := by
    intro l
    rcases horder with ⟨rfl, rfl⟩ | ⟨rfl, rfl⟩
    · exact Iff.rfl
    · exact link_comm
  refine ⟨fun l => ?_, ?_, fun t1' hintime' hpending' l => ?_⟩
  · exact (submit_second_linked_iff hside hlink hintime hpending).trans (hdirect l)
  · simp only [submit_second_iff hside hlink hintime hpending, hdirect]
    constructor
    · rintro ⟨-, l, -, hl⟩
      exact ⟨l, hl⟩
    · rintro ⟨l, hl⟩
      exact ⟨_, l, rfl, hl⟩
  · rw [submit_second_linked_iff hside hlink hintime hpending,
      submit_second_linked_iff hside.symm hlink.symm hintime' hpending', link_comm]

/-- The primary side comes second, at an instant before that of the first one. -/
theorem submit_linked_iff_link_plainSide :
    (3 : Mics) < Mics.plus 4 (LinkerConfig.pendingTtl {}) ∧
    ((new (.padded []) {}).submit Suite.plain (plainSide false) 4).1 = .ok .pending ∧
    ∃ l, (((new (.padded []) {}).submit Suite.plain (plainSide false) 4).2.submit Suite.plain
        (plainSide true) 3).1 = .ok (.linked l) ∧
      (new (.padded []) {}).link Suite.plain (plainSide true) (plainSide false) 3 = .ok l := by
  have hintime : (3 : Mics) < Mics.plus 4 (LinkerConfig.pendingTtl {}) := by decide
  have hpending : ((new (.padded []) {}).submit Suite.plain (plainSide false) 4).1 =
      .ok .pending :=
    congrArg Prod.fst (submit_of_none (examine_plainSide false 4 (by simp)) rfl)
  obtain ⟨hlinked, -⟩ := submit_linked_iff_link (new (.padded []) {})
    (show (plainSide true).body.isPrimary = true from rfl)
    (show (plainSide false).body.isPrimary = false from rfl) rfl rfl rfl (.inr ⟨rfl, rfl⟩) hintime
    hpending
  obtain ⟨haddressed1, hverify1⟩ := examine_eq_ok_iff.mp (examine_plainSide true 3 (by simp))
  obtain ⟨haddressed2, hverify2⟩ := examine_eq_ok_iff.mp (examine_plainSide false 3 (by simp))
  have hl : (new (.padded []) {}).link Suite.plain (plainSide true) (plainSide false) 3 =
      .ok ((new (.padded []) {}).signedOfSides Suite.plain (plainSide true) (plainSide false)) :=
    link_eq_ok_iff.mpr ⟨⟨haddressed1, haddressed2⟩, ⟨by decide, rfl⟩, ⟨hverify1, hverify2⟩, rfl⟩
  exact ⟨hintime, hpending, _, (hlinked _).mpr hl, hl⟩

end Linker

end Settlement
