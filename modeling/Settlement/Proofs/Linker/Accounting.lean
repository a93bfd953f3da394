import Mathlib.Data.List.Induction
import Settlement.Proofs.Linker.History

/-!
# Accounts of the evidences that wait

Nothing is in the table of a linker but what a submission has put there, and
every submission that was answered that it waits is accounted for: it still
waits, it has been dropped after its time, or it has been joined, once
(`Linker.run_accounts`). Submissions are told apart by their positions in the
run, since the same evidence may be submitted, dropped and submitted again.
-/

namespace Settlement

variable {B : Type}

variable [Base B] [Stored B] {S : Suite}

namespace Linker

variable {m : Moment B} {now : Mics}

/-- What a sweep leaves and what it drops is all there was. -/
theorem size_dropExpired (hsweep : m.sweep? S = some now) :
    (m.linker.dropExpired now).pendingCount + (m.dropped S).length = m.linker.pendingCount := by
  unfold Moment.dropped
  rw [hsweep, Nat.add_comm]
  exact (List.length_eq_length_filter_add _).symm

/-- A purge answers with the number of the entries that it drops. -/
theorem fst_purge (hcall : m.call = .purge now) :
    (m.linker.purge now).1 = (m.dropped S).length := by
  have hsweep : m.sweep? S = some now := by simp [Moment.sweep?, hcall]
  have hsize := size_dropExpired hsweep
  show m.linker.pendingCount - (m.linker.dropExpired now).pendingCount = _
  omega

end Linker

variable [DecidableEq B]

/-! ## Positions in a run -/

/-- The evidence that was submitted at position `j` began to wait there, and no call between that
position and position `n` has dropped or joined it. -/
structure Waits (S : Suite) (h : List (Moment B)) (j n : Nat) (w : Waiting B) : Prop where
  lt : j < n
  begins : ∃ m, h[j]? = some m ∧ m.Begins S w
  stays : ∀ i m, j < i → i < n → h[i]? = some m → ¬ m.Drops S w ∧ ¬ m.Joins S w

/-- The call at position `i` submits the other side of the evidence that has waited since position
`j`, and not too long, and is answered by a linkage of these two. -/
def Consumes (S : Suite) (h : List (Moment B)) (i j : Nat) : Prop :=
  ∃ m e now l w, h[i]? = some m ∧ m.Accepts S e now (.linked l) ∧ Waits S h j i w ∧
    now < w.received.plus m.linker.config.pendingTtl ∧
    w.evidence.body.isPrimary ≠ e.body.isPrimary ∧
    l.evidence w.evidence.body.isPrimary = w.evidence ∧ l.evidence e.body.isPrimary = e

section

variable {h : List (Moment B)} {m : Moment B} {i i' j n : Nat} {w : Waiting B}

theorem waits_take : Waits S (h.take n) j n w ↔ Waits S h j n w := by
  have hget : ∀ i, i < n → (h.take n)[i]? = h[i]? := fun i hi => List.getElem?_take_of_lt hi
  constructor
  · rintro ⟨hlt, ⟨m, hm, hbegins⟩, hstays⟩
    refine ⟨hlt, ⟨m, (hget j hlt).symm.trans hm, hbegins⟩, fun i m hji hin hm => ?_⟩
    exact hstays i m hji hin ((hget i hin).trans hm)
  · rintro ⟨hlt, ⟨m, hm, hbegins⟩, hstays⟩
    refine ⟨hlt, ⟨m, (hget j hlt).trans hm, hbegins⟩, fun i m hji hin hm => ?_⟩
    exact hstays i m hji hin ((hget i hin).symm.trans hm)

/-- After one more call an evidence waits if it begins to, or did and is left alone. -/
theorem waits_concat : Waits S (h ++ [m]) j (h.length + 1) w ↔
    (j = h.length ∧ m.Begins S w) ∨
      (Waits S h j h.length w ∧ ¬ m.Drops S w ∧ ¬ m.Joins S w) := by
  have hold : ∀ i, i < h.length → (h ++ [m])[i]? = h[i]? := fun i hi =>
    List.getElem?_append_left hi
  have hnew : (h ++ [m])[h.length]? = some m := by simp
  constructor
  · rintro ⟨hlt, ⟨m', hm', hbegins⟩, hstays⟩
    by_cases hj : j = h.length
    · rw [hj, hnew] at hm'
      exact .inl ⟨hj, Option.some.inj hm' ▸ hbegins⟩
    · have hj' : j < h.length := by omega
      refine .inr ⟨⟨hj', ⟨m', (hold j hj').symm.trans hm', hbegins⟩, fun i m hji hi hm => ?_⟩,
        hstays h.length m hj' (by omega) hnew⟩
      exact hstays i m hji (by omega) ((hold i hi).trans hm)
  · rintro (⟨rfl, hbegins⟩ | ⟨⟨hlt, ⟨m', hm', hbegins⟩, hstays⟩, hleft⟩)
    · exact ⟨by omega, ⟨m, hnew, hbegins⟩, fun i m hji hi => by omega⟩
    · refine ⟨by omega, ⟨m', (hold j hlt).trans hm', hbegins⟩, fun i m hji hi hm => ?_⟩
      by_cases hi' : i = h.length
      · rw [hi', hnew] at hm
        exact Option.some.inj hm ▸ hleft
      · have hi'' : i < h.length := by omega
        exact hstays i m hji hi'' ((hold i hi'').symm.trans hm)

/-- What has been joined does not wait any more. -/
theorem Consumes.not_lt (hi : Consumes S h i j) (hi' : Consumes S h i' j) : ¬ i < i' := by
  intro hlt
  obtain ⟨m, e, now, l, w, hm, haccepts, hwaits, -, hside, hw, he⟩ := hi
  obtain ⟨-, -, -, -, w', -, -, hwaits', -⟩ := hi'
  obtain ⟨m1, hm1, hbegins⟩ := hwaits.begins
  obtain ⟨m2, hm2, hbegins'⟩ := hwaits'.begins
  obtain rfl : m1 = m2 := Option.some.inj (hm1.symm.trans hm2)
  obtain rfl : w = w' := hbegins.unique hbegins'
  exact (hwaits'.stays i m hwaits.lt hlt hm).2 ⟨e, now, l, haccepts, hside, hw, he⟩

/-- Of an evidence that has been dropped no linkage is made. -/
theorem not_consumes_of_drops {m' : Moment B}
    (hjn : j < n) (hni : n < i) (hm : h[j]? = some m) (hm' : h[n]? = some m')
    (hdrops : ∀ w, m.Begins S w → m'.Drops S w) : ¬ Consumes S h i j := by
  rintro ⟨-, -, -, -, w, -, -, hwaits, -⟩
  obtain ⟨m1, hm1, hbegins⟩ := hwaits.begins
  obtain rfl : m = m1 := Option.some.inj (hm.symm.trans hm1)
  exact (hwaits.stays n m' hjn hni hm').1 (hdrops w hbegins)

end

namespace Linker

/-! ## What one call adds and takes -/

variable {m : Moment B}

variable [LinkableBase B] {contents : Set Octets}

/-- The table grows by what begins to wait, and shrinks by what is joined or dropped. -/
theorem Sound.size_next (hk : m.linker.Sound S contents) (heffect : m.Effect S) :
    (m.next S).pendingCount + (m.outcome? S).toList.countP SubmitOutcome.isLinked +
        (m.dropped S).length =
      m.linker.pendingCount + (m.outcome? S).toList.countP SubmitOutcome.isPending := by
  cases heffect with
  | idle hsweep houtcome hnext =>
      have hdropped : m.dropped S = [] := by simp [Moment.dropped, hsweep]
      simp [pendingCount, hnext, houtcome, hdropped]
  | swept now hsweep houtcome hnext =>
      have hsize := size_dropExpired hsweep
      simp only [pendingCount, hnext, houtcome] at hsize ⊢
      simpa using hsize
  | began w hsweep hbegins hnone hnext =>
      have hsize := size_dropExpired hsweep
      have hinsert : ((m.linker.dropExpired w.received).pending.insert w).size =
          (m.linker.dropExpired w.received).pending.size + 1 := rfl
      simp only [pendingCount, hnext, hinsert, hbegins.1.outcome?_eq, Option.toList_some,
        List.countP_singleton, SubmitOutcome.isLinked, SubmitOutcome.isPending] at hsize ⊢
      simp
      omega
  | stayed e now outcome w hsweep haccepts houtcome hw hbody hnext =>
      have hsize := size_dropExpired hsweep
      simp only [pendingCount, hnext, haccepts.outcome?_eq] at hsize ⊢
      rcases houtcome with rfl | rfl <;> simpa [SubmitOutcome.isLinked, SubmitOutcome.isPending]
  | joined w now hsweep hjoins hw hnext =>
      have hsize := size_dropExpired hsweep
      have herase := (hk.dropExpired now).distinct.size_erase hw
      obtain ⟨e, _, l, haccepts, -⟩ := hjoins
      simp only [pendingCount, hnext, haccepts.outcome?_eq, Option.toList_some,
        List.countP_singleton, SubmitOutcome.isLinked, SubmitOutcome.isPending] at hsize ⊢
      simp
      omega

/-! ## What a run accounts for -/

variable {k : Linker B} {calls : List (Call B)}

/-- The entries are those of the submissions that still wait, one entry for each. -/
theorem waits_run (hk : k.Sound S contents) (hempty : k.pending.entries = [])
    (hfree : S.CollisionFree contents) (hcalls : ∀ c ∈ calls, c.Known S contents)
    (w : Waiting B) :
    (w ∈ (k.run S calls).pending.entries ↔
      ∃ j, Waits S (k.history S calls) j (k.history S calls).length w) ∧
    ∀ j j', Waits S (k.history S calls) j (k.history S calls).length w →
      Waits S (k.history S calls) j' (k.history S calls).length w → j = j' := by
  induction calls using List.reverseRecOn with
  | nil =>
      refine ⟨⟨fun hw => ?_, fun ⟨j, hj⟩ => absurd hj.lt (Nat.not_lt_zero j)⟩,
        fun j _ hj => absurd hj.lt (Nat.not_lt_zero j)⟩
      rw [show (k.run S []).pending.entries = [] from hempty] at hw
      cases hw
  | append_singleton calls c ih =>
      have hprefix : ∀ c ∈ calls, c.Known S contents := fun c hc =>
        hcalls c (List.mem_append_left _ hc)
      have hc : c.Known S contents := hcalls c (by simp)
      obtain ⟨hmem, hunique⟩ := ih hprefix
      have hsound : (k.run S calls).Sound S contents := hk.run hprefix
      have heffect : Moment.Effect S ⟨k.run S calls, c⟩ := hsound.effect hfree hc
      rw [run_concat, history_concat, List.length_append, List.length_singleton]
      simp only [waits_concat]
      constructor
      · show w ∈ (Moment.next S ⟨k.run S calls, c⟩).pending.entries ↔ _
        rw [Sound.mem_next_iff hsound heffect, hmem]
        constructor
        · rintro (⟨⟨j, hj⟩, hleft⟩ | hbegins)
          · exact ⟨j, .inr ⟨hj, hleft⟩⟩
          · exact ⟨_, .inl ⟨rfl, hbegins⟩⟩
        · rintro ⟨j, ⟨-, hbegins⟩ | ⟨hj, hleft⟩⟩
          · exact .inr hbegins
          · exact .inl ⟨⟨j, hj⟩, hleft⟩
      · rintro j j' (⟨rfl, hbegins⟩ | ⟨hj, hleft⟩) (⟨rfl, hbegins'⟩ | ⟨hj', hleft'⟩)
        · rfl
        · exact absurd (heffect.drops_of_begins hbegins (hmem.mpr ⟨j', hj'⟩)) hleft'.1
        · exact absurd (heffect.drops_of_begins hbegins' (hmem.mpr ⟨j, hj⟩)) hleft.1
        · exact hunique j j' hj hj'

/-- The size of the table after a run. -/
theorem size_run (hk : k.Sound S contents) (hempty : k.pending.entries = [])
    (hfree : S.CollisionFree contents) (hcalls : ∀ c ∈ calls, c.Known S contents) :
    (k.run S calls).pendingCount +
        ((k.history S calls).filterMap (·.outcome? S)).countP SubmitOutcome.isLinked +
        ((k.history S calls).flatMap (·.dropped S)).length =
      ((k.history S calls).filterMap (·.outcome? S)).countP SubmitOutcome.isPending := by
  induction calls using List.reverseRecOn with
  | nil => simp [history, run, pendingCount, PendingTable.size, hempty]
  | append_singleton calls c ih =>
      have hprefix : ∀ c ∈ calls, c.Known S contents := fun c hc =>
        hcalls c (List.mem_append_left _ hc)
      have hc : c.Known S contents := hcalls c (by simp)
      have hsound : (k.run S calls).Sound S contents := hk.run hprefix
      have hstep := Sound.size_next (m := ⟨k.run S calls, c⟩) hsound (hsound.effect hfree hc)
      have hlast : ([⟨k.run S calls, c⟩] : List (Moment B)).filterMap (·.outcome? S) =
          (Moment.outcome? S ⟨k.run S calls, c⟩).toList := by
        cases h : Moment.outcome? S ⟨k.run S calls, c⟩ <;> simp [h]
      have hbefore := ih hprefix
      rw [run_concat, history_concat]
      simp only [List.filterMap_append, List.flatMap_append, List.countP_append,
        List.length_append, List.flatMap_singleton, hlast]
      simp only [Moment.next] at hstep
      omega

/-- A linkage is of one earlier submission that was waiting. -/
theorem exists_consumes (hk : k.Sound S contents) (hempty : k.pending.entries = [])
    (hfree : S.CollisionFree contents) (hcalls : ∀ c ∈ calls, c.Known S contents) {i : Nat}
    {m : Moment B} (hm : (k.history S calls)[i]? = some m) {e : LinkedEvidence B} {now : Mics}
    {l : Linkage B} (haccepts : m.Accepts S e now (.linked l)) :
    ∃! j, Consumes S (k.history S calls) i j := by
  obtain ⟨hsound, hcall⟩ := sound_of_mem_history hk hcalls (List.mem_of_getElem? hm)
  have hlinker : m.linker = k.run S (calls.take i) := linker_of_history hm
  -- up to this call the run accounts for the table that the evidence is matched with
  have hwaits : ∀ w, (w ∈ m.linker.pending.entries ↔ ∃ j, Waits S (k.history S calls) j i w) ∧
      ∀ j j', Waits S (k.history S calls) j i w → Waits S (k.history S calls) j' i w → j = j' := by
    intro w
    have hlength : (k.history S (calls.take i)).length = i := by
      have hi : i < (k.history S calls).length := (List.getElem?_eq_some_iff.mp hm).1
      rw [length_history] at hi ⊢
      rw [List.length_take]
      omega
    have hprefix : ∀ c ∈ calls.take i, c.Known S contents := fun c hc =>
      hcalls c (List.mem_of_mem_take hc)
    have hrun := waits_run hk hempty hfree hprefix w
    rw [hlength, ← take_history, ← hlinker] at hrun
    simpa only [waits_take] using hrun
  obtain ⟨w, hw, hjoins⟩ := (hsound.effect hfree hcall).exists_joins haccepts
  obtain ⟨hw, hfresh⟩ := PendingTable.mem_dropExpired.mp hw
  obtain ⟨j, hj⟩ := (hwaits w).1.mp hw
  refine ⟨j, ?_, ?_⟩
  · obtain ⟨e', t', l', haccepts', hside, hwaiting, hsubmitted⟩ := hjoins
    obtain ⟨rfl, rfl, -⟩ := haccepts.unique haccepts'
    exact ⟨m, e, _, l', w, hm, haccepts', hj, hfresh, hside, hwaiting, hsubmitted⟩
  · rintro j' ⟨m', e', t', l', w', hm', haccepts', hj', -, hside', hwaiting', hsubmitted'⟩
    obtain rfl : m = m' := Option.some.inj (hm.symm.trans hm')
    have hw' : w' ∈ m.linker.pending.entries := (hwaits w').1.mpr ⟨j', hj'⟩
    obtain rfl := hsound.eq_of_joins hw' hw
      ⟨e', t', l', haccepts', hside', hwaiting', hsubmitted'⟩ hjoins
    exact (hwaits w').2 j' j hj' hj

/-- **The table accounts for every accepted evidence.** After any calls at any instants, as many
evidences wait as were answered that they do, less the linkages and less what was dropped after its
time, by a purge, which answers with their number, or by an admitted submission before it is
matched. The entries are those of the submissions that no later call has dropped or joined. Each
linkage is of just one submission that was still waiting, and no submission is in two linkages.
Duplicates and conflicts leave what waits as it is. -/
theorem run_accounts (seed : Seed) (config : LinkerConfig) {calls : List (Call B)}
    (hcalls : ∀ c ∈ calls, c.WellFormed S)
    (hfree : S.CollisionFree (Call.allHashed S calls)) :
    let k := (new seed config : Linker B).run S calls
    let h := (new seed config : Linker B).history S calls
    (k.pendingCount : Int) = (h.filterMap (·.outcome? S)).countP SubmitOutcome.isPending -
        (h.filterMap (·.outcome? S)).countP SubmitOutcome.isLinked -
        (h.flatMap (·.dropped S)).length ∧
    (∀ m ∈ h, ∀ now, m.call = .purge now → (m.linker.purge now).1 = (m.dropped S).length) ∧
    (∀ w, w ∈ k.pending.entries ↔ ∃! j, Waits S h j h.length w) ∧
    (∀ i m, h[i]? = some m → ∀ e now l, m.Accepts S e now (.linked l) → ∃! j, Consumes S h i j) ∧
    (∀ i i' j, Consumes S h i j → Consumes S h i' j → i = i') ∧
    ∀ m ∈ h, ∀ e now outcome, m.Accepts S e now outcome →
      outcome = .duplicate ∨ outcome = .conflict →
      (m.next S).pending = (m.linker.dropExpired now).pending ∧
        ∃ w ∈ (m.next S).pending.entries, w.evidence.body = e.body := by
  intro k h
  have hnew : (new seed config : Linker B).Sound S (Call.allHashed S calls) := sound_new seed config
  have hknown : ∀ c ∈ calls, c.Known S (Call.allHashed S calls) := fun c hc =>
    ⟨hcalls c hc, fun o ho => ⟨c, hc, ho⟩⟩
  refine ⟨?_, fun m _ now => fst_purge, fun w => ?_, fun i m hm e now l => ?_,
    fun i i' j hi hi' => ?_, fun m hm e now outcome => ?_⟩
  · have hsize : k.pendingCount + (h.filterMap (·.outcome? S)).countP SubmitOutcome.isLinked +
        (h.flatMap (·.dropped S)).length =
          (h.filterMap (·.outcome? S)).countP SubmitOutcome.isPending :=
      size_run hnew rfl hfree hknown
    omega
  · obtain ⟨hmem, hunique⟩ := waits_run hnew rfl hfree hknown w
    rw [hmem]
    exact ⟨fun ⟨j, hj⟩ => ⟨j, hj, fun j' hj' => hunique j' j hj' hj⟩, fun ⟨j, hj, _⟩ => ⟨j, hj⟩⟩
  · exact exists_consumes hnew rfl hfree hknown hm
  · have hlt := hi.not_lt hi'
    have hgt := hi'.not_lt hi
    omega
  · obtain ⟨hsound, hcall⟩ := sound_of_mem_history hnew hknown hm
    exact (hsound.effect hfree hcall).stays

/-- The primary side of the plain link comes twice and is purged as soon as it has waited for one
microsecond. Then it comes again, stays when another purge comes too early for it, and is met by the
secondary side. -/
def plainCalls : List (Call Proof) :=
  [.receive (.evidence (plainSide true)) 3, .receive (.evidence (plainSide true)) 3, .purge 4,
    .receive (.evidence (plainSide true)) 4, .purge 4, .receive (.evidence (plainSide false)) 4]

/-- The linker to which they come. -/
def hastyLinker : Linker Proof := new (.padded []) { pendingTtl := 1 }

theorem wellFormed_plainCalls : ∀ c ∈ plainCalls, c.WellFormed Suite.plain := by
  simp only [plainCalls, List.forall_mem_cons, List.not_mem_nil, false_imp_iff, implies_true,
    and_true]
  exact ⟨wellFormed_plainSide true, wellFormed_plainSide true, trivial,
    wellFormed_plainSide true, trivial, wellFormed_plainSide false⟩

theorem collisionFree_plainCalls :
    Suite.plain.CollisionFree (Call.allHashed Suite.plain plainCalls) := by
  apply collisionFree_plainSides
  simp only [plainCalls, List.forall_mem_cons, List.not_mem_nil, false_imp_iff, implies_true,
    and_true]
  exact ⟨hashed_plainSide true 3, hashed_plainSide true 3, List.nil_subset _,
    hashed_plainSide true 4, List.nil_subset _, hashed_plainSide false 4⟩

/-- What has waited for one microsecond is dropped, what has come in the same one is not. The
linkage at the end is of one submission, which is not the first one, and nothing waits any more. -/
theorem run_accounts_plainCalls :
    ((∀ c ∈ plainCalls, c.WellFormed Suite.plain) ∧
      Suite.plain.CollisionFree (Call.allHashed Suite.plain plainCalls)) ∧
    (((hastyLinker.run Suite.plain (plainCalls.take 2)).purge 4).1 = 1 ∧
      ((hastyLinker.run Suite.plain (plainCalls.take 4)).purge 4).1 = 0) ∧
    (hastyLinker.run Suite.plain plainCalls).pendingCount = 0 ∧
    (∃! j, Consumes Suite.plain (hastyLinker.history Suite.plain plainCalls) 5 j) ∧
    ¬ Consumes Suite.plain (hastyLinker.history Suite.plain plainCalls) 5 0 := by
  obtain ⟨hcount, hpurge, -, hlinked, -⟩ :=
    run_accounts (.padded []) { pendingTtl := 1 } wellFormed_plainCalls collisionFree_plainCalls
  have hcounts : ((hastyLinker.history Suite.plain plainCalls).filterMap
        (·.outcome? Suite.plain)).countP SubmitOutcome.isPending = 2 ∧
      ((hastyLinker.history Suite.plain plainCalls).filterMap
        (·.outcome? Suite.plain)).countP SubmitOutcome.isLinked = 1 ∧
      ((hastyLinker.history Suite.plain plainCalls).flatMap
        (·.dropped Suite.plain)).length = 1 := by
    decide +kernel
  have hanswer : ∀ i, plainCalls[i]? = some (.purge 4) →
      ((hastyLinker.run Suite.plain (plainCalls.take i)).purge 4).1 =
        (Moment.dropped Suite.plain
          ⟨hastyLinker.run Suite.plain (plainCalls.take i), .purge 4⟩).length := by
    intro i hi
    have hmoment : (hastyLinker.history Suite.plain plainCalls)[i]? =
        some ⟨hastyLinker.run Suite.plain (plainCalls.take i), .purge 4⟩ := by
      rw [getElem?_history, hi, Option.map_some]
    exact hpurge _ (List.mem_of_getElem? hmoment) 4 rfl
  refine ⟨⟨wellFormed_plainCalls, collisionFree_plainCalls⟩, ⟨?_, ?_⟩, ?_, ?_, ?_⟩
  · rw [hanswer 2 rfl]
    decide +kernel
  · rw [hanswer 4 rfl]
    decide +kernel
  · obtain ⟨hpending, hjoined, hdropped⟩ := hcounts
    unfold hastyLinker at hpending hjoined hdropped ⊢
    rw [hpending, hjoined, hdropped] at hcount
    omega
  · obtain ⟨last, hlast, hcall, hany⟩ :
        ∃ m, (hastyLinker.history Suite.plain plainCalls)[5]? = some m ∧
          m.call = .receive (.evidence (plainSide false)) 4 ∧
          (m.outcome? Suite.plain).any SubmitOutcome.isLinked = true :=
      ⟨_, rfl, rfl, by decide +kernel⟩
    obtain ⟨l, haccepts⟩ := Moment.exists_accepts_linked hcall rfl hany
    exact hlinked 5 last hlast (plainSide false) 4 l haccepts
  · refine not_consumes_of_drops (n := 2) (by decide) (by decide) (getElem?_history 0)
      (getElem?_history 2) ?_
    rintro w ⟨⟨s, hcall, -⟩, -⟩
    injection hcall with _ hreceived
    refine ⟨4, rfl, ?_⟩
    rw [← hreceived]
    decide +kernel

end Linker

end Settlement
