import Settlement.Proofs.Linker.Linking

/-!
# Histories of a linker

A run is looked at call by call, each call with the linker that it comes to
(`Linker.history`). A call answers a submission, sweeps out what has waited too
long, or leaves the table alone; `Moment.Effect` has one case for each thing that
a call can do there, and at a sound linker there is no other
(`Linker.Sound.effect`). What becomes of an entry follows: it stays unless the
call drops it or joins it, and only an evidence that begins to wait is added
(`Linker.Sound.mem_next_iff`).
-/

namespace Settlement

variable {B : Type}

namespace SubmitOutcome

/-- Whether the submitted evidence begins to wait. -/
def isPending : SubmitOutcome B → Bool
  | .pending => true
  | _ => false

/-- Whether the submitted evidence is joined with one that waited. -/
def isLinked : SubmitOutcome B → Bool
  | .linked _ => true
  | _ => false

end SubmitOutcome

/-- A call and the linker that it comes to. -/
structure Moment (B : Type) where
  linker : Linker B
  call : Call B

variable [Base B] [Stored B] {S : Suite}

namespace Moment

/-- The instant of a call that drops what has waited too long: a purge does, and a submission that
can be read and passes examination. -/
def sweep? (S : Suite) (m : Moment B) : Option Mics :=
  match m.call with
  | .receive s now =>
    match s.read S with
    | .ok e => if m.linker.examine S e now = .ok () then some now else none
    | .error _ => none
  | .purge now => some now
  | _ => none

/-- The entries that a call drops, and not because they are joined. -/
def dropped (S : Suite) (m : Moment B) : List (Waiting B) :=
  match m.sweep? S with
  | some now => m.linker.pending.entries.filter (·.received.plus m.linker.config.pendingTtl ≤ now)
  | none => []

/-- The call drops entries like this one, which has waited too long. -/
def Drops (S : Suite) (m : Moment B) (w : Waiting B) : Prop :=
  ∃ now, m.sweep? S = some now ∧ w.received.plus m.linker.config.pendingTtl ≤ now

variable {m : Moment B} {e e' : LinkedEvidence B} {now now' : Mics}
  {outcome outcome' : SubmitOutcome B} {w w' : Waiting B}

theorem drops_iff (h : m.sweep? S = some now) :
    m.Drops S w ↔ w.received.plus m.linker.config.pendingTtl ≤ now := by
  unfold Drops
  rw [h]
  simp

theorem not_drops (h : m.sweep? S = none) : ¬ m.Drops S w := by
  rintro ⟨now, hsweep, -⟩
  rw [h] at hsweep
  cases hsweep

variable [DecidableEq B]

/-- The linker after the call. -/
def next (S : Suite) (m : Moment B) : Linker B := m.linker.after S m.call

/-- The answer to a submission. -/
def answer? (S : Suite) (m : Moment B) : Option (Except LinkerFault (SubmitOutcome B)) :=
  match m.call with
  | .receive s now => some (m.linker.receive S s now).1
  | _ => none

/-- What becomes of a submission that is not refused. -/
def outcome? (S : Suite) (m : Moment B) : Option (SubmitOutcome B) :=
  (m.answer? S).bind Except.toOption

/-- The call submits the evidence at the instant and is answered by the outcome. -/
def Accepts (S : Suite) (m : Moment B) (e : LinkedEvidence B) (now : Mics)
    (outcome : SubmitOutcome B) : Prop :=
  ∃ s, m.call = .receive s now ∧ s.read S = .ok e ∧ (m.linker.receive S s now).1 = .ok outcome

/-- The call submits an evidence that begins to wait as the entry. -/
def Begins (S : Suite) (m : Moment B) (w : Waiting B) : Prop :=
  m.Accepts S w.evidence w.received .pending ∧ w.key = w.evidence.body.link.key S

/-- The call submits the other side of the entry's evidence, and is answered by a linkage of the
two. -/
def Joins (S : Suite) (m : Moment B) (w : Waiting B) : Prop :=
  ∃ e now l, m.Accepts S e now (.linked l) ∧ w.evidence.body.isPrimary ≠ e.body.isPrimary ∧
    l.evidence w.evidence.body.isPrimary = w.evidence ∧ l.evidence e.body.isPrimary = e

theorem Accepts.unique (h : m.Accepts S e now outcome) (h' : m.Accepts S e' now' outcome') :
    e = e' ∧ now = now' ∧ outcome = outcome' := by
  obtain ⟨s, hcall, hread, hanswer⟩ := h
  obtain ⟨s', hcall', hread', hanswer'⟩ := h'
  obtain ⟨rfl, rfl⟩ : s = s' ∧ now = now' := by
    have hsame := hcall.symm.trans hcall'
    injection hsame with hs hnow
    exact ⟨hs, hnow⟩
  exact ⟨Except.ok.inj (hread.symm.trans hread'), rfl,
    Except.ok.inj (hanswer.symm.trans hanswer')⟩

theorem Accepts.outcome?_eq (h : m.Accepts S e now outcome) : m.outcome? S = some outcome := by
  obtain ⟨s, hcall, -, hanswer⟩ := h
  simp only [outcome?, answer?, hcall, Option.bind_some, hanswer, Except.toOption]

theorem accepts_of_outcome? {s : Submission B} (hcall : m.call = .receive s now)
    (hread : s.read S = .ok e) (h : m.outcome? S = some outcome) : m.Accepts S e now outcome := by
  refine ⟨s, hcall, hread, ?_⟩
  simp only [outcome?, answer?, hcall, Option.bind_some] at h
  cases hanswer : (m.linker.receive S s now).1 with
  | error fault =>
      rw [hanswer] at h
      cases h
  | ok outcome' =>
      rw [hanswer] at h
      exact congrArg Except.ok (Option.some.inj h)

/-- A submission that is joined with what waits is answered by a linkage. -/
theorem exists_accepts_linked {s : Submission B} (hcall : m.call = .receive s now)
    (hread : s.read S = .ok e) (h : (m.outcome? S).any SubmitOutcome.isLinked = true) :
    ∃ l, m.Accepts S e now (.linked l) := by
  cases houtcome : m.outcome? S with
  | none => simp [houtcome] at h
  | some outcome =>
      cases outcome with
      | linked l => exact ⟨l, accepts_of_outcome? hcall hread houtcome⟩
      | _ => simp [houtcome, SubmitOutcome.isLinked] at h

/-- A submission can only sweep at its own instant. -/
theorem Accepts.sweep_eq (h : m.Accepts S e now outcome) (hsweep : m.sweep? S = some now') :
    now' = now := by
  obtain ⟨s, hcall, hread, -⟩ := h
  simp only [sweep?, hcall, hread] at hsweep
  split at hsweep
  · exact (Option.some.inj hsweep).symm
  · cases hsweep

theorem not_begins (h : m.outcome? S ≠ some .pending) : ¬ m.Begins S w :=
  fun hbegins => h hbegins.1.outcome?_eq

theorem not_joins (h : ∀ l, m.outcome? S ≠ some (.linked l)) : ¬ m.Joins S w := by
  rintro ⟨e, now, l, haccepts, -⟩
  exact h l haccepts.outcome?_eq

theorem Begins.unique (h : m.Begins S w) (h' : m.Begins S w') : w = w' := by
  obtain ⟨haccepts, hkey⟩ := h
  obtain ⟨haccepts', hkey'⟩ := h'
  obtain ⟨hevidence, hreceived, -⟩ := haccepts.unique haccepts'
  obtain ⟨key, evidence, received⟩ := w
  obtain ⟨key', evidence', received'⟩ := w'
  simp only at hkey hkey' hevidence hreceived
  subst hevidence hreceived
  rw [hkey, hkey']

/-- A call joins evidences of one side only, and of that side only one. -/
theorem Joins.evidence_eq (h : m.Joins S w) (h' : m.Joins S w') : w.evidence = w'.evidence := by
  obtain ⟨e, now, l, haccepts, hside, hw, -⟩ := h
  obtain ⟨e', now', l', haccepts', hside', hw', -⟩ := h'
  obtain ⟨rfl, -, hlinked⟩ := haccepts.unique haccepts'
  injection hlinked with hl
  have hsame : w.evidence.body.isPrimary = w'.evidence.body.isPrimary := by
    rw [Bool.eq_not_of_ne hside, Bool.eq_not_of_ne hside']
  rw [← hw, ← hw', hsame, hl]

/-- What a call can do to the table. After a sweep it is the table without the expired entries that
the submitted evidence is matched with. -/
inductive Effect (S : Suite) (m : Moment B) : Prop
  | idle (hsweep : m.sweep? S = none) (houtcome : m.outcome? S = none)
      (hnext : (m.next S).pending = m.linker.pending)
  | swept (now : Mics) (hsweep : m.sweep? S = some now) (houtcome : m.outcome? S = none)
      (hnext : (m.next S).pending = (m.linker.dropExpired now).pending)
  | began (w : Waiting B) (hsweep : m.sweep? S = some w.received) (hbegins : m.Begins S w)
      (hnone : (m.linker.dropExpired w.received).pending.find? w.key = none)
      (hnext : (m.next S).pending = (m.linker.dropExpired w.received).pending.insert w)
  | stayed (e : LinkedEvidence B) (now : Mics) (outcome : SubmitOutcome B) (w : Waiting B)
      (hsweep : m.sweep? S = some now) (haccepts : m.Accepts S e now outcome)
      (houtcome : outcome = .duplicate ∨ outcome = .conflict)
      (hw : w ∈ (m.linker.dropExpired now).pending.entries) (hbody : w.evidence.body = e.body)
      (hnext : (m.next S).pending = (m.linker.dropExpired now).pending)
  | joined (w : Waiting B) (now : Mics) (hsweep : m.sweep? S = some now) (hjoins : m.Joins S w)
      (hw : w ∈ (m.linker.dropExpired now).pending.entries)
      (hnext : (m.next S).pending = (m.linker.dropExpired now).pending.erase w.key)

/-- What begins to wait finds no entry under its name, save one that the same call drops. -/
theorem Effect.drops_of_begins (heffect : m.Effect S) (hbegins : m.Begins S w)
    (hw : w ∈ m.linker.pending.entries) : m.Drops S w := by
  have hanswer := hbegins.1.outcome?_eq
  cases heffect with
  | idle hsweep houtcome hnext =>
      rw [houtcome] at hanswer
      cases hanswer
  | swept now hsweep houtcome hnext =>
      rw [houtcome] at hanswer
      cases hanswer
  | began w' hsweep hbegins' hnone hnext =>
      obtain rfl := hbegins.unique hbegins'
      by_contra hdrops
      rw [drops_iff hsweep, Int64.not_le] at hdrops
      exact PendingTable.ne_key_of_find?_eq_none hnone
        (PendingTable.mem_dropExpired.mpr ⟨hw, hdrops⟩) rfl
  | stayed e now outcome w' hsweep haccepts houtcome hw' hbody hnext =>
      rw [haccepts.outcome?_eq] at hanswer
      rcases houtcome with rfl | rfl <;> cases hanswer
  | joined w' now hsweep hjoins hw' hnext =>
      obtain ⟨e, _, l, haccepts, -⟩ := hjoins
      rw [haccepts.outcome?_eq] at hanswer
      cases hanswer

/-- An evidence that comes where one of its side waits leaves that one alone. -/
theorem Effect.stays (heffect : m.Effect S) (haccepts : m.Accepts S e now outcome)
    (houtcome : outcome = .duplicate ∨ outcome = .conflict) :
    (m.next S).pending = (m.linker.dropExpired now).pending ∧
      ∃ w ∈ (m.next S).pending.entries, w.evidence.body = e.body := by
  have hanswer := haccepts.outcome?_eq
  cases heffect with
  | idle hsweep hnone hnext =>
      rw [hnone] at hanswer
      cases hanswer
  | swept t hsweep hnone hnext =>
      rw [hnone] at hanswer
      cases hanswer
  | began w hsweep hbegins hnone hnext =>
      rw [hbegins.1.outcome?_eq] at hanswer
      rcases houtcome with rfl | rfl <;> cases hanswer
  | stayed e' t outcome' w hsweep haccepts' houtcome' hw hbody hnext =>
      obtain ⟨rfl, rfl, -⟩ := haccepts.unique haccepts'
      exact ⟨hnext, w, hnext ▸ hw, hbody⟩
  | joined w t hsweep hjoins hw hnext =>
      obtain ⟨e', t', l, haccepts', -⟩ := hjoins
      rw [haccepts'.outcome?_eq] at hanswer
      rcases houtcome with rfl | rfl <;> cases hanswer

/-- What is linked is joined with an entry that a sweep leaves. -/
theorem Effect.exists_joins (heffect : m.Effect S) {l : Linkage B}
    (haccepts : m.Accepts S e now (.linked l)) :
    ∃ w ∈ (m.linker.dropExpired now).pending.entries, m.Joins S w := by
  have hanswer := haccepts.outcome?_eq
  cases heffect with
  | idle hsweep hnone hnext =>
      rw [hnone] at hanswer
      cases hanswer
  | swept t hsweep hnone hnext =>
      rw [hnone] at hanswer
      cases hanswer
  | began w hsweep hbegins hnone hnext =>
      rw [hbegins.1.outcome?_eq] at hanswer
      cases hanswer
  | stayed e' t outcome' w hsweep haccepts' houtcome hw hbody hnext =>
      rw [haccepts'.outcome?_eq] at hanswer
      rcases houtcome with rfl | rfl <;> cases hanswer
  | joined w t hsweep hjoins hw hnext =>
      obtain rfl := haccepts.sweep_eq hsweep
      exact ⟨w, hw, hjoins⟩

end Moment

/-- A call that hands over well-formed values, everything hashed for which is among the given
contents. -/
structure Call.Known [LinkableBase B] (S : Suite) (contents : Set Octets) (c : Call B) : Prop where
  wellFormed : c.WellFormed S
  hashed : ∀ o ∈ c.hashed S, o ∈ contents

namespace Linker

variable [DecidableEq B]

/-- A refused submission has no effect. -/
theorem effect_of_refused {k : Linker B} {s : Submission B} {now : Mics} {fault : LinkerFault}
    (hsweep : Moment.sweep? S ⟨k, .receive s now⟩ = none)
    (hreceive : k.receive S s now = (.error fault, k)) :
    Moment.Effect S ⟨k, .receive s now⟩ := by
  refine .idle hsweep ?_ (congrArg (fun r => r.2.pending) hreceive)
  simp [Moment.outcome?, Moment.answer?, hreceive, Except.toOption]

variable [LinkableBase B] {contents : Set Octets}

/-- An admitted submission is matched with what a sweep leaves. -/
theorem Sound.effect_of_examine {k : Linker B} {s : Submission B} {e : LinkedEvidence B}
    {now : Mics} (hk : k.Sound S contents) (hfree : S.CollisionFree contents)
    (hwell : s.WellFormed S) (hhashed : ∀ o ∈ s.hashed S, o ∈ contents) (hread : s.read S = .ok e)
    (hexamine : k.examine S e now = .ok ()) : Moment.Effect S ⟨k, .receive s now⟩ := by
  have hreceive : k.receive S s now = (k.dropExpired now).settle S e now :=
    (receive_of_ok hread).trans (submit_of_ok hexamine)
  have hsweep : Moment.sweep? S ⟨k, .receive s now⟩ = some now := by
    simp [Moment.sweep?, hread, hexamine]
  have hnext : Moment.next S ⟨k, .receive s now⟩ = ((k.dropExpired now).settle S e now).2 :=
    congrArg Prod.snd hreceive
  have haccepts : ∀ outcome, ((k.dropExpired now).settle S e now).1 = .ok outcome →
      Moment.Accepts S ⟨k, .receive s now⟩ e now outcome := fun outcome h =>
    ⟨s, rfl, hread, (congrArg Prod.fst hreceive).trans h⟩
  have hknown := known_of_examine hwell hhashed hread hexamine
  have hsound : (k.dropExpired now).Sound S contents := hk.dropExpired now
  rcases settle_cases (S := S) (k.dropExpired now) e now with
    ⟨hnone, hsettle⟩ | ⟨w, hsome, hside, hsettle⟩ | ⟨w, hsome, hside, hsettle⟩
  · rw [hsettle] at hnext haccepts
    exact .began ⟨e.body.link.key S, e, now⟩ hsweep ⟨haccepts _ rfl, rfl⟩ hnone
      (congrArg _ hnext)
  · obtain ⟨hw, hkey⟩ := PendingTable.mem_of_find? hsome
    have hadmitted := hsound.admitted w hw
    have hlink : w.evidence.body.link = e.body.link :=
      Link.eq_of_key_eq hfree hadmitted.known hknown (hadmitted.key_eq.symm.trans hkey)
    rw [hsettle] at hnext haccepts
    refine .stayed e now _ w hsweep (haccepts _ rfl) ?_ hw (Side.ext hside hlink)
      (congrArg _ hnext)
    by_cases hsame : w.evidence = e
    · exact .inl (if_pos hsame)
    · exact .inr (if_neg hsame)
  · obtain ⟨hw, hkey⟩ := PendingTable.mem_of_find? hsome
    have hl := link_of_match hsound hfree hw hkey hside hknown hexamine
    obtain ⟨hevidence1, hevidence2⟩ := evidence_of_link hl
    rw [hsettle, hl] at haccepts
    rw [hsettle, ← hkey] at hnext
    exact .joined w now hsweep ⟨e, now, _, haccepts _ rfl, hside, hevidence1, hevidence2⟩ hw
      (congrArg _ hnext)

/-- A call to a sound linker has one of these effects. -/
theorem Sound.effect {m : Moment B} (hk : m.linker.Sound S contents)
    (hfree : S.CollisionFree contents) (hcall : m.call.Known S contents) : m.Effect S := by
  obtain ⟨hwell, hhashed⟩ := hcall
  obtain ⟨k, c⟩ := m
  cases c with
  | link e1 e2 now => exact .idle rfl rfl rfl
  | verify l now => exact .idle rfl rfl rfl
  | purge now => exact .swept now rfl rfl rfl
  | receive s now =>
      cases hread : s.read S with
      | error fault =>
          exact effect_of_refused (by simp [Moment.sweep?, hread]) (receive_of_error hread)
      | ok e =>
          cases hexamine : k.examine S e now with
          | error fault =>
              exact effect_of_refused (by simp [Moment.sweep?, hread, hexamine])
                ((receive_of_ok hread).trans (submit_of_error hexamine))
          | ok _ => exact hk.effect_of_examine hfree hwell hhashed hread hexamine

/-! ## What becomes of the entries -/

/-- A call joins one entry at most. -/
theorem Sound.eq_of_joins {k : Linker B} {m : Moment B} (hk : k.Sound S contents)
    {w w' : Waiting B} (hw : w ∈ k.pending.entries) (hw' : w' ∈ k.pending.entries)
    (hjoins : m.Joins S w) (hjoins' : m.Joins S w') : w = w' := by
  refine hk.distinct.eq_of_key_eq hw hw' ?_
  rw [(hk.admitted w hw).key_eq, (hk.admitted w' hw').key_eq, hjoins.evidence_eq hjoins']

/-- An entry stays unless the call drops or joins it, and what is new has begun to wait. -/
theorem Sound.mem_next_iff {m : Moment B} (hk : m.linker.Sound S contents) (heffect : m.Effect S)
    {w : Waiting B} : w ∈ (m.next S).pending.entries ↔
      (w ∈ m.linker.pending.entries ∧ ¬ m.Drops S w ∧ ¬ m.Joins S w) ∨ m.Begins S w := by
  have hlive : ∀ {now}, m.sweep? S = some now →
      (w ∈ (m.linker.dropExpired now).pending.entries ↔
        w ∈ m.linker.pending.entries ∧ ¬ m.Drops S w) := by
    intro now hsweep
    rw [Moment.drops_iff hsweep, Int64.not_le]
    exact PendingTable.mem_dropExpired
  cases heffect with
  | idle hsweep houtcome hnext =>
      have hbegins : ¬ m.Begins S w := Moment.not_begins (by simp [houtcome])
      have hjoins : ¬ m.Joins S w := Moment.not_joins (by simp [houtcome])
      simp [hnext, Moment.not_drops hsweep, hjoins, hbegins]
  | swept now hsweep houtcome hnext =>
      have hbegins : ¬ m.Begins S w := Moment.not_begins (by simp [houtcome])
      have hjoins : ¬ m.Joins S w := Moment.not_joins (by simp [houtcome])
      simp [hnext, hlive hsweep, hjoins, hbegins]
  | began w' hsweep hbegins hnone hnext =>
      have hjoins : ¬ m.Joins S w := Moment.not_joins (by simp [hbegins.1.outcome?_eq])
      have hbegins_iff : m.Begins S w ↔ w = w' :=
        ⟨fun h => h.unique hbegins, fun h => h ▸ hbegins⟩
      rw [hnext, hbegins_iff, or_comm]
      simp only [PendingTable.insert, List.mem_cons, hlive hsweep, hjoins, not_false_eq_true,
        and_true]
  | stayed e now outcome w' hsweep haccepts houtcome hw' hbody hnext =>
      have hanswer := haccepts.outcome?_eq
      have hbegins : ¬ m.Begins S w :=
        Moment.not_begins (by rcases houtcome with rfl | rfl <;> simp [hanswer])
      have hjoins : ¬ m.Joins S w :=
        Moment.not_joins (by rcases houtcome with rfl | rfl <;> simp [hanswer])
      simp [hnext, hlive hsweep, hjoins, hbegins]
  | joined w' now hsweep hjoins hw' hnext =>
      have hbegins : ¬ m.Begins S w := by
        obtain ⟨e, _, l, haccepts, -⟩ := hjoins
        exact Moment.not_begins (by simp [haccepts.outcome?_eq])
      have hsound := hk.dropExpired now
      -- of the entries that a sweep leaves, the one under this name is the one that is joined
      have hjoins_iff : w ∈ (m.linker.dropExpired now).pending.entries →
          (m.Joins S w ↔ w.key = w'.key) := by
        intro hw
        constructor
        · intro h
          rw [hsound.eq_of_joins hw hw' h hjoins]
        · intro h
          rw [hsound.distinct.eq_of_key_eq hw hw' h]
          exact hjoins
      rw [hnext, PendingTable.mem_erase, or_iff_left hbegins, ← and_assoc, ← hlive hsweep]
      exact and_congr_right fun hw => not_congr (hjoins_iff hw).symm

end Linker

namespace Linker

variable [DecidableEq B]

/-! ## Calls in their order -/

/-- The calls of a run, each with the linker that it comes to. -/
def history (S : Suite) (k : Linker B) : List (Call B) → List (Moment B)
  | [] => []
  | c :: calls => ⟨k, c⟩ :: (k.after S c).history S calls

variable {k : Linker B} {calls : List (Call B)}

@[simp] theorem length_history : (k.history S calls).length = calls.length := by
  induction calls generalizing k with
  | nil => rfl
  | cons c calls ih => exact congrArg (· + 1) ih

theorem run_concat (k : Linker B) (calls : List (Call B)) (c : Call B) :
    k.run S (calls ++ [c]) = (k.run S calls).after S c := by
  simp [run, List.foldl_append]

theorem history_concat (k : Linker B) (calls : List (Call B)) (c : Call B) :
    k.history S (calls ++ [c]) = k.history S calls ++ [⟨k.run S calls, c⟩] := by
  induction calls generalizing k with
  | nil => rfl
  | cons c' calls ih => exact congrArg (⟨k, c'⟩ :: ·) (ih (k.after S c'))

/-- A history up to a call is that of the calls before it. -/
theorem take_history (n : Nat) : (k.history S calls).take n = k.history S (calls.take n) := by
  induction calls generalizing k n with
  | nil => simp [history]
  | cons c calls ih =>
      cases n with
      | zero => rfl
      | succ n => exact congrArg (⟨k, c⟩ :: ·) (ih n)

/-- A call comes to the linker that the calls before it have left. -/
theorem getElem?_history (i : Nat) :
    (k.history S calls)[i]? = calls[i]?.map fun c => ⟨k.run S (calls.take i), c⟩ := by
  induction calls generalizing k i with
  | nil => rfl
  | cons c calls ih =>
      cases i with
      | zero => rfl
      | succ i => exact ih i

theorem linker_of_history {i : Nat} {m : Moment B} (h : (k.history S calls)[i]? = some m) :
    m.linker = k.run S (calls.take i) := by
  rw [getElem?_history] at h
  obtain ⟨c, -, rfl⟩ := Option.map_eq_some_iff.mp h
  rfl

variable [LinkableBase B] {contents : Set Octets}

theorem Sound.run (hk : k.Sound S contents) (hcalls : ∀ c ∈ calls, c.Known S contents) :
    (k.run S calls).Sound S contents :=
  sound_run hk (fun c hc => (hcalls c hc).wellFormed) fun c hc => (hcalls c hc).hashed

/-- Every call of a run comes to a sound linker, so it has one of the effects there. -/
theorem sound_of_mem_history (hk : k.Sound S contents)
    (hcalls : ∀ c ∈ calls, c.Known S contents) {m : Moment B} (hm : m ∈ k.history S calls) :
    m.linker.Sound S contents ∧ m.call.Known S contents := by
  induction calls generalizing k with
  | nil => cases hm
  | cons c calls ih =>
      have hc : c.Known S contents := hcalls c (.head _)
      rcases List.mem_cons.mp hm with rfl | hm
      · exact ⟨hk, hc⟩
      · exact ih (hk.after hc.wellFormed hc.hashed) (fun c hc => hcalls c (.tail _ hc)) hm

end Linker

end Settlement
