import Settlement.Proofs.Linker.History

/-!
# Links do not interfere

The submissions for one link are answered as if nothing else had ever come to
the linker (`Linker.answers_isolated`). A run on all calls is compared with one
on the submissions for the link alone. The second one sweeps more seldom, so its
table may still hold an entry of the link that the first one has dropped. Such
an entry has expired; as long as the clock does not go backwards it stays
expired, and it goes before anything is matched with it. Two linkers are
therefore taken for alike if a sweep at any later instant leaves the same entry
of the link in both (`Linker.AlikeFor`).
-/

namespace Settlement

variable {B : Type} {ttl now now' : Mics}

/-- What has waited too long has done so at every later instant. -/
theorem Waiting.isExpired_mono {w : Waiting B} (hle : now ≤ now')
    (h : w.isExpired ttl now = true) : w.isExpired ttl now' = true :=
  isExpired_iff.mpr (Int64.le_trans (isExpired_iff.mp h) hle)

/-- A sweep takes what an earlier one would have taken. -/
theorem PendingTable.dropExpired_dropExpired (t : PendingTable B) (hle : now ≤ now') :
    (t.dropExpired ttl now).dropExpired ttl now' = t.dropExpired ttl now' := by
  have hfilter : ∀ w : Waiting B, (!w.isExpired ttl now && !w.isExpired ttl now') =
      !w.isExpired ttl now' := by
    intro w
    cases hnow : w.isExpired ttl now with
    | false => rfl
    | true => simp [w.isExpired_mono hle hnow]
  simp only [dropExpired, List.filter_filter, Bool.and_comm, hfilter]

namespace Linker

/-! ## The entry of a link -/

/-- The evidence that waits for a link, if a sweep at the instant leaves it. -/
def live? (k : Linker B) (key : LinkKey) (now : Mics) : Option (Waiting B) :=
  (k.dropExpired now).pending.find? key

variable {k : Linker B} {key key' : LinkKey} {w : Waiting B}

theorem live?_dropExpired (hle : now ≤ now') : (k.dropExpired now).live? key now' =
    k.live? key now' := by
  unfold live? dropExpired
  simp only [PendingTable.dropExpired_dropExpired _ hle]

theorem live?_insert : live? { k with pending := k.pending.insert w } key now =
    if w.isExpired k.config.pendingTtl now = false ∧ w.key = key then some w
    else k.live? key now := by
  simp only [live?, dropExpired, PendingTable.dropExpired, PendingTable.insert,
    PendingTable.find?]
  cases hexpired : w.isExpired k.config.pendingTtl now with
  | true => simp [hexpired]
  | false => by_cases hkey : w.key = key <;> simp [hexpired, hkey]

theorem live?_erase : live? { k with pending := k.pending.erase key' } key now =
    if key' = key then none else k.live? key now := by
  simp only [live?, dropExpired, PendingTable.dropExpired, PendingTable.erase,
    PendingTable.find?, List.find?_filter]
  by_cases hkey : key' = key
  · rw [if_pos hkey, List.find?_eq_none]
    intro w _
    simp +contextual [hkey]
  · rw [if_neg hkey]
    refine congrArg (List.find? · k.pending.entries) (funext fun w => ?_)
    by_cases hw : w.key = key
    · simp [hw, Ne.symm hkey]
    · simp [hw]

variable [Base B] [DecidableEq B] {S : Suite}

/-- An admitted evidence makes the entry of its own link begin, stay or go. -/
theorem live?_settle (k : Linker B) (e : LinkedEvidence B) :
    (k.settle S e now).2.live? (e.body.link.key S) now' =
      match k.pending.find? (e.body.link.key S) with
      | none =>
        if Waiting.isExpired k.config.pendingTtl now' ⟨e.body.link.key S, e, now⟩ = false then
          some ⟨e.body.link.key S, e, now⟩
        else k.live? (e.body.link.key S) now'
      | some w =>
        if w.evidence.body.isPrimary = e.body.isPrimary then k.live? (e.body.link.key S) now'
        else none := by
  rcases settle_cases (S := S) k e now with
    ⟨hfind, hsettle⟩ | ⟨w, hfind, hside, hsettle⟩ | ⟨w, hfind, hside, hsettle⟩
  · rw [hsettle, hfind]
    simp only [live?_insert, and_true]
  · rw [hsettle, hfind]
    simp only [if_pos hside]
  · rw [hsettle, hfind]
    simp only [if_neg hside, live?_erase, if_true]

/-- The entries of other links are left alone. -/
theorem live?_settle_of_ne (k : Linker B) {e : LinkedEvidence B} (hne : e.body.link.key S ≠ key) :
    (k.settle S e now).2.live? key now' = k.live? key now' := by
  rcases settle_cases (S := S) k e now with
    ⟨-, hsettle⟩ | ⟨w, -, -, hsettle⟩ | ⟨w, -, -, hsettle⟩
  · rw [hsettle, live?_insert, if_neg fun h => hne h.2]
  · rw [hsettle]
  · rw [hsettle, live?_erase, if_neg hne]

end Linker

/-! ## Calls about a link -/

section

variable [Base B] [Stored B] {S : Suite} {key : LinkKey}

/-- The instant of a call. -/
def Call.instant : Call B → Mics
  | .receive _ now => now
  | .purge now => now
  | .link _ _ now => now
  | .verify _ now => now

/-- Whether a call submits an evidence of the link. -/
def Call.concerns (S : Suite) (key : LinkKey) : Call B → Bool
  | .receive s _ =>
    match s.read S with
    | .ok e => e.body.link.key S = key
    | .error _ => false
  | _ => false

theorem Call.concerns_evidence (e : LinkedEvidence B) (now : Mics) :
    Call.concerns S key (.receive (.evidence e) now) = decide (e.body.link.key S = key) := rfl

/-- Only submissions that can be read are about a link. -/
theorem Call.exists_of_concerns {c : Call B} (h : c.concerns S key = true) :
    ∃ s now e, c = .receive s now ∧ s.read S = .ok e ∧ e.body.link.key S = key := by
  cases c with
  | receive s now =>
      cases hread : s.read S with
      | error fault => simp [concerns, hread] at h
      | ok e => exact ⟨s, now, e, rfl, hread, by simpa [concerns, hread] using h⟩
  | purge now => cases h
  | link e1 e2 now => cases h
  | verify l now => cases h

end

namespace Linker

variable {key : LinkKey} {k k' : Linker B} {t : Mics}

/-- The linkers have the same terms, and a sweep at any instant from now on leaves the same entry of
the link in both. -/
structure AlikeFor (key : LinkKey) (t : Mics) (k k' : Linker B) : Prop where
  seed_eq : k.seed = k'.seed
  config_eq : k.config = k'.config
  live?_eq : ∀ now, t ≤ now → k.live? key now = k'.live? key now

/-- The instant from which they are alike may be put off. -/
theorem AlikeFor.later (h : AlikeFor key t k k') (ht : t ≤ now) : AlikeFor key now k k' :=
  ⟨h.seed_eq, h.config_eq, fun now' hle => h.live?_eq now' (Int64.le_trans ht hle)⟩

variable [Base B] {S : Suite}

theorem examine_congr (hseed : k.seed = k'.seed) (hconfig : k.config = k'.config)
    (e : LinkedEvidence B) (now : Mics) : k.examine S e now = k'.examine S e now := by
  unfold examine isAddressed publicKey
  rw [hseed, hconfig]

variable [DecidableEq B]

theorem link_congr (hseed : k.seed = k'.seed) (hconfig : k.config = k'.config)
    (e1 e2 : LinkedEvidence B) (now : Mics) : k.link S e1 e2 now = k'.link S e1 e2 now := by
  unfold link isAddressed publicKey
  rw [hseed, hconfig]

theorem fst_settle_congr (hseed : k.seed = k'.seed) (hconfig : k.config = k'.config)
    {e : LinkedEvidence B}
    (hfind : k.pending.find? (e.body.link.key S) = k'.pending.find? (e.body.link.key S)) :
    (k.settle S e now).1 = (k'.settle S e now).1 := by
  unfold settle
  simp only [hfind, link_congr hseed hconfig]
  cases k'.pending.find? (e.body.link.key S) with
  | none => rfl
  | some w => by_cases hside : w.evidence.body.isPrimary = e.body.isPrimary <;> simp [hside]

/-- Alike linkers answer an evidence of the link alike, and are alike afterwards. -/
theorem AlikeFor.submit {e : LinkedEvidence B} (h : AlikeFor (e.body.link.key S) now k k') :
    (k.submit S e now).1 = (k'.submit S e now).1 ∧
      AlikeFor (e.body.link.key S) now (k.submit S e now).2 (k'.submit S e now).2 := by
  have hexamine := examine_congr (S := S) h.seed_eq h.config_eq e now
  cases hk : k.examine S e now with
  | error fault =>
      rw [submit_of_error hk, submit_of_error (hexamine ▸ hk)]
      exact ⟨rfl, h⟩
  | ok _ =>
      rw [submit_of_ok hk, submit_of_ok (hexamine ▸ hk)]
      have hfind : (k.dropExpired now).pending.find? (e.body.link.key S) =
          (k'.dropExpired now).pending.find? (e.body.link.key S) :=
        h.live?_eq now (Int64.le_refl now)
      obtain ⟨hseed1, hconfig1⟩ := settle_terms (S := S) (k.dropExpired now) e now
      obtain ⟨hseed2, hconfig2⟩ := settle_terms (S := S) (k'.dropExpired now) e now
      have hseed : (k.dropExpired now).seed = (k'.dropExpired now).seed := h.seed_eq
      have hconfig : (k.dropExpired now).config = (k'.dropExpired now).config := h.config_eq
      refine ⟨fst_settle_congr hseed hconfig hfind, ?_, ?_, fun now' hle => ?_⟩
      · rw [hseed1, hseed2, hseed]
      · rw [hconfig1, hconfig2, hconfig]
      · rw [live?_settle, live?_settle, hfind, hconfig, live?_dropExpired hle,
          live?_dropExpired hle, h.live?_eq now' hle]

variable [Stored B]

/-- Calls about other things leave the entry of a link alone, unless it has expired. -/
theorem live?_after {c : Call B} (hc : c.concerns S key = false) (hle : c.instant ≤ now) :
    (k.after S c).live? key now = k.live? key now := by
  cases c with
  | link e1 e2 t => rfl
  | verify l t => rfl
  | purge t => exact live?_dropExpired hle
  | receive s t =>
      show (k.receive S s t).2.live? key now = k.live? key now
      cases hread : s.read S with
      | error fault => rw [receive_of_error hread]
      | ok e =>
          rw [receive_of_ok hread]
          cases hexamine : k.examine S e t with
          | error fault => rw [submit_of_error hexamine]
          | ok _ =>
              have hne : e.body.link.key S ≠ key := by
                simpa [Call.concerns, hread] using hc
              rw [submit_of_ok hexamine, live?_settle_of_ne _ hne]
              exact live?_dropExpired hle

/-- A call about something else keeps linkers alike when only one of them gets it. -/
theorem AlikeFor.after_other {c : Call B} (h : AlikeFor key c.instant k k')
    (hc : c.concerns S key = false) : AlikeFor key c.instant (k.after S c) k' := by
  obtain ⟨hseed, hconfig⟩ := after_terms (S := S) k c
  refine ⟨hseed.trans h.seed_eq, hconfig.trans h.config_eq, fun now hle => ?_⟩
  rw [live?_after hc hle]
  exact h.live?_eq now hle

/-- A submission for the link is answered alike by both, and keeps them alike. -/
theorem AlikeFor.after_concerning {c : Call B} (h : AlikeFor key c.instant k k')
    (hc : c.concerns S key = true) :
    Moment.answer? S ⟨k, c⟩ = Moment.answer? S ⟨k', c⟩ ∧
      AlikeFor key c.instant (k.after S c) (k'.after S c) := by
  obtain ⟨s, now, e, rfl, hread, rfl⟩ := Call.exists_of_concerns hc
  simp only [Moment.answer?, after, receive_of_ok hread]
  obtain ⟨hanswer, halike⟩ := h.submit
  exact ⟨congrArg some hanswer, halike⟩

/-- Alike linkers answer the submissions for the link alike, whatever else comes to one of them. -/
theorem AlikeFor.answers {calls : List (Call B)} (h : AlikeFor key t k k')
    (ht : ∀ c ∈ calls, t ≤ c.instant)
    (hsorted : calls.Pairwise fun c c' => c.instant ≤ c'.instant) :
    ((k.history S calls).filter (·.call.concerns S key)).map (·.answer? S) =
      (k'.history S (calls.filter (·.concerns S key))).map (·.answer? S) := by
  induction calls generalizing k k' t with
  | nil => rfl
  | cons c calls ih =>
      obtain ⟨hlater, hsorted⟩ := List.pairwise_cons.mp hsorted
      have hnow : AlikeFor key c.instant k k' := h.later (ht c (.head _))
      cases hconcerns : c.concerns S key with
      | false =>
          rw [List.filter_cons_of_neg (by simp [hconcerns])]
          simp only [history]
          rw [List.filter_cons_of_neg (by simp [hconcerns])]
          exact ih (hnow.after_other hconcerns) hlater hsorted
      | true =>
          obtain ⟨hanswer, halike⟩ := hnow.after_concerning hconcerns
          rw [List.filter_cons_of_pos hconcerns]
          simp only [history]
          rw [List.filter_cons_of_pos (by exact hconcerns), List.map_cons, List.map_cons, hanswer,
            ih halike hlater hsorted]

/-- **Links do not interfere.** Whatever comes to a new linker, as long as its clock does not go
backwards, the submissions for a link are answered as they are in the run that is left when every
other call is taken out, purges among them. -/
theorem answers_isolated (seed : Seed) (config : LinkerConfig) (key : LinkKey)
    {calls : List (Call B)} (hsorted : calls.Pairwise fun c c' => c.instant ≤ c'.instant) :
    (((new seed config).history S calls).filter (·.call.concerns S key)).map (·.answer? S) =
      ((new seed config).history S (calls.filter (·.concerns S key))).map (·.answer? S) := by
  have hstart : AlikeFor key Int64.minValue (new seed config : Linker B) (new seed config) :=
    ⟨rfl, rfl, fun _ _ => rfl⟩
  exact hstart.answers (fun c _ => Int64.minValue_le c.instant) hsorted

/-- One side of a later link between the same two holders. -/
def laterSide : LinkedEvidence Proof :=
  let e := LinkedEvidence.of true 6 (plainProof (.padded [1])) (plainProof (.padded [2]))
  ⟨e.body, e.signatures.set 0
    (some (Suite.plain.sign (.padded [1]) (e.mergerMessage Suite.plain 0)))⟩

/-- The primary side comes and waits too long. A side of another link sweeps it out, and it comes
again after the secondary side. -/
def mixedCalls : List (Call Proof) :=
  [.receive (.evidence (plainSide true)) 3, .receive (.evidence laterSide) 4, .purge 4,
    .receive (.evidence (plainSide false)) 4, .receive (.evidence (plainSide true)) 4]

/-- Without the other link and the purge nobody sweeps before the secondary side comes, which is not
joined with the expired one even so. -/
theorem answers_isolated_mixedCalls :
    (mixedCalls.Pairwise fun c c' => c.instant ≤ c'.instant) ∧
    (((new (.padded []) { pendingTtl := 1 }).history Suite.plain mixedCalls).filter
        (·.call.concerns Suite.plain ((plainSide true).body.link.key Suite.plain))).map
          (·.answer? Suite.plain) =
      ((new (.padded []) { pendingTtl := 1 }).history Suite.plain
        [.receive (.evidence (plainSide true)) 3, .receive (.evidence (plainSide false)) 4,
          .receive (.evidence (plainSide true)) 4]).map (·.answer? Suite.plain) ∧
    ((new (.padded []) { pendingTtl := 1 }).history Suite.plain mixedCalls).map
        (fun m => (m.outcome? Suite.plain).map SubmitOutcome.isLinked) =
      [some false, some false, none, some false, some true] := by
  have hsorted : mixedCalls.Pairwise fun c c' => c.instant ≤ c'.instant := by
    simp only [mixedCalls, List.pairwise_cons, List.forall_mem_cons, Call.instant]
    decide
  have hlinks : ∀ isPrimary, (plainSide isPrimary).body.link = (plainSide true).body.link :=
    fun _ => rfl
  have hlater :
      laterSide.body.link.key Suite.plain ≠ (plainSide true).body.link.key Suite.plain := by
    decide +kernel
  have hpurge : Call.concerns Suite.plain ((plainSide true).body.link.key Suite.plain)
      (.purge 4 : Call Proof) = false := rfl
  have hfilter : mixedCalls.filter
      (·.concerns Suite.plain ((plainSide true).body.link.key Suite.plain)) =
        [.receive (.evidence (plainSide true)) 3, .receive (.evidence (plainSide false)) 4,
          .receive (.evidence (plainSide true)) 4] := by
    simp only [mixedCalls, List.filter_cons, List.filter_nil, Call.concerns_evidence, hlinks,
      hlater, hpurge, decide_true, decide_false, Bool.false_eq_true, if_true, if_false]
  refine ⟨hsorted, ?_, by decide +kernel⟩
  rw [answers_isolated _ _ _ hsorted, hfilter]

end Linker

end Settlement
