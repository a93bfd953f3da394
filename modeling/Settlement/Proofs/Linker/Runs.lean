import Settlement.Proofs.Linkage.Creation
import Settlement.Proofs.Linker.Key

/-!
# Runs of a linker

A linker starts with nothing waiting and answers calls in any order at any
instants. `Linker.Sound` is what every such run keeps (`Linker.sound_run`): no
two evidences wait for one link, and each that waits has been admitted, so it
is addressed to this linker and co-signed as the linker asks.
-/

namespace Settlement

variable {B : Type}

/-! ## The table of waiting evidences -/

namespace PendingTable

variable {t : PendingTable B} {key : LinkKey} {w : Waiting B}

theorem mem_of_find? (h : t.find? key = some w) : w ∈ t.entries ∧ w.key = key :=
  ⟨List.mem_of_find?_eq_some h, by simpa using List.find?_some h⟩

theorem ne_key_of_find?_eq_none (h : t.find? key = none) (hw : w ∈ t.entries) : w.key ≠ key := by
  simpa using List.find?_eq_none.mp h w hw

theorem mem_erase : w ∈ (t.erase key).entries ↔ w ∈ t.entries ∧ w.key ≠ key := by
  simp [erase]

theorem mem_dropExpired {ttl now : Mics} :
    w ∈ (t.dropExpired ttl now).entries ↔ w ∈ t.entries ∧ now < w.received.plus ttl := by
  simp [dropExpired, Waiting.isExpired_eq_false_iff]

/-- No two evidences wait for one link. -/
def Distinct (t : PendingTable B) : Prop := (t.entries.map (·.key)).Nodup

theorem Distinct.insert (h : t.Distinct) (hnone : t.find? w.key = none) :
    (t.insert w).Distinct := by
  refine List.nodup_cons.mpr ⟨fun hmem => ?_, h⟩
  obtain ⟨w', hw', hkey⟩ := List.mem_map.mp hmem
  exact ne_key_of_find?_eq_none hnone hw' hkey

theorem Distinct.erase (h : t.Distinct) (key : LinkKey) : (t.erase key).Distinct :=
  h.sublist (List.filter_sublist.map _)

theorem Distinct.dropExpired (h : t.Distinct) (ttl now : Mics) :
    (t.dropExpired ttl now).Distinct :=
  h.sublist (List.filter_sublist.map _)

/-- The evidence that waits for a link is the one that is found. -/
theorem Distinct.find?_eq_some (h : t.Distinct) (hw : w ∈ t.entries) :
    t.find? w.key = some w := by
  obtain ⟨entries⟩ := t
  induction entries with
  | nil => cases hw
  | cons w' rest ih =>
      obtain ⟨hnew, hrest⟩ := List.nodup_cons.mp h
      rcases List.mem_cons.mp hw with rfl | hw
      · exact List.find?_cons_of_pos (by simp)
      · have hne : ¬ w'.key = w.key := fun heq =>
          hnew (List.mem_map.mpr ⟨w, hw, heq.symm⟩)
        exact (List.find?_cons_of_neg (by simpa using hne)).trans (ih hrest hw)

theorem Distinct.eq_of_key_eq (h : t.Distinct) {w' : Waiting B} (hw : w ∈ t.entries)
    (hw' : w' ∈ t.entries) (hkey : w.key = w'.key) : w = w' := by
  have hfound := h.find?_eq_some hw
  rw [hkey, h.find?_eq_some hw'] at hfound
  exact (Option.some.inj hfound).symm

/-- The table without one of its entries has one entry less. -/
theorem Distinct.size_erase (h : t.Distinct) (hw : w ∈ t.entries) :
    (t.erase w.key).size + 1 = t.size := by
  obtain ⟨entries⟩ := t
  induction entries with
  | nil => cases hw
  | cons w' rest ih =>
      obtain ⟨hnew, hrest⟩ := List.nodup_cons.mp h
      rcases List.mem_cons.mp hw with rfl | hw
      · have hne : ∀ w' ∈ rest, w'.key ≠ w.key := fun w' hw' heq =>
          hnew (List.mem_map.mpr ⟨w', hw', heq⟩)
        simpa [PendingTable.erase, size] using hne
      · have hne : w'.key ≠ w.key := fun heq => hnew (List.mem_map.mpr ⟨w, hw, heq.symm⟩)
        have hrest' := ih hrest hw
        simp only [PendingTable.erase, size] at hrest' ⊢
        rw [List.filter_cons_of_pos (by simpa using hne), List.length_cons, List.length_cons,
          hrest']

end PendingTable

/-! ## One evidence -/

variable [Base B] {S : Suite}

namespace Linker

variable [DecidableEq B]

theorem submit_of_error {k : Linker B} {e : LinkedEvidence B} {now : Mics} {fault : LinkerFault}
    (h : k.examine S e now = .error fault) : k.submit S e now = (.error fault, k) := by
  unfold submit
  rw [h]

theorem submit_of_ok {k : Linker B} {e : LinkedEvidence B} {now : Mics}
    (h : k.examine S e now = .ok ()) :
    k.submit S e now = (k.dropExpired now).settle S e now := by
  unfold submit
  rw [h]

/-- What becomes of an admitted evidence: it waits, it goes where one of its side waits, or it
takes the other side out of the table. -/
theorem settle_cases (k : Linker B) (e : LinkedEvidence B) (now : Mics) :
    (k.pending.find? (e.body.link.key S) = none ∧
      k.settle S e now =
        (.ok .pending, { k with pending := k.pending.insert ⟨e.body.link.key S, e, now⟩ })) ∨
    (∃ w, k.pending.find? (e.body.link.key S) = some w ∧
      w.evidence.body.isPrimary = e.body.isPrimary ∧
      k.settle S e now = (.ok (if w.evidence = e then .duplicate else .conflict), k)) ∨
    (∃ w, k.pending.find? (e.body.link.key S) = some w ∧
      w.evidence.body.isPrimary ≠ e.body.isPrimary ∧
      k.settle S e now = ((k.link S w.evidence e now).map .linked,
        { k with pending := k.pending.erase (e.body.link.key S) })) := by
  cases hfind : k.pending.find? (e.body.link.key S) with
  | none => exact .inl ⟨rfl, by simp only [settle, hfind]⟩
  | some w =>
      by_cases hside : w.evidence.body.isPrimary = e.body.isPrimary
      · exact .inr (.inl ⟨w, rfl, hside, by simp only [settle, hfind, hside, if_true]⟩)
      · exact .inr (.inr ⟨w, rfl, hside, by simp only [settle, hfind, hside, if_false]⟩)

theorem settle_terms (k : Linker B) (e : LinkedEvidence B) (now : Mics) :
    (k.settle S e now).2.seed = k.seed ∧ (k.settle S e now).2.config = k.config := by
  rcases settle_cases (S := S) k e now with ⟨-, h⟩ | ⟨w, -, -, h⟩ | ⟨w, -, -, h⟩ <;>
    rw [h] <;> exact ⟨rfl, rfl⟩

end Linker

/-! ## Calls -/

/-- One side of a link as it comes to a linker: as an evidence, or as the octets of one. -/
inductive Submission (B : Type) where
  | evidence (e : LinkedEvidence B)
  | octets (o : Octets)

/-- A call to a linker. -/
inductive Call (B : Type) where
  | receive (s : Submission B) (now : Mics)
  | purge (now : Mics)
  | link (e1 e2 : LinkedEvidence B) (now : Mics)
  | verify (l : Linkage B) (now : Mics)

variable [Stored B]

namespace Submission

/-- The evidence that is submitted, if there is one. -/
def read (S : Suite) : Submission B → Except DataFault (LinkedEvidence B)
  | .evidence e => .ok e
  | .octets o => Stored.ofOctets S o

/-- An evidence that is handed over holds well-formed values; octets are any. -/
def WellFormed (S : Suite) : Submission B → Prop
  | .evidence e => e.body.link.WellFormed S
  | .octets _ => True

end Submission

/-- What is handed over in a call holds well-formed values. -/
def Call.WellFormed (S : Suite) : Call B → Prop
  | .receive s _ => s.WellFormed S
  | _ => True

section

variable [LinkableBase B]

/-- Everything that is hashed to name the link of a submission. -/
def Submission.hashed (S : Suite) (s : Submission B) : List Octets :=
  match s.read S with
  | .ok e => e.body.link.hashed S
  | .error _ => []

/-- Everything that is hashed to name a link in a call. -/
def Call.hashed (S : Suite) : Call B → List Octets
  | .receive s _ => s.hashed S
  | _ => []

/-- Everything that is hashed to name the links in calls. -/
def Call.allHashed (S : Suite) (calls : List (Call B)) : Set Octets :=
  {o | ∃ c ∈ calls, o ∈ c.hashed S}

theorem Submission.wellFormed_of_read {s : Submission B} {e : LinkedEvidence B}
    (hs : s.WellFormed S) (h : s.read S = .ok e) : e.body.link.WellFormed S := by
  cases s with
  | evidence e' =>
      obtain rfl := Except.ok.inj h
      exact hs
  | octets o => exact Stored.of_ofOctets (Storage.gives_linkedEvidence
      LinkableBase.gives_wellFormed) h

end

namespace Linker

variable [DecidableEq B]

/-- Takes a submission of either form. -/
def receive (S : Suite) (k : Linker B) (s : Submission B) (now : Mics) :
    Except LinkerFault (SubmitOutcome B) × Linker B :=
  match s with
  | .evidence e => k.submit S e now
  | .octets o => k.submitOctets S o now

/-- The linker after a call. Joining two evidences that are handed over changes nothing. -/
def after (S : Suite) (k : Linker B) : Call B → Linker B
  | .receive s now => (k.receive S s now).2
  | .purge now => (k.purge now).2
  | .link _ _ _ => k
  | .verify l now => (k.verify S l now).2

/-- The linker after calls in their order. -/
def run (S : Suite) (k : Linker B) (calls : List (Call B)) : Linker B :=
  calls.foldl (after S) k

theorem receive_of_error {k : Linker B} {s : Submission B} {now : Mics} {fault : DataFault}
    (h : s.read S = .error fault) : k.receive S s now = (.error (.data fault), k) := by
  cases s with
  | evidence e => cases h
  | octets o =>
      unfold receive submitOctets
      simp only [show (Stored.ofOctets S o : Except DataFault (LinkedEvidence B)) = _ from h]

theorem receive_of_ok {k : Linker B} {s : Submission B} {now : Mics} {e : LinkedEvidence B}
    (h : s.read S = .ok e) : k.receive S s now = k.submit S e now := by
  cases s with
  | evidence e' =>
      obtain rfl := Except.ok.inj h
      rfl
  | octets o =>
      unfold receive submitOctets
      simp only [show (Stored.ofOctets S o : Except DataFault (LinkedEvidence B)) = _ from h]

/-- The first evidence that a linker admits waits. -/
theorem waits_of_examine {seed : Seed} {config : LinkerConfig} {e : LinkedEvidence B} {now : Mics}
    (h : (new seed config).examine S e now = .ok ()) :
    ⟨e.body.link.key S, e, now⟩ ∈
      ((new seed config).run S [.receive (.evidence e) now]).pending.entries := by
  show _ ∈ ((new seed config).submit S e now).2.pending.entries
  rw [submit_of_ok h]
  exact .head _

/-! ## Seed and parameters -/

theorem receive_terms (k : Linker B) (s : Submission B) (now : Mics) :
    (k.receive S s now).2.seed = k.seed ∧ (k.receive S s now).2.config = k.config := by
  cases hread : s.read S with
  | error fault =>
      rw [receive_of_error hread]
      exact ⟨rfl, rfl⟩
  | ok e =>
      rw [receive_of_ok hread]
      cases hexamine : k.examine S e now with
      | error fault =>
          rw [submit_of_error hexamine]
          exact ⟨rfl, rfl⟩
      | ok _ =>
          rw [submit_of_ok hexamine]
          exact settle_terms _ e now

theorem after_terms (k : Linker B) (c : Call B) :
    (k.after S c).seed = k.seed ∧ (k.after S c).config = k.config := by
  cases c with
  | receive s now => exact receive_terms k s now
  | purge now => exact ⟨rfl, rfl⟩
  | link e1 e2 now => exact ⟨rfl, rfl⟩
  | verify l now => exact ⟨rfl, rfl⟩

/-- A linker keeps its seed and its parameters. -/
theorem run_terms (k : Linker B) (calls : List (Call B)) :
    (k.run S calls).seed = k.seed ∧ (k.run S calls).config = k.config := by
  induction calls generalizing k with
  | nil => exact ⟨rfl, rfl⟩
  | cons c calls ih =>
      obtain ⟨hseed, hconfig⟩ := ih (k.after S c)
      obtain ⟨hseed', hconfig'⟩ := after_terms (S := S) k c
      exact ⟨hseed.trans hseed', hconfig.trans hconfig'⟩

end Linker

/-! ## What every run keeps -/

variable [LinkableBase B]

/-- A waiting evidence that was admitted on the terms of a linker: it waits under the name of its
link, names the linker in both bases, and is co-signed as far as the cap asks. -/
structure Waiting.Admitted (S : Suite) (contents : Set Octets) (seed : Seed) (cap : Nat)
    (w : Waiting B) : Prop where
  key_eq : w.key = w.evidence.body.link.key S
  known : w.evidence.body.link.Known S contents
  linker1 : Base.linker? w.evidence.body.link.base1 = some (S.publicKey seed)
  linker2 : Base.linker? w.evidence.body.link.base2 = some (S.publicKey seed)
  cosigned : w.evidence.checkSignatures S cap = .ok ()

namespace Linker

/-- No two evidences wait for one link, and each that waits was admitted. -/
structure Sound (S : Suite) (contents : Set Octets) (k : Linker B) : Prop where
  distinct : k.pending.Distinct
  admitted : ∀ w ∈ k.pending.entries, w.Admitted S contents k.seed k.config.mergerCap

variable {contents : Set Octets} {k : Linker B}

theorem sound_new (seed : Seed) (config : LinkerConfig) :
    (new seed config : Linker B).Sound S contents :=
  ⟨List.nodup_nil, nofun⟩

theorem Sound.dropExpired (h : k.Sound S contents) (now : Mics) :
    (k.dropExpired now).Sound S contents :=
  ⟨h.distinct.dropExpired _ _,
    fun w hw => h.admitted w (PendingTable.mem_dropExpired.mp hw).1⟩

/-- An examined evidence may wait. -/
theorem admitted_of_examine {e : LinkedEvidence B} {now : Mics}
    (hexamine : k.examine S e now = .ok ()) (hwell : e.body.link.WellFormed S)
    (hhashed : ∀ o ∈ e.body.link.hashed S, o ∈ contents) :
    (⟨e.body.link.key S, e, now⟩ : Waiting B).Admitted S contents k.seed k.config.mergerCap := by
  obtain ⟨haddressed, hverify⟩ := examine_eq_ok_iff.mp hexamine
  obtain ⟨hlinker1, hlinker2⟩ := isAddressed_iff.mp haddressed
  have hknown : e.body.link.Known S contents :=
    ⟨hwell, Base.isSome_proof?_of_linker? hlinker1, Base.isSome_proof?_of_linker? hlinker2,
      hhashed⟩
  exact ⟨rfl, hknown, hlinker1, hlinker2, (Evidence.verify_eq_ok_iff.mp hverify).2⟩

/-- The link of a submission that passes examination is known. -/
theorem known_of_examine {s : Submission B} {e : LinkedEvidence B} {now : Mics}
    (hs : s.WellFormed S) (hhashed : ∀ o ∈ s.hashed S, o ∈ contents)
    (hread : s.read S = .ok e) (hexamine : k.examine S e now = .ok ()) :
    e.body.link.Known S contents := by
  rw [Submission.hashed, hread] at hhashed
  exact (admitted_of_examine hexamine (Submission.wellFormed_of_read hs hread) hhashed).known

variable [DecidableEq B]

theorem Sound.settle (h : k.Sound S contents) {e : LinkedEvidence B} {now : Mics}
    (he : (⟨e.body.link.key S, e, now⟩ : Waiting B).Admitted S contents k.seed
      k.config.mergerCap) :
    (k.settle S e now).2.Sound S contents := by
  rcases settle_cases (S := S) k e now with ⟨hnone, hk⟩ | ⟨w, -, -, hk⟩ | ⟨w, -, -, hk⟩
  · rw [hk]
    refine ⟨h.distinct.insert hnone, fun w hw => ?_⟩
    rcases List.mem_cons.mp hw with rfl | hw
    · exact he
    · exact h.admitted w hw
  · rw [hk]
    exact h
  · rw [hk]
    exact ⟨h.distinct.erase _, fun w hw => h.admitted w (PendingTable.mem_erase.mp hw).1⟩

/-- A call leaves a sound linker sound. -/
theorem Sound.after (h : k.Sound S contents) {c : Call B} (hwell : c.WellFormed S)
    (hhashed : ∀ o ∈ c.hashed S, o ∈ contents) : (k.after S c).Sound S contents := by
  cases c with
  | receive s now =>
      show (k.receive S s now).2.Sound S contents
      cases hread : s.read S with
      | error fault =>
          rw [receive_of_error hread]
          exact h
      | ok e =>
          rw [receive_of_ok hread]
          cases hexamine : k.examine S e now with
          | error fault =>
              rw [submit_of_error hexamine]
              exact h
          | ok _ =>
              rw [submit_of_ok hexamine]
              have hsubmitted : ∀ o ∈ e.body.link.hashed S, o ∈ contents := by
                rw [Call.hashed, Submission.hashed, hread] at hhashed
                exact hhashed
              exact (h.dropExpired now).settle
                (admitted_of_examine hexamine (Submission.wellFormed_of_read hwell hread)
                  hsubmitted)
  | purge now => exact h.dropExpired now
  | link e1 e2 now => exact h
  | verify l now => exact ⟨h.distinct, h.admitted⟩

/-- **Every run is sound**, whatever the calls and their instants. -/
theorem sound_run {calls : List (Call B)} (h : k.Sound S contents)
    (hwell : ∀ c ∈ calls, c.WellFormed S) (hhashed : ∀ c ∈ calls, ∀ o ∈ c.hashed S, o ∈ contents) :
    (k.run S calls).Sound S contents := by
  -- the contents are fixed beforehand, so that one set serves every linker on the way
  induction calls generalizing k with
  | nil => exact h
  | cons c calls ih =>
      refine ih (h.after (hwell c (.head _)) (hhashed c (.head _))) ?_ ?_
      · exact fun c hc => hwell c (.tail _ hc)
      · exact fun c hc => hhashed c (.tail _ hc)

end Linker

end Settlement
