import Settlement.Proof.Signing
import Settlement.Proofs.Linker.Runs
import Settlement.Proofs.Suite.Signing

/-!
# Matching

The evidence that waits for the other side was verified when it came, perhaps
long before, and leaves the table before the two sides are joined. The two are
joined all the same: both are of one link, so the evidence that has just come
vouches for the bases of both (`Linker.link_of_match`). A refused submission
leaves the linker as it was.
-/

namespace Settlement

variable {B : Type} [Base B] [Stored B] [LinkableBase B] [DecidableEq B] {S : Suite}

namespace Linker

variable {contents : Set Octets} {k : Linker B}

/-- Evidences that wait and come for one link, on opposite sides, are joined. -/
theorem link_of_match (hk : k.Sound S contents) (hfree : S.CollisionFree contents)
    {w : Waiting B} (hw : w ∈ k.pending.entries) {e : LinkedEvidence B} {now : Mics}
    (hkey : w.key = e.body.link.key S) (hside : w.evidence.body.isPrimary ≠ e.body.isPrimary)
    (hknown : e.body.link.Known S contents) (hexamine : k.examine S e now = .ok ()) :
    k.link S w.evidence e now = .ok (k.signedOfSides S w.evidence e) := by
  have hadmitted := hk.admitted w hw
  have hlink : w.evidence.body.link = e.body.link :=
    Link.eq_of_key_eq hfree hadmitted.known hknown (hadmitted.key_eq.symm.trans hkey)
  obtain ⟨haddressed, hverify⟩ := examine_eq_ok_iff.mp hexamine
  obtain ⟨hbases, -⟩ := Evidence.verify_eq_ok_iff.mp hverify
  have hwaddressed : k.isAddressed S w.evidence = true :=
    isAddressed_iff.mpr ⟨hadmitted.linker1, hadmitted.linker2⟩
  -- the signatures of the waiting side were checked once for all, its bases are verified anew
  have hwverify : w.evidence.verify S k.config.mergerCap (k.config.optionsAt now) = .ok () := by
    refine Evidence.verify_eq_ok_iff.mpr ⟨?_, hadmitted.cosigned⟩
    rw [LinkedEvidence.verifyBases_eq_ok_iff, hlink]
    exact LinkedEvidence.verifyBases_eq_ok_iff.mp hbases
  exact link_eq_ok_iff.mpr ⟨⟨hwaddressed, haddressed⟩, ⟨hside, hlink⟩, ⟨hwverify, hverify⟩, rfl⟩

/-- An admitted evidence is never refused, and joins the other side if that waits. -/
theorem settle_spec (hk : k.Sound S contents) (hfree : S.CollisionFree contents)
    {e : LinkedEvidence B} {now : Mics} (hknown : e.body.link.Known S contents)
    (hexamine : k.examine S e now = .ok ()) :
    (∃ outcome, (k.settle S e now).1 = .ok outcome) ∧
      (∀ w ∈ k.pending.entries, w.key = e.body.link.key S →
        w.evidence.body.isPrimary ≠ e.body.isPrimary →
        (k.settle S e now).1 = .ok (.linked (k.signedOfSides S w.evidence e))) ∧
      ∀ w ∈ k.pending.entries, w ∉ (k.settle S e now).2.pending.entries →
        w.key = e.body.link.key S ∧ w.evidence.body.isPrimary ≠ e.body.isPrimary := by
  have hfound : ∀ w ∈ k.pending.entries, w.key = e.body.link.key S →
      k.pending.find? (e.body.link.key S) = some w := fun w hw hkey =>
    hkey ▸ hk.distinct.find?_eq_some hw
  rcases settle_cases (S := S) k e now with
    ⟨hnone, hsettle⟩ | ⟨w, hsome, hside, hsettle⟩ | ⟨w, hsome, hside, hsettle⟩
  · rw [hsettle]
    refine ⟨⟨_, rfl⟩, fun w hw hkey _ => ?_, fun w hw hnot => ?_⟩
    · exact absurd hkey (PendingTable.ne_key_of_find?_eq_none hnone hw)
    · exact absurd (List.mem_cons_of_mem _ hw) hnot
  · rw [hsettle]
    refine ⟨⟨_, rfl⟩, fun w' hw hkey hside' => ?_, fun w' hw hnot => absurd hw hnot⟩
    obtain rfl : w = w' := Option.some.inj (hsome.symm.trans (hfound w' hw hkey))
    exact absurd hside hside'
  · obtain ⟨hw, hkey⟩ := PendingTable.mem_of_find? hsome
    have hlink := link_of_match hk hfree hw hkey hside hknown hexamine
    rw [hsettle, hlink]
    refine ⟨⟨_, rfl⟩, fun w' hw' hkey' _ => ?_, fun w' hw' hnot => ?_⟩
    · obtain rfl : w = w' := Option.some.inj (hsome.symm.trans (hfound w' hw' hkey'))
      rfl
    · have hkey' : w'.key = e.body.link.key S := by
        by_contra hne
        exact hnot (PendingTable.mem_erase.mpr ⟨hw', hne⟩)
      obtain rfl : w = w' := Option.some.inj (hsome.symm.trans (hfound w' hw' hkey'))
      exact ⟨hkey, hside⟩

/-! ## Submissions to a sound linker -/

variable {s : Submission B} {now : Mics}

/-- A submission is accepted exactly if it can be read as an evidence that passes examination. -/
theorem receive_error_iff (hk : k.Sound S contents) (hfree : S.CollisionFree contents)
    (hs : s.WellFormed S) (hhashed : ∀ o ∈ s.hashed S, o ∈ contents) :
    (∃ fault, (k.receive S s now).1 = .error fault) ↔
      (∃ fault, s.read S = .error fault) ∨
        ∃ e, s.read S = .ok e ∧ ∃ fault, k.examine S e now = .error fault := by
  cases hread : s.read S with
  | error fault =>
      rw [receive_of_error hread]
      exact iff_of_true ⟨_, rfl⟩ (.inl ⟨fault, rfl⟩)
  | ok e =>
      rw [receive_of_ok hread]
      cases hexamine : k.examine S e now with
      | error fault =>
          rw [submit_of_error hexamine]
          exact iff_of_true ⟨_, rfl⟩ (.inr ⟨e, rfl, fault, hexamine⟩)
      | ok _ =>
          have hknown := known_of_examine hs hhashed hread hexamine
          obtain ⟨⟨outcome, houtcome⟩, -⟩ :=
            settle_spec (hk.dropExpired now) hfree hknown hexamine
          rw [submit_of_ok hexamine, houtcome]
          refine iff_of_false nofun ?_
          rintro (⟨fault, h⟩ | ⟨e', h, fault, hfault⟩)
          · cases h
          · obtain rfl := Except.ok.inj h
            cases hexamine.symm.trans hfault

/-- A refused submission changes nothing. -/
theorem receive_unchanged (hk : k.Sound S contents) (hfree : S.CollisionFree contents)
    (hs : s.WellFormed S) (hhashed : ∀ o ∈ s.hashed S, o ∈ contents)
    (h : ∃ fault, (k.receive S s now).1 = .error fault) : (k.receive S s now).2 = k := by
  rcases (receive_error_iff hk hfree hs hhashed).mp h with ⟨fault, hread⟩ | ⟨e, hread, fault, hfault⟩
  · rw [receive_of_error hread]
  · rw [receive_of_ok hread, submit_of_error hfault]

/-- What leaves the table has waited too long, or is joined with what came. -/
theorem receive_removes (hk : k.Sound S contents) (hfree : S.CollisionFree contents)
    (hs : s.WellFormed S) (hhashed : ∀ o ∈ s.hashed S, o ∈ contents)
    {w : Waiting B} (hw : w ∈ k.pending.entries)
    (hgone : w ∉ (k.receive S s now).2.pending.entries) :
    w.received.plus k.config.pendingTtl ≤ now ∨
      ∃ e l, s.read S = .ok e ∧ k.link S w.evidence e now = .ok l ∧
        (k.receive S s now).1 = .ok (.linked l) := by
  cases hread : s.read S with
  | error fault =>
      rw [receive_of_error hread] at hgone
      exact absurd hw hgone
  | ok e =>
      rw [receive_of_ok hread] at hgone ⊢
      cases hexamine : k.examine S e now with
      | error fault =>
          rw [submit_of_error hexamine] at hgone
          exact absurd hw hgone
      | ok _ =>
          rw [submit_of_ok hexamine] at hgone ⊢
          rcases Int64.le_or_lt (w.received.plus k.config.pendingTtl) now with hexpired | hfresh
          · exact .inl hexpired
          · have hknown := known_of_examine hs hhashed hread hexamine
            have hw' : w ∈ (k.dropExpired now).pending.entries :=
              PendingTable.mem_dropExpired.mpr ⟨hw, hfresh⟩
            obtain ⟨-, hlinked, hmatch⟩ :=
              settle_spec (hk.dropExpired now) hfree hknown hexamine
            obtain ⟨hkey, hside⟩ := hmatch w hw' hgone
            exact .inr ⟨e, _, rfl, link_of_match hk hfree hw hkey hside hknown hexamine,
              hlinked w hw' hkey hside⟩

/-- Two sides of one link are joined unless the first one has waited too long. -/
theorem receive_links (hk : k.Sound S contents) (hfree : S.CollisionFree contents)
    (hs : s.WellFormed S) (hhashed : ∀ o ∈ s.hashed S, o ∈ contents)
    {w : Waiting B} (hw : w ∈ k.pending.entries)
    (hfresh : now < w.received.plus k.config.pendingTtl) {e : LinkedEvidence B}
    (hread : s.read S = .ok e) (hexamine : k.examine S e now = .ok ())
    (hkey : w.key = e.body.link.key S) (hside : w.evidence.body.isPrimary ≠ e.body.isPrimary) :
    ∃ l, k.link S w.evidence e now = .ok l ∧ (k.receive S s now).1 = .ok (.linked l) := by
  have hknown := known_of_examine hs hhashed hread hexamine
  have hw' : w ∈ (k.dropExpired now).pending.entries :=
    PendingTable.mem_dropExpired.mpr ⟨hw, hfresh⟩
  obtain ⟨-, hlinked, -⟩ := settle_spec (hk.dropExpired now) hfree hknown hexamine
  refine ⟨_, link_of_match hk hfree hw hkey hside hknown hexamine, ?_⟩
  rw [receive_of_ok hread, submit_of_ok hexamine]
  exact hlinked w hw' hkey hside

/-! ## Submissions to a linker that has run -/

/-- **Matching neither fails nor loses an evidence.** After any calls at any instants, a submission
is refused exactly if it cannot be read, is not addressed to the linker in both bases, or does not
verify; then nothing has changed. An evidence that leaves the table on a submission has waited too
long or is joined with the submitted one, which cannot fail any more. -/
theorem receive_run (seed : Seed) (config : LinkerConfig) {calls : List (Call B)}
    (hcalls : ∀ c ∈ calls, c.WellFormed S) (hs : s.WellFormed S)
    (hfree : S.CollisionFree (Call.allHashed S (.receive s now :: calls))) :
    let k := (new seed config : Linker B).run S calls
    ((∃ fault, (k.receive S s now).1 = .error fault) ↔
      (∃ fault, s.read S = .error fault) ∨
        ∃ e, s.read S = .ok e ∧
          (¬ (Base.linker? e.body.link.base1 = some (S.publicKey seed) ∧
              Base.linker? e.body.link.base2 = some (S.publicKey seed)) ∨
            ∃ fault, e.verify S config.mergerCap (config.optionsAt now) = .error fault)) ∧
    ((∃ fault, (k.receive S s now).1 = .error fault) → (k.receive S s now).2 = k) ∧
    (∀ w ∈ k.pending.entries, w ∉ (k.receive S s now).2.pending.entries →
      w.received.plus config.pendingTtl ≤ now ∨
        ∃ e l, s.read S = .ok e ∧ k.link S w.evidence e now = .ok l ∧
          (k.receive S s now).1 = .ok (.linked l)) ∧
    ∀ w ∈ k.pending.entries, now < w.received.plus config.pendingTtl →
      ∀ e, s.read S = .ok e →
        (Base.linker? e.body.link.base1 = some (S.publicKey seed) ∧
          Base.linker? e.body.link.base2 = some (S.publicKey seed)) →
        e.verify S config.mergerCap (config.optionsAt now) = .ok () →
        w.key = e.body.link.key S → w.evidence.body.isPrimary ≠ e.body.isPrimary →
        ∃ l, k.link S w.evidence e now = .ok l ∧ (k.receive S s now).1 = .ok (.linked l) := by
  intro k
  have hk : k.Sound S (Call.allHashed S (.receive s now :: calls)) :=
    sound_run (sound_new seed config) hcalls fun c hc o ho => ⟨c, .tail _ hc, ho⟩
  have hhashed : ∀ o ∈ s.hashed S, o ∈ Call.allHashed S (.receive s now :: calls) :=
    fun o ho => ⟨_, .head _, ho⟩
  obtain ⟨hseed, hconfig⟩ : k.seed = seed ∧ k.config = config := run_terms (new seed config) calls
  refine ⟨?_, receive_unchanged hk hfree hs hhashed, fun w hw hgone => ?_,
    fun w hw hfresh e hread hlinker hverify hkey hside => ?_⟩
  · rw [receive_error_iff hk hfree hs hhashed]
    simp only [exists_error_iff, ne_eq, examine_eq_ok_iff, isAddressed_iff, publicKey, hseed,
      hconfig, not_and_or]
  · rw [← hconfig]
    exact receive_removes hk hfree hs hhashed hw hgone
  · rw [← hconfig] at hfresh hverify
    have haddressed : k.isAddressed S e = true := by
      rw [isAddressed_iff, publicKey, hseed]
      exact hlinker
    exact receive_links hk hfree hs hhashed hw hfresh hread
      (examine_eq_ok_iff.mpr ⟨haddressed, hverify⟩) hkey hside

/-- The proof of the holder of a seed that the holder has a hundred, for the linker of the empty
seed. -/
def plainProof (seed : Seed) : Proof :=
  let key := Suite.plain.publicKey seed
  let p : Proof := ⟨.value ⟨key, ⟨100⟩, ⟨key, [key]⟩⟩ (Suite.plain.publicKey (.padded [])), 0, 10, none⟩
  p.attach (Suite.plain.sign seed (p.signerMessage Suite.plain))

/-- One side of a link between the holders of two seeds, co-signed by its only merger. -/
def plainSide (isPrimary : Bool) : LinkedEvidence Proof :=
  let e := LinkedEvidence.of isPrimary 5 (plainProof (.padded [1])) (plainProof (.padded [2]))
  let merger : Seed := if isPrimary then .padded [1] else .padded [2]
  ⟨e.body, e.signatures.set 0 (some (Suite.plain.sign merger (e.mergerMessage Suite.plain 0)))⟩

theorem wellFormed_plainProof (seed : Seed) : (plainProof seed).WellFormed .plain :=
  ⟨Point.inRange_iff.mp rfl, rfl, Nat.le_refl 1, Nat.le_add_left 1 2, rfl, fun _ _ => rfl⟩

theorem wellFormed_plainSide (isPrimary : Bool) :
    (plainSide isPrimary).body.link.WellFormed .plain :=
  ⟨fun _ hproof => Option.some.inj hproof ▸ wellFormed_plainProof _,
    fun _ hproof => Option.some.inj hproof ▸ wellFormed_plainProof _⟩

/-- Whichever side comes, the records of the same two bases are hashed. -/
theorem hashed_plainSide (isPrimary : Bool) (now : Mics) :
    (Call.receive (.evidence (plainSide isPrimary)) now).hashed .plain ⊆
      [(plainSide true).body.link.keyContent .plain] := List.Subset.refl _

/-- As long as nothing else is hashed there is nothing that could collide. -/
theorem collisionFree_plainSides {calls : List (Call Proof)}
    (h : ∀ c ∈ calls, c.hashed .plain ⊆ [(plainSide true).body.link.keyContent .plain]) :
    Suite.plain.CollisionFree (Call.allHashed .plain calls) := by
  have heq : ∀ o ∈ Call.allHashed .plain calls,
      o = (plainSide true).body.link.keyContent .plain := by
    rintro o ⟨c, hc, ho⟩
    exact List.mem_singleton.mp (h c hc ho)
  intro o ho o' ho' _
  rw [heq o ho, heq o' ho']

/-- The second side of a link meets the first one. -/
theorem receive_run_plainSide :
    ((∀ c ∈ [Call.receive (.evidence (plainSide true)) 3], c.WellFormed Suite.plain) ∧
      (Submission.evidence (plainSide false)).WellFormed Suite.plain ∧
      Suite.plain.CollisionFree (Call.allHashed Suite.plain
        [.receive (.evidence (plainSide false)) 4, .receive (.evidence (plainSide true)) 3])) ∧
    ∃ l, (((new (.padded []) {}).run Suite.plain
      [.receive (.evidence (plainSide true)) 3]).receive Suite.plain
        (.evidence (plainSide false)) 4).1 = .ok (.linked l) := by
  have hsubmission : ∀ isPrimary,
      (Submission.evidence (plainSide isPrimary)).WellFormed Suite.plain := wellFormed_plainSide
  have hcalls : ∀ c ∈ [Call.receive (.evidence (plainSide true)) 3], c.WellFormed Suite.plain :=
    List.forall_mem_singleton.mpr (hsubmission true)
  have hfree : Suite.plain.CollisionFree (Call.allHashed Suite.plain
      [.receive (.evidence (plainSide false)) 4, .receive (.evidence (plainSide true)) 3]) :=
    collisionFree_plainSides (List.forall_mem_cons.mpr
      ⟨hashed_plainSide false 4, List.forall_mem_singleton.mpr (hashed_plainSide true 3)⟩)
  have hfirst : (new (.padded []) {}).examine Suite.plain (plainSide true) 3 = .ok () := by
    decide +kernel
  have hsecond : (plainSide false).verify Suite.plain 3 (LinkerConfig.optionsAt {} 4) = .ok () := by
    decide +kernel
  have hlinker : ∀ seed, Base.linker? (plainProof seed) =
      some (Suite.plain.publicKey (.padded [])) := fun _ => rfl
  have hlink : (plainSide true).body.link = (plainSide false).body.link := rfl
  obtain ⟨-, -, -, hlinked⟩ := receive_run (.padded []) {} hcalls (hsubmission false) hfree
  obtain ⟨l, -, hl⟩ := hlinked _ (waits_of_examine hfirst) (by decide) _ rfl
    ⟨hlinker (.padded [1]), hlinker (.padded [2])⟩ hsecond
    (congrArg (Link.key Suite.plain) hlink) (by decide)
  exact ⟨⟨hcalls, hsubmission false, hfree⟩, l, hl⟩

end Linker

end Settlement
