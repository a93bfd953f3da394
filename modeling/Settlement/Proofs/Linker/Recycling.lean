import Settlement.Proofs.Linker.Matching
import Settlement.Proofs.Linker.Pooling

/-!
# How many buffers are kept

A pool never keeps more buffers than it has room for, and it loses none that it
has room for: `pool_bounded`. What a call does to the number of idle buffers
depends on counts alone, on how many are idle and which guards hold one. A tally
keeps these counts and looks into no buffer; it is the tally of the session after
every run (`PoolSession.tally_run`).

A verification is a guard that is rented, loaded and dropped
(`PoolSession.after_verify`), and where it stops shows only in how often the guard
is loaded. Verifications that run side by side are therefore runs of such calls
as well.
-/

namespace Settlement

variable {B : Type}

/-- How many buffers are idle, and which of the guards that are out hold one. -/
structure PoolTally where
  idle : Nat
  holds : List Bool

namespace PoolSession

/-- A pool without idle buffers, and no guards. -/
def new (capacity : Nat) : PoolSession B := ⟨.empty capacity, []⟩

/-- The counts of a session. -/
def tally (s : PoolSession B) : PoolTally := ⟨s.pool.available, s.guards.map (·.buffer.isSome)⟩

theorem length_holds (s : PoolSession B) : s.tally.holds.length = s.guards.length :=
  List.length_map _

variable [Base B]

/-- The session after calls in their order. -/
def run (S : Suite) (s : PoolSession B) (calls : List (PoolCall B)) : PoolSession B :=
  calls.foldl (after S) s

end PoolSession

namespace PoolTally

/-- No buffer is idle and no guard is out. -/
def new : PoolTally := ⟨0, []⟩

variable [Base B]

/-- The counts after a call on a pool of the given capacity. A guard holds a buffer if one was idle
when it was rented, and from when it is loaded on. -/
def after (S : Suite) (capacity : Nat) (t : PoolTally) : PoolCall B → PoolTally
  | .rent => ⟨t.idle - 1, t.holds ++ [decide (0 < t.idle)]⟩
  | .load guard _ _ => { t with holds := t.holds.set guard true }
  | .drop guard =>
    ⟨if t.holds[guard]? = some true ∧ t.idle < capacity then t.idle + 1 else t.idle,
      t.holds.eraseIdx guard⟩
  | .verify l o =>
    match l.verifyBases S o with
    | .error _ => t
    | .ok () => { t with idle := max t.idle (min 1 capacity) }

/-- The counts after calls in their order. -/
def run (S : Suite) (capacity : Nat) (t : PoolTally) (calls : List (PoolCall B)) : PoolTally :=
  calls.foldl (after S capacity) t

/-- There is room for the idle buffers before a call, so there is after it. -/
theorem idle_after_le {S : Suite} {capacity : Nat} {t : PoolTally} (h : t.idle ≤ capacity)
    (c : PoolCall B) : (t.after S capacity c).idle ≤ capacity := by
  cases c with
  | rent => exact Nat.le_trans (Nat.sub_le _ _) h
  | load guard l isPrimary => exact h
  | drop guard =>
      simp only [after]
      split <;> omega
  | verify l o =>
      simp only [after]
      split
      · exact h
      · exact Nat.max_le.mpr ⟨h, Nat.min_le_right _ _⟩

end PoolTally

/-! ## A pool's own calls -/

namespace EvidencePool

theorem capacity_rent (p : EvidencePool B) : p.rent.2.capacity = p.capacity := by
  unfold rent
  split <;> rfl

/-- A guard holds a buffer from the start if one was idle, which then is idle no more. -/
theorem counts_rent (p : EvidencePool B) : p.rent.2.available = p.available - 1 ∧
    p.rent.1.buffer.isSome = decide (0 < p.available) := by
  unfold rent available
  split
  · next h => simp [h]
  · next e rest h => simp [h]

theorem capacity_release (p : EvidencePool B) (r : Rented B) :
    (p.release r).capacity = p.capacity := by
  unfold release
  split
  · split <;> rfl
  · rfl

/-- A buffer goes back while there is room. -/
theorem available_release (p : EvidencePool B) (r : Rented B) :
    (p.release r).available =
      if r.buffer.isSome ∧ p.available < p.capacity then p.available + 1 else p.available := by
  unfold release available
  cases r.buffer with
  | none => simp
  | some e =>
      by_cases h : p.idle.length < p.capacity
      · simp [h]
      · simp [h]

end EvidencePool

/-! ## A verification taken apart -/

namespace PoolCall

/-- What a verification does with the pool once the bases have verified. The guard is dropped
wherever the verification stops, and the second side is loaded only behind the first one. -/
def steps [Base B] (S : Suite) (l : Linkage B) (o : Options) (guard : Nat) : List (PoolCall B) :=
  match (l.evidence true).checkSignatures S o.mergerCap with
  | .error _ => [.rent, .load guard l true, .drop guard]
  | .ok () => [.rent, .load guard l true, .load guard l false, .drop guard]

end PoolCall

namespace PoolSession

variable [Base B] {S : Suite} {l : Linkage B} {o : Options}

theorem after_verify_of_error {fault : ValidationFault} (s : PoolSession B)
    (h : l.verifyBases S o = .error fault) : s.after S (.verify l o) = s := by
  simp only [after, Linkage.verifyWithPool, h]

theorem after_load_last (pool : EvidencePool B) (guards : List (Rented B)) (r : Rented B)
    (isPrimary : Bool) :
    (PoolSession.mk pool (guards ++ [r])).after S (.load guards.length l isPrimary) =
      ⟨pool, guards ++ [⟨some (l.evidence isPrimary)⟩]⟩ := by
  simp [after, Rented.load_eq]

theorem after_drop_last (pool : EvidencePool B) (guards : List (Rented B)) (r : Rented B) :
    (PoolSession.mk pool (guards ++ [r])).after S (.drop guards.length) =
      ⟨pool.release r, guards⟩ := by
  simp [after, List.eraseIdx_append_of_length_le]

/-- **A verification is a guard that comes and goes**, unless the bases fail. -/
theorem after_verify (s : PoolSession B) (h : l.verifyBases S o = .ok ()) :
    s.after S (.verify l o) = s.run S (PoolCall.steps S l o s.guards.length) := by
  obtain ⟨pool, guards⟩ := s
  have hrent : (PoolSession.mk pool guards).after S .rent =
      ⟨pool.rent.2, guards ++ [pool.rent.1]⟩ := rfl
  unfold PoolCall.steps
  simp only [after, Linkage.verifyWithPool, h, Linkage.verifyIn, Rented.load_eq]
  cases (l.evidence true).checkSignatures S o.mergerCap with
  | error fault =>
      simp only [run, List.foldl_cons, List.foldl_nil, hrent, after_load_last, after_drop_last]
  | ok _ =>
      simp only [run, List.foldl_cons, List.foldl_nil, hrent, after_load_last, after_drop_last]
      cases (l.evidence false).checkSignatures S o.mergerCap <;> rfl

/-! ## Counts -/

theorem capacity_after (s : PoolSession B) (c : PoolCall B) :
    (s.after S c).pool.capacity = s.pool.capacity := by
  cases c with
  | rent => exact s.pool.capacity_rent
  | load guard l isPrimary =>
      simp only [after]
      split <;> rfl
  | drop guard =>
      simp only [after]
      split
      · exact s.pool.capacity_release _
      · rfl
  | verify l o =>
      simp only [after, Linkage.verifyWithPool]
      split
      · rfl
      · exact (EvidencePool.capacity_release _ _).trans s.pool.capacity_rent

/-- A call that is no verification changes the counts as the tally says. -/
theorem tally_after_call (s : PoolSession B) {c : PoolCall B} (hc : ∀ l o, c ≠ .verify l o) :
    (s.after S c).tally = s.tally.after S s.pool.capacity c := by
  cases c with
  | rent =>
      obtain ⟨hidle, hholds⟩ := s.pool.counts_rent
      simp only [tally, after, PoolTally.after, List.map_append, List.map_cons, List.map_nil,
        hidle, hholds]
      rfl
  | load guard l isPrimary =>
      simp only [after, PoolTally.after]
      cases hguard : s.guards[guard]? with
      | none =>
          have hlen : s.tally.holds.length ≤ guard :=
            s.length_holds ▸ List.getElem?_eq_none_iff.mp hguard
          rw [List.set_eq_of_length_le hlen]
      | some r =>
          simp only [tally, List.map_set]
          rfl
  | drop guard =>
      simp only [after, PoolTally.after]
      cases hguard : s.guards[guard]? with
      | none =>
          have hlen : s.tally.holds.length ≤ guard :=
            s.length_holds ▸ List.getElem?_eq_none_iff.mp hguard
          rw [List.eraseIdx_of_length_le hlen, List.getElem?_eq_none hlen]
          rfl
      | some r =>
          simp only [tally, EvidencePool.available_release, List.eraseIdx_map, List.getElem?_map,
            hguard, Option.map_some, Option.some.injEq]
  | verify l o => exact absurd rfl (hc l o)

theorem run_cons (s : PoolSession B) (c : PoolCall B) (calls : List (PoolCall B)) :
    s.run S (c :: calls) = (s.after S c).run S calls := rfl

theorem tally_run_calls (s : PoolSession B) {calls : List (PoolCall B)}
    (hcalls : ∀ c ∈ calls, ∀ l o, c ≠ .verify l o) :
    (s.run S calls).tally = s.tally.run S s.pool.capacity calls := by
  induction calls generalizing s with
  | nil => rfl
  | cons c calls ih =>
      obtain ⟨hc, hrest⟩ := List.forall_mem_cons.mp hcalls
      rw [run_cons, ih _ hrest, tally_after_call s hc, capacity_after]
      rfl

end PoolSession

theorem PoolCall.steps_ne_verify [Base B] {S : Suite} {l : Linkage B} {o : Options} {guard : Nat} :
    ∀ c ∈ PoolCall.steps S l o guard, ∀ l' o', c ≠ .verify l' o' := by
  unfold PoolCall.steps
  split <;> simp

/-- The guard of a verification takes an idle buffer or makes one, and leaves it behind if there is
room, as there is for one that was idle. -/
theorem PoolTally.run_steps [Base B] {S : Suite} {l : Linkage B} {o : Options} {capacity : Nat}
    {t : PoolTally} (h : t.idle ≤ capacity) :
    t.run S capacity (PoolCall.steps S l o t.holds.length) =
      { t with idle := max t.idle (min 1 capacity) } := by
  obtain ⟨idle, holds⟩ := t
  have hidle : (if idle - 1 < capacity then idle - 1 + 1 else idle - 1) =
      max idle (min 1 capacity) := by
    have hle : idle ≤ capacity := h
    split <;> omega
  unfold PoolCall.steps
  split <;>
    simp [run, after, List.eraseIdx_append_of_length_le, hidle]

namespace PoolSession

variable [Base B] {S : Suite}

/-- **Every call changes the counts as the tally says.** -/
theorem tally_after (s : PoolSession B) (h : s.pool.available ≤ s.pool.capacity)
    (c : PoolCall B) : (s.after S c).tally = s.tally.after S s.pool.capacity c := by
  cases c with
  | verify l o =>
      simp only [PoolTally.after]
      cases hbases : l.verifyBases S o with
      | error fault => rw [after_verify_of_error s hbases]
      | ok _ =>
          rw [after_verify s hbases, tally_run_calls s PoolCall.steps_ne_verify, ← s.length_holds,
            PoolTally.run_steps h]
  | _ => exact tally_after_call s nofun

/-- **The counts of a run are those of its tally**, and there is room for the idle buffers. -/
theorem tally_run (s : PoolSession B) (h : s.pool.available ≤ s.pool.capacity)
    (calls : List (PoolCall B)) :
    (s.run S calls).tally = s.tally.run S s.pool.capacity calls ∧
      (s.run S calls).pool.capacity = s.pool.capacity ∧
      (s.run S calls).pool.available ≤ s.pool.capacity := by
  induction calls generalizing s with
  | nil => exact ⟨rfl, rfl, h⟩
  | cons c calls ih =>
      have hafter := tally_after (S := S) s h c
      have hroom : (s.after S c).pool.available ≤ s.pool.capacity := by
        have hidle := PoolTally.idle_after_le (S := S) (t := s.tally) h c
        rwa [← hafter] at hidle
      have hrun := ih (s.after S c) (by rwa [capacity_after])
      rw [hafter, capacity_after] at hrun
      exact hrun

end PoolSession

/-- **A pool is bounded and loses nothing it has room for.** After any run there are at most as many
idle buffers as the pool has room for. Dropping a guard leaves one more exactly if the guard holds a
buffer and there is room, and a guard holds one exactly if one was idle when it was rented or it has
been loaded since, which is how the tally counts. A verification whose bases fail leaves the pool
alone; any other one, wherever it stops, leaves as many as there were, or one if there were none and
there is room. -/
theorem pool_bounded [Base B] (S : Suite) (capacity : Nat) (calls : List (PoolCall B)) :
    let s := (PoolSession.new capacity).run S calls
    s.pool.capacity = capacity ∧ s.pool.available ≤ capacity ∧
    s.tally = PoolTally.new.run S capacity calls ∧
    (∀ guard r, s.guards[guard]? = some r →
      (s.after S (.drop guard)).pool.available =
        if r.buffer.isSome ∧ s.pool.available < capacity then s.pool.available + 1
        else s.pool.available) ∧
    (∀ (l : Linkage B) (o : Options) (fault : ValidationFault), l.verifyBases S o = .error fault →
      (s.after S (.verify l o)).pool.available = s.pool.available) ∧
    (∀ (l : Linkage B) (o : Options), l.verifyBases S o = .ok () →
      (s.after S (.verify l o)).pool.available = max s.pool.available (min 1 capacity)) := by
  intro s
  obtain ⟨htally, hcapacity, hroom⟩ :=
    PoolSession.tally_run (S := S) (PoolSession.new capacity) (Nat.zero_le _) calls
  have hcapacity : s.pool.capacity = capacity := hcapacity
  have hroom : s.pool.available ≤ s.pool.capacity := hcapacity.symm ▸ hroom
  refine ⟨hcapacity, hcapacity ▸ hroom, htally, ?_, ?_, ?_⟩
  · intro guard r hguard
    simp only [PoolSession.after, hguard, EvidencePool.available_release, hcapacity]
  · intro l o fault hbases
    rw [PoolSession.after_verify_of_error s hbases]
  · intro l o hbases
    have hafter := congrArg PoolTally.idle (s.tally_after (S := S) hroom (.verify l o))
    simp only [PoolTally.after, hbases, hcapacity] at hafter
    exact hafter

/-- A linkage that its linker has not signed. -/
def unsignedLinkage : Linkage Proof :=
  .join (Linker.plainSide true) (Linker.plainSide false)

/-- Of two loaded guards a pool for one buffer keeps the one that is dropped first, and a
verification that fails at its last step leaves it there. -/
theorem pool_bounded_unsignedLinkage :
    let s := (PoolSession.new 1).run .plain [.rent, .rent, .load 0 unsignedLinkage true,
      .load 1 unsignedLinkage false, .drop 1]
    s.pool.available = 1 ∧ (s.after .plain (.drop 0)).pool.available = 1 ∧
    unsignedLinkage.verifyBases .plain { now := 5 } = .ok () ∧
    unsignedLinkage.verify .plain { now := 5 } = .error .missingLinkerSignature ∧
    (s.after .plain (.verify unsignedLinkage { now := 5 })).pool.available = 1 := by
  intro s
  have hbases : unsignedLinkage.verifyBases .plain { now := 5 } = .ok () := by decide +kernel
  have hverify : unsignedLinkage.verify .plain { now := 5 } =
    .error .missingLinkerSignature := by decide +kernel
  have havailable : s.pool.available = 1 := rfl
  obtain ⟨-, -, -, hdrop, -, hverified⟩ := pool_bounded .plain 1 [.rent, .rent,
    .load 0 unsignedLinkage true, .load 1 unsignedLinkage false, .drop 1]
  exact ⟨havailable, hdrop 0 _ rfl, hbases, hverify, hverified _ _ hbases⟩

end Settlement
