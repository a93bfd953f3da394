import Settlement.Proofs.Linkage.Verification
import Settlement.Proofs.Linker.Runs

/-!
# Recycled buffers do not show

A pool hands out what other verifications have left in it, and its guards may
be loaded again and again, with either side of any linkage. A session is a pool
with the guards that are out; it is compared with one that keeps nothing, of
which only the number of guards is known and which derives every evidence
afresh. The two answer alike (`PoolSession.answers_eq`), since a load overwrites
all of a buffer. A linker's verdict therefore depends on its parameters alone:
`pooling_unseen`.
-/

namespace Settlement

variable {B : Type}

/-- What is done with a pool. A guard is named by its place among those that are out, the one
rented first being the first. -/
inductive PoolCall (B : Type) where
  | rent
  | load (guard : Nat) (l : Linkage B) (isPrimary : Bool)
  | drop (guard : Nat)
  | verify (l : Linkage B) (o : Options)

/-- What can be seen of a call. -/
inductive PoolAnswer (B : Type) where
  | done
  | loaded (e : LinkedEvidence B)
  | verified (result : Except ValidationFault Unit)
  /-- No such guard is out. -/
  | noGuard

/-- A pool and the guards that are out. -/
structure PoolSession (B : Type) where
  pool : EvidencePool B
  guards : List (Rented B)

namespace PoolSession

variable [Base B]

/-- The answer to a call. -/
def answer (S : Suite) (s : PoolSession B) : PoolCall B → PoolAnswer B
  | .rent => .done
  | .load guard l isPrimary =>
    match s.guards[guard]? with
    | some r => .loaded (r.load l isPrimary)
    | none => .noGuard
  | .drop guard => if guard < s.guards.length then .done else .noGuard
  | .verify l o => .verified (l.verifyWithPool S o s.pool).1

/-- The session after a call. -/
def after (S : Suite) (s : PoolSession B) : PoolCall B → PoolSession B
  | .rent => ⟨s.pool.rent.2, s.guards ++ [s.pool.rent.1]⟩
  | .load guard l isPrimary =>
    match s.guards[guard]? with
    | some r => { s with guards := s.guards.set guard ⟨some (r.load l isPrimary)⟩ }
    | none => s
  | .drop guard =>
    match s.guards[guard]? with
    | some r => ⟨s.pool.release r, s.guards.eraseIdx guard⟩
    | none => s
  | .verify l o => { s with pool := (l.verifyWithPool S o s.pool).2 }

/-- The answers to calls in their order. -/
def answers (S : Suite) (s : PoolSession B) : List (PoolCall B) → List (PoolAnswer B)
  | [] => []
  | c :: calls => s.answer S c :: (s.after S c).answers S calls

end PoolSession

/-! ## Without buffers -/

namespace PoolCall

/-- How many guards are out after a call. -/
def guardsAfter (guards : Nat) : PoolCall B → Nat
  | .rent => guards + 1
  | .drop guard => if guard < guards then guards - 1 else guards
  | .load _ _ _ | .verify _ _ => guards

variable [Base B]

/-- The answer to a call when every evidence is derived afresh. -/
def answerAfresh (S : Suite) (guards : Nat) : PoolCall B → PoolAnswer B
  | .rent => .done
  | .load guard l isPrimary =>
    if guard < guards then .loaded (l.evidence isPrimary) else .noGuard
  | .drop guard => if guard < guards then .done else .noGuard
  | .verify l o => .verified (l.verify S o)

/-- The answers to calls in their order when every evidence is derived afresh. -/
def answersAfresh (S : Suite) : Nat → List (PoolCall B) → List (PoolAnswer B)
  | _, [] => []
  | guards, c :: calls => c.answerAfresh S guards :: answersAfresh S (c.guardsAfter guards) calls

end PoolCall

/-! ## One call, and many -/

namespace PoolSession

variable [Base B] {S : Suite}

theorem answer_eq (s : PoolSession B) (c : PoolCall B) :
    s.answer S c = c.answerAfresh S s.guards.length := by
  cases c with
  | rent => rfl
  | load guard l isPrimary =>
      simp only [answer, PoolCall.answerAfresh]
      by_cases hguard : guard < s.guards.length
      · rw [List.getElem?_eq_getElem hguard, if_pos hguard]
        exact congrArg PoolAnswer.loaded (Rented.load_eq _ l isPrimary)
      · rw [List.getElem?_eq_none (Nat.le_of_not_lt hguard), if_neg hguard]
  | drop guard => rfl
  | verify l o => exact congrArg PoolAnswer.verified (Linkage.fst_verifyWithPool l o s.pool)

/-- What the buffers hold has no part in how many guards are out. -/
theorem length_guards_after (s : PoolSession B) (c : PoolCall B) :
    (s.after S c).guards.length = c.guardsAfter s.guards.length := by
  cases c with
  | rent => exact List.length_append
  | load guard l isPrimary =>
      simp only [after, PoolCall.guardsAfter]
      cases s.guards[guard]? with
      | none => rfl
      | some r => exact List.length_set
  | drop guard =>
      simp only [after, PoolCall.guardsAfter]
      by_cases hguard : guard < s.guards.length
      · rw [List.getElem?_eq_getElem hguard, if_pos hguard]
        exact List.length_eraseIdx_of_lt hguard
      · rw [List.getElem?_eq_none (Nat.le_of_not_lt hguard), if_neg hguard]
  | verify l o => rfl

/-- Calls are answered as without buffers, whatever is idle and whatever the guards hold. -/
theorem answers_eq (s : PoolSession B) (calls : List (PoolCall B)) :
    s.answers S calls = PoolCall.answersAfresh S s.guards.length calls := by
  -- every call may leave other buffers behind, so the induction is for all sessions at once
  induction calls generalizing s with
  | nil => rfl
  | cons c calls ih =>
      simp only [answers, PoolCall.answersAfresh]
      rw [answer_eq, ih, length_guards_after]

end PoolSession

namespace Linker

variable [Base B] [DecidableEq B] [Stored B] {S : Suite}

/-- What has been done with a linker has no part in its verdict on a linkage. -/
theorem fst_verify_run (k : Linker B) (calls : List (Call B)) (l : Linkage B) (now : Mics) :
    ((k.run S calls).verify S l now).1 =
      (l.verify S (k.config.optionsAt now)).mapError .validation := by
  obtain ⟨-, hconfig⟩ := run_terms (S := S) k calls
  rw [fst_verify, hconfig]

end Linker

section

variable [Base B] [DecidableEq B] [Stored B]

/-- **Recycled buffers never show.** Whatever was rented, loaded, dropped and verified before, in
any order and with any guards out, a verification in a buffer of the pool gives the result of one
without, the fault included, and a loaded guard gives the side it was loaded with. So a linker's
verdict on a linkage is that of its own terms at that instant, whatever came to it before. -/
theorem pooling_unseen (S : Suite) :
    (∀ (s : PoolSession B) (calls : List (PoolCall B)),
      s.answers S calls = PoolCall.answersAfresh S s.guards.length calls) ∧
    (∀ (l : Linkage B) (o : Options) (pool : EvidencePool B),
      (l.verifyWithPool S o pool).1 = l.verify S o) ∧
    (∀ (r : Rented B) (l : Linkage B) (isPrimary : Bool),
      r.load l isPrimary = l.evidence isPrimary) ∧
    (∀ (k : Linker B) (calls : List (Call B)) (l : Linkage B) (now : Mics),
      ((k.run S calls).verify S l now).1 =
        (l.verify S (k.config.optionsAt now)).mapError .validation) := by
  refine ⟨?_, Linkage.fst_verifyWithPool, Rented.load_eq, ?_⟩
  · intro s calls
    exact s.answers_eq calls
  · intro k calls l now
    exact k.fst_verify_run calls l now

end

end Settlement
