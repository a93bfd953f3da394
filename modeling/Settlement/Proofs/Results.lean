/-!
# Results of checks

Checks and signing steps are chains of results: the chain succeeds exactly if
every link of it does.
-/

namespace Settlement

variable {ε ε' α β : Type}

theorem bind_eq_ok_iff {r : Except ε α} {f : α → Except ε β} {y : β} :
    (r >>= f) = .ok y ↔ ∃ x, r = .ok x ∧ f x = .ok y := by
  cases r with
  | error fault => exact ⟨nofun, nofun⟩
  | ok x => exact ⟨fun h => ⟨x, rfl, h⟩, fun ⟨_, hx, h⟩ => Except.ok.inj hx ▸ h⟩

/-- A check and what follows it. -/
theorem check_bind_eq_ok_iff {r : Except ε Unit} {f : Unit → Except ε β} {y : β} :
    (r >>= f) = .ok y ↔ r = .ok () ∧ f () = .ok y :=
  bind_eq_ok_iff.trans ⟨fun ⟨_, hr, hf⟩ => ⟨hr, hf⟩, fun ⟨hr, hf⟩ => ⟨(), hr, hf⟩⟩

theorem mapError_eq_ok_iff {r : Except ε α} {f : ε → ε'} {x : α} :
    r.mapError f = .ok x ↔ r = .ok x := by
  cases r with
  | error fault => exact ⟨nofun, nofun⟩
  | ok y => exact ⟨fun h => congrArg _ (Except.ok.inj h), fun h => congrArg _ (Except.ok.inj h)⟩

/-- A check and what follows it fail with the first fault there is. -/
theorem check_bind_eq_error_iff {r : Except ε Unit} {f : Unit → Except ε β} {fault : ε} :
    (r >>= f) = .error fault ↔ r = .error fault ∨ r = .ok () ∧ f () = .error fault := by
  cases r with
  | error fault' =>
      show Except.error fault' = _ ↔ _
      constructor
      · intro h
        exact .inl (congrArg _ (Except.error.inj h))
      · rintro (h | ⟨h, -⟩)
        · exact congrArg _ (Except.error.inj h)
        · cases h
  | ok _ =>
      show f () = _ ↔ _
      constructor
      · intro h
        exact .inr ⟨rfl, h⟩
      · rintro (h | ⟨-, h⟩)
        · cases h
        · exact h

theorem mapError_eq_error_iff {r : Except ε α} {f : ε → ε'} {fault : ε'} :
    r.mapError f = .error fault ↔ ∃ reason, r = .error reason ∧ fault = f reason := by
  cases r with
  | error reason =>
      show Except.error (f reason) = _ ↔ _
      constructor
      · intro h
        exact ⟨reason, rfl, (Except.error.inj h).symm⟩
      · rintro ⟨reason', h, rfl⟩
        rw [Except.error.inj h]
  | ok x => exact ⟨nofun, nofun⟩

/-- What does not succeed fails. -/
theorem exists_error_iff {r : Except ε Unit} : (∃ fault, r = .error fault) ↔ r ≠ .ok () := by
  cases r with
  | error fault => exact ⟨fun _ => nofun, fun _ => ⟨fault, rfl⟩⟩
  | ok x => exact ⟨nofun, fun h => absurd rfl h⟩

end Settlement
