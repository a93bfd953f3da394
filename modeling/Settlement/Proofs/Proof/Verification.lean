import Settlement.Evidence.Base
import Settlement.Proofs.Results

/-!
# When proofs and contracts verify

A proof verifies exactly if its window is sound and holds the instant, unless
that does not count, and its signature is one of the key that it asks for. A
contract verifies exactly if its amounts are sound and its proof is still there
and verifies.
-/

namespace Settlement

namespace Proof

variable {S : Suite} {p : Proof} {o : Options}

theorem checkWindow_eq_ok_iff : p.checkWindow o = .ok () ↔
    (0 < p.expirationMics.minus p.signedMics ∧
      p.expirationMics.minus p.signedMics ≤ o.policy.maxValid) ∧
    (o.ignoreExpiration = true ∨ p.signedMics.minus o.policy.margin ≤ o.now ∧
      o.now ≤ p.expirationMics.plus o.policy.margin) := by
  unfold checkWindow
  simp only
  split
  · next hlength =>
    refine iff_of_false nofun fun ⟨⟨hpos, hmax⟩, _⟩ => ?_
    rcases hlength with hlength | hlength
    · exact Int64.not_le.mpr hpos hlength
    · exact Int64.not_le.mpr hlength hmax
  · next hlength =>
    rw [not_or, Int64.not_le, Int64.not_lt] at hlength
    split
    · next hignore => exact iff_of_true rfl ⟨hlength, .inl hignore⟩
    · next hignore =>
      split
      · next hearly =>
        refine iff_of_false nofun fun ⟨_, h⟩ => ?_
        rcases h with h | ⟨h, -⟩
        · exact hignore h
        · exact Int64.not_le.mpr hearly h
      · next hearly =>
        split
        · next hlate =>
          refine iff_of_false nofun fun ⟨_, h⟩ => ?_
          rcases h with h | ⟨-, h⟩
          · exact hignore h
          · exact Int64.not_le.mpr hlate h
        · next hlate =>
          exact iff_of_true rfl ⟨hlength, .inr ⟨Int64.not_lt.mp hearly, Int64.not_lt.mp hlate⟩⟩

theorem checkSignature_eq_ok_iff : p.checkSignature S o = .ok () ↔
    ∃ signature key, p.signature = some signature ∧
      p.signatureKey o.policy.root = some key ∧
      key.accepts S (p.signerMessage S) signature = true := by
  unfold checkSignature
  cases p.signature with
  | none => exact iff_of_false nofun fun ⟨_, _, h, _⟩ => nomatch h
  | some signature =>
      cases p.signatureKey o.policy.root with
      | none => exact iff_of_false nofun fun ⟨_, _, _, h, _⟩ => nomatch h
      | some key =>
          simp only [Option.some.injEq, exists_and_left, exists_eq_left']
          split
          · next h => exact iff_of_true rfl h
          · next h => exact iff_of_false nofun h

theorem verify_eq_ok_iff : p.verify S o = .ok () ↔
    p.checkWindow o = .ok () ∧ p.checkSignature S o = .ok () :=
  check_bind_eq_ok_iff

end Proof

theorem Contract.verify_eq_ok_iff {S : Suite} {c : Contract} {o : Options} :
    c.verify S o = .ok () ↔ c.checkAmounts = .ok () ∧
      ∃ p, c.proof? = some p ∧ p.verify S o = .ok () := by
  unfold verify checkProof
  rw [check_bind_eq_ok_iff]
  refine and_congr_right fun _ => ?_
  cases c.proof? with
  | none => exact iff_of_false nofun fun ⟨_, h, _⟩ => nomatch h
  | some p => simp only [Option.some.injEq, exists_eq_left']

end Settlement
