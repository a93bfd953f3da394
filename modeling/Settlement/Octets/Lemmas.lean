import Mathlib.Algebra.Group.Nat.Defs
import Mathlib.Data.List.Induction
import Settlement.Octets.Basic

/-!
# Numbers and octet strings

Writing a number in octets and reading it are inverse to each other on the
numbers that fit the width: `ofBigEndian_bigEndian` and `bigEndian_ofBigEndian`.
So octet strings of one length are equal when the numbers are, `ofBigEndian_inj`.
-/

namespace Settlement.Octets

/-- Writing keeps every number that fits the width. -/
theorem ofBigEndian_bigEndian {width n : Nat} (h : n < 256 ^ width) :
    ofBigEndian (bigEndian width n) = n := by
  induction width generalizing n with
  | zero =>
    have : n = 0 := by simpa using h
    subst this
    rfl
  | succ width ih =>
    have hq : n / 256 < 256 ^ width :=
      (Nat.div_lt_iff_lt_mul (by decide)).2 (by simpa [Nat.pow_succ] using h)
    rw [bigEndian, ofBigEndian_append_singleton, ih hq]
    simp only [UInt8.toNat_ofNat']
    omega

/-- Numbers that fit the width are equal when their octets are. -/
theorem bigEndian_inj {width n k : Nat} (hn : n < 256 ^ width) (hk : k < 256 ^ width)
    (h : bigEndian width n = bigEndian width k) : n = k := by
  rw [← ofBigEndian_bigEndian hn, h, ofBigEndian_bigEndian hk]

/-- Reading keeps the octets: no two octet strings of one length write one number. -/
theorem bigEndian_ofBigEndian (o : Octets) : bigEndian o.length (ofBigEndian o) = o := by
  induction h : o.length generalizing o with
  | zero => simp_all [bigEndian]
  | succ width ih =>
    obtain ⟨init, last, rfl⟩ : ∃ init last, o = init ++ [last] :=
      ⟨o.dropLast, o.getLast (by rintro rfl; simp at h), (List.dropLast_concat_getLast _).symm⟩
    have hw : init.length = width := by simpa using h
    have hlast : last.toNat < 256 := last.toNat_lt
    have hq : (ofBigEndian init * 256 + last.toNat) / 256 = ofBigEndian init := by omega
    rw [ofBigEndian_append_singleton, bigEndian, hq, ih init hw]
    congr 2
    apply UInt8.toNat_inj.1
    simp only [UInt8.toNat_ofNat']
    omega

/-- Octets write a number that fits them. -/
theorem ofBigEndian_lt (o : Octets) : ofBigEndian o < 256 ^ o.length := by
  induction o using List.reverseRecOn with
  | nil => exact Nat.one_pos
  | append_singleton init last ih =>
    have hlast : last.toNat < 256 := last.toNat_lt
    rw [ofBigEndian_append_singleton, List.length_append, List.length_singleton, Nat.pow_succ]
    omega

/-- Octet strings of one length that write one number are equal. -/
theorem ofBigEndian_inj {a b : Octets} (hlen : a.length = b.length)
    (h : ofBigEndian a = ofBigEndian b) : a = b := by
  rw [← bigEndian_ofBigEndian a, ← bigEndian_ofBigEndian b, h, hlen]

end Settlement.Octets
