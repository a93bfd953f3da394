import Settlement.Proofs.Results
import Settlement.Text.Numeral

/-!
# What numerals are read

A text is read as an integer exactly if it is a numeral of it, an optional sign
and one decimal digit or more: `Numeral.parse_eq_ok_iff`. A numeral may have zeros
in front and a plus sign; the one that is written is among them
(`Numeral.denotes_toString`).

Reading stops as soon as the digits so far leave the range. It may, since
further digits only lead further away (`Numeral.le_ofDigitChars`).
-/

namespace Settlement.Numeral

/-- One decimal digit or more. -/
structure IsDigits (ds : List Char) : Prop where
  ne_nil : ds ≠ []
  isDigit : ∀ c ∈ ds, c.isDigit = true

/-- The number with the given sign. -/
def signed (negative : Bool) (n : Nat) : Int := if negative then -n else n

/-- The text is a numeral of the integer. -/
inductive Denotes : List Char → Int → Prop
  | unsigned {ds : List Char} : IsDigits ds → Denotes ds (Nat.ofDigitChars 10 ds 0)
  | plus {ds : List Char} : IsDigits ds → Denotes ('+' :: ds) (Nat.ofDigitChars 10 ds 0)
  | minus {ds : List Char} : IsDigits ds → Denotes ('-' :: ds) (-(Nat.ofDigitChars 10 ds 0))

/-- The integer has 64 bits. -/
def Fits (n : Int) : Prop := Int64.minValue.toInt ≤ n ∧ n ≤ Int64.maxValue.toInt

theorem fits_toInt (n : Int64) : Fits n.toInt := ⟨n.minValue_le_toInt, n.toInt_le⟩

/-! ## Digits -/

theorem digitValue?_of_isDigit {c : Char} (h : c.isDigit = true) :
    digitValue? c = some (c.toNat - '0'.toNat) := by
  simp only [Char.isDigit, Bool.and_eq_true, decide_eq_true_eq] at h
  exact if_pos h

theorem digitValue?_of_not_isDigit {c : Char} (h : ¬ c.isDigit = true) : digitValue? c = none := by
  simp only [Char.isDigit, Bool.and_eq_true, decide_eq_true_eq] at h
  exact if_neg h

theorem le_ofDigitChars (ds : List Char) (v : Nat) : v ≤ Nat.ofDigitChars 10 ds v := by
  rw [Nat.ofDigitChars_eq_ofDigitChars_zero]
  have hpos : 1 ≤ 10 ^ ds.length := Nat.one_le_pow _ _ (by decide)
  have hmul : 1 * v ≤ 10 ^ ds.length * v := Nat.mul_le_mul_right v hpos
  omega

/-- What has left the range does not come back. -/
theorem fits_of_le {negative : Bool} {v w : Nat} (h : v ≤ w) (hw : Fits (signed negative w)) :
    Fits (signed negative v) := by
  have hmin : Int64.minValue.toInt ≤ 0 := by decide
  have hmax : 0 ≤ Int64.maxValue.toInt := by decide
  unfold Fits signed at *
  split <;> simp_all <;> omega

section

variable {negative : Bool} {v : Nat} {c : Char} {ds : List Char}

/-- One digit more. -/
theorem digits_cons (hc : c.isDigit = true) :
    digits negative (signed negative v) (c :: ds) =
      let next := signed negative (10 * v + (c.toNat - '0'.toNat))
      if next < Int64.minValue.toInt then .error .tooSmall
      else if Int64.maxValue.toInt < next then .error .tooLarge
      else digits negative next ds := by
  have hnext : (if negative then signed negative v * 10 - (c.toNat - '0'.toNat : Nat)
      else signed negative v * 10 + (c.toNat - '0'.toNat : Nat)) =
      signed negative (10 * v + (c.toNat - '0'.toNat)) := by
    unfold signed
    split <;> push_cast <;> omega
  simp only [digits, digitValue?_of_isDigit hc, hnext]

theorem digits_cons_of_fits (hc : c.isDigit = true)
    (h : Fits (signed negative (10 * v + (c.toNat - '0'.toNat)))) :
    digits negative (signed negative v) (c :: ds) =
      digits negative (signed negative (10 * v + (c.toNat - '0'.toNat))) ds := by
  rw [digits_cons hc]
  exact (if_neg (Int.not_lt.mpr h.1)).trans (if_neg (Int.not_lt.mpr h.2))

theorem digits_cons_ne_ok (hc : c.isDigit = true)
    (h : ¬ Fits (signed negative (10 * v + (c.toNat - '0'.toNat)))) (n : Int) :
    digits negative (signed negative v) (c :: ds) ≠ .ok n := by
  rw [digits_cons hc]
  intro hok
  simp only at hok
  split at hok
  · cases hok
  · split at hok
    · cases hok
    · exact h ⟨Int.not_lt.mp ‹_›, Int.not_lt.mp ‹_›⟩

theorem digits_eq_ok_iff {n : Int} (hv : Fits (signed negative v)) :
    digits negative (signed negative v) ds = .ok n ↔
      (∀ c ∈ ds, c.isDigit = true) ∧ n = signed negative (Nat.ofDigitChars 10 ds v) ∧ Fits n := by
  induction ds generalizing v with
  | nil =>
      rw [digits, Except.ok.injEq, Nat.ofDigitChars_nil]
      constructor
      · rintro rfl
        exact ⟨nofun, rfl, hv⟩
      · exact fun h => h.2.1.symm
  | cons c ds ih =>
      rw [List.forall_mem_cons, Nat.ofDigitChars_cons]
      by_cases hc : c.isDigit = true
      · by_cases hfits : Fits (signed negative (10 * v + (c.toNat - '0'.toNat)))
        · rw [digits_cons_of_fits hc hfits, ih hfits, and_iff_right hc]
        · refine iff_of_false (digits_cons_ne_ok hc hfits n) ?_
          rintro ⟨-, rfl, hn⟩
          exact hfits (fits_of_le (le_ofDigitChars _ _) hn)
      · refine iff_of_false ?_ fun h => hc h.1.1
        simp only [digits, digitValue?_of_not_isDigit hc]
        exact nofun

end

/-! ## Numerals -/

theorem unsigned_eq_ok_iff {negative : Bool} {ds : List Char} {n : Int} :
    unsigned negative ds = .ok n ↔
      IsDigits ds ∧ n = signed negative (Nat.ofDigitChars 10 ds 0) ∧ Fits n := by
  cases ds with
  | nil => exact ⟨nofun, fun h => absurd rfl h.1.ne_nil⟩
  | cons c ds =>
      have hzero : signed negative 0 = 0 := by cases negative <;> rfl
      have hfits : Fits (signed negative 0) := by
        rw [hzero]
        exact fits_toInt 0
      have hdigits : digits negative (signed negative 0) (c :: ds) = .ok n ↔ _ :=
        digits_eq_ok_iff hfits
      rw [hzero] at hdigits
      exact hdigits.trans (and_congr_left' ⟨fun h => ⟨nofun, h⟩, IsDigits.isDigit⟩)

/-- The integer of a numeral is the one with its 64 bits. -/
theorem ofInt_map_eq_ok_iff {r : Except Fault Int} {n : Int64}
    (hr : ∀ m, r = .ok m → Fits m) : Int64.ofInt <$> r = .ok n ↔ r = .ok n.toInt := by
  cases r with
  | error fault => exact ⟨nofun, nofun⟩
  | ok m =>
      obtain ⟨hmin, hmax⟩ := hr m rfl
      have hm : (Int64.ofInt m).toInt = m :=
        Int64.toInt_ofInt_of_le (by simpa using hmin)
          (Int.lt_of_le_of_lt hmax (by decide))
      show Except.ok (Int64.ofInt m) = _ ↔ _
      rw [Except.ok.injEq, Except.ok.injEq]
      constructor
      · rintro rfl
        exact hm.symm
      · rintro rfl
        exact Int64.ofInt_toInt n

theorem denotes_plus_iff {ds : List Char} {n : Int} :
    Denotes ('+' :: ds) n ↔ IsDigits ds ∧ n = signed false (Nat.ofDigitChars 10 ds 0) := by
  constructor
  · rintro (h | h)
    · exact absurd (h.isDigit _ (.head _)) (by decide)
    · exact ⟨h, rfl⟩
  · rintro ⟨h, rfl⟩
    exact .plus h

theorem denotes_minus_iff {ds : List Char} {n : Int} :
    Denotes ('-' :: ds) n ↔ IsDigits ds ∧ n = signed true (Nat.ofDigitChars 10 ds 0) := by
  constructor
  · rintro (h | - | h)
    · exact absurd (h.isDigit _ (.head _)) (by decide)
    · exact ⟨h, rfl⟩
  · rintro ⟨h, rfl⟩
    exact .minus h

theorem denotes_unsigned_iff {cs : List Char} {n : Int} (hplus : ∀ ds, cs ≠ '+' :: ds)
    (hminus : ∀ ds, cs ≠ '-' :: ds) :
    Denotes cs n ↔ IsDigits cs ∧ n = signed false (Nat.ofDigitChars 10 cs 0) := by
  constructor
  · rintro (h | h | h)
    · exact ⟨h, rfl⟩
    · exact absurd rfl (hplus _)
    · exact absurd rfl (hminus _)
  · rintro ⟨h, rfl⟩
    exact .unsigned h

/-- **What numerals are read.** A text is read as an integer exactly if it is a numeral of it. -/
theorem parse_eq_ok_iff {cs : List Char} {n : Int64} : parse cs = .ok n ↔ Denotes cs n.toInt := by
  have hfits : ∀ (negative : Bool) (ds : List Char) (m : Int),
      unsigned negative ds = .ok m → Fits m := fun _ _ _ h => (unsigned_eq_ok_iff.mp h).2.2
  unfold parse
  split
  · refine iff_of_false nofun fun h => ?_
    obtain ⟨hdigits, -⟩ := (denotes_unsigned_iff (fun _ => (List.cons_ne_nil _ _).symm)
      (fun _ => (List.cons_ne_nil _ _).symm)).mp h
    exact hdigits.ne_nil rfl
  · rw [ofInt_map_eq_ok_iff (hfits _ _), unsigned_eq_ok_iff, denotes_plus_iff,
      and_iff_left (fits_toInt n)]
  · rw [ofInt_map_eq_ok_iff (hfits _ _), unsigned_eq_ok_iff, denotes_minus_iff,
      and_iff_left (fits_toInt n)]
  · next hplus hminus =>
    rw [ofInt_map_eq_ok_iff (hfits _ _), unsigned_eq_ok_iff,
      denotes_unsigned_iff (fun ds h => hplus ds h) (fun ds h => hminus ds h),
      and_iff_left (fits_toInt n)]

/-- A numeral holds signs and digits. -/
theorem Denotes.sign_or_digit {cs : List Char} {n : Int} (h : Denotes cs n) :
    ∀ c ∈ cs, c = '+' ∨ c = '-' ∨ c.isDigit = true := by
  intro c hc
  rcases h with h | h | h
  · exact .inr (.inr (h.isDigit c hc))
  · rcases List.mem_cons.mp hc with rfl | hc
    · exact .inl rfl
    · exact .inr (.inr (h.isDigit c hc))
  · rcases List.mem_cons.mp hc with rfl | hc
    · exact .inr (.inl rfl)
    · exact .inr (.inr (h.isDigit c hc))

/-- An integer as it is written is a numeral of it. -/
theorem denotes_toString (n : Int) : Denotes (toString n).toList n := by
  have hdigits : ∀ m : Nat, IsDigits (Nat.toDigits 10 m) := fun m =>
    ⟨Nat.toDigits_ne_nil, fun c hc => Nat.isDigit_of_mem_toDigits (by decide) (by decide) hc⟩
  cases n with
  | ofNat m =>
      have h := Denotes.unsigned (hdigits m)
      rw [Nat.ofDigitChars_ten_toDigits] at h
      show Denotes m.repr.toList _
      rwa [Nat.repr_eq_ofList_toDigits, String.toList_ofList]
  | negSucc m =>
      have h := Denotes.minus (hdigits m.succ)
      rw [Nat.ofDigitChars_ten_toDigits] at h
      show Denotes ("-" ++ m.succ.repr).toList _
      rw [Nat.repr_eq_ofList_toDigits, String.toList_append, String.toList_ofList,
        String.toList_ofList]
      exact h

end Settlement.Numeral
