import Settlement.Account.Credit

/-!
# Values

A value is an owner's holding of an amount, counted in points, of a credit.
`Value.of` is the checked way to make one; `of_eq_ok_iff` says that it accepts
exactly the well-formed values.

The text form is `owner#points@originator/merger+merger`.
-/

namespace Settlement

/-- An amount of a credit; it may be negative. -/
structure Point where
  units : Int64
deriving DecidableEq

namespace Point

/-- The largest amount. -/
def max : Point := ⟨999999999999999999⟩

/-- The smallest amount. -/
def min : Point := ⟨-999999999999999999⟩

/-- No amount. -/
def zero : Point := ⟨0⟩

/-- Whether the amount lies between the smallest and the largest. -/
def inRange (p : Point) : Bool := min.units ≤ p.units && p.units ≤ max.units

/-- In range are the amounts of at most eighteen digits. -/
theorem inRange_iff {p : Point} : p.inRange = true ↔
    -999999999999999999 ≤ p.units.toInt ∧ p.units.toInt ≤ 999999999999999999 := by
  have hmin : min.units.toInt = -999999999999999999 := rfl
  have hmax : max.units.toInt = 999999999999999999 := rfl
  rw [inRange, Bool.and_eq_true, decide_eq_true_iff, decide_eq_true_iff, Int64.le_iff_toInt_le,
    Int64.le_iff_toInt_le, hmin, hmax]

/-- The symbols of the text form: a decimal numeral. -/
def symbols (p : Point) : List Char := (toString p.units.toInt).toList

/-- The text form: a decimal numeral. -/
def text (p : Point) : String := String.ofList p.symbols

/-- The eight octets of the amount, in two's complement, the most significant first. -/
def octets (p : Point) : Octets := Octets.bigEndian 8 p.units.toUInt64.toNat

/-- Reads the text form; any 64-bit integer is read, in range or not. -/
def ofSymbols (cs : List Char) : Except TextFault Point :=
  match Numeral.parse cs with
  | .ok n => .ok ⟨n⟩
  | .error fault => .error (.point fault)

instance : Ord Point := ⟨fun a b => compare a.units b.units⟩

end Point

/-- What an owner holds of a credit. -/
structure Value where
  owner : PublicKey
  point : Point
  credit : Credit
deriving DecidableEq

namespace Value

/-- An amount of at most eighteen digits, a usable owner and a well-formed credit. -/
structure WellFormed (S : Suite) (v : Value) : Prop where
  bounds_point : -999999999999999999 ≤ v.point.units.toInt ∧
    v.point.units.toInt ≤ 999999999999999999
  isKey_owner : S.isKey v.owner = true
  wellFormed_credit : v.credit.WellFormed S

/-- The value of an owner, an amount and a credit; the amount is checked before the keys. -/
def of (S : Suite) (owner : PublicKey) (point : Point) (credit : Credit) :
    Except ModelFault Value :=
  if !point.inRange then .error (.pointOutOfRange point.units)
  else if !S.isKey owner || !credit.isWellFormed S then .error .invalidPublicKey
  else .ok ⟨owner, point, credit⟩

/-- Exactly the well-formed values can be made. -/
theorem of_eq_ok_iff {S : Suite} {owner : PublicKey} {point : Point} {credit : Credit} {v : Value} :
    of S owner point credit = .ok v ↔ v = ⟨owner, point, credit⟩ ∧ v.WellFormed S := by
  constructor
  · intro h
    unfold of at h
    split at h
    · exact absurd h (by simp)
    · split at h
      · exact absurd h (by simp)
      · next h1 h2 =>
        simp only [Bool.not_eq_true, Bool.not_eq_false', Bool.or_eq_true, not_or] at h1 h2
        rw [← Except.ok.inj h]
        exact ⟨rfl, Point.inRange_iff.1 h1, h2.1, Credit.isWellFormed_iff.1 h2.2⟩
  · rintro ⟨rfl, h1, h2, h3⟩
    have h1' := Point.inRange_iff.2 h1
    have h3' := Credit.isWellFormed_iff.2 h3
    simp only at h1' h2 h3'
    simp [of, h1', h2, h3']

/-- An amount that is out of range is found first. -/
theorem of_outOfRange {S : Suite} {owner : PublicKey} {point : Point} {credit : Credit}
    (h : ¬ (-999999999999999999 ≤ point.units.toInt ∧
      point.units.toInt ≤ 999999999999999999)) :
    of S owner point credit = .error (.pointOutOfRange point.units) := by
  have hrange : point.inRange = false := Bool.eq_false_iff.mpr (mt Point.inRange_iff.mp h)
  simp [of, hrange]

instance : Signable Value where
  fields S v :=
    [.entity .value,
     ⟨1, .signer, v.owner.cbor⟩,
     ⟨2, .signer, .int v.point.units⟩,
     ⟨3, .signer, Signable.record S .full v.credit⟩]

/-- The symbols of the text form. -/
def symbols (v : Value) : List Char :=
  v.owner.symbols ++ '#' :: v.point.symbols ++ v.credit.symbols

/-- The text form. -/
def text (v : Value) : String := String.ofList v.symbols

/-- Reads the text form. The credit starts at the first `@` after the first `#`. -/
def ofSymbols (S : Suite) (cs : List Char) : Except DataFault Value :=
  match Text.cut? '#' cs with
  | none => .error (.text .valueWithoutHash)
  | some (before, rest) =>
    let point := rest.takeWhile (· ≠ '@')
    let credit := rest.dropWhile (· ≠ '@')
    if credit = [] then .error (.text .valueWithoutCredit)
    else do
      let owner ← (PublicKey.ofSymbols before).mapError .text
      let point ← (Point.ofSymbols point).mapError .text
      let credit ← Credit.ofSymbols S credit
      (of S owner point credit).mapError .model

/-- Reads the text form of a value. -/
def parse (S : Suite) (s : String) : Except DataFault Value := ofSymbols S s.toList

end Value

end Settlement
