import Settlement.Octets.Basic

/-!
# The field of the Edwards curve

Arithmetic modulo `2 ^ 255 - 19`. Powers, and by them inverses and square
roots, are taken by repeated squaring over the exponent's bits. `sqrtRatio?`
answers only with a root: `sqrtRatio?_sound`.
-/

namespace Settlement.Ed25519

/-- The field's prime, `2 ^ 255 - 19`. -/
def fieldPrime : Nat := 0x7fffffffffffffffffffffffffffffffffffffffffffffffffffffffffffffed

instance : @NeZero Nat Zero.ofOfNat0 fieldPrime := ⟨Nat.succ_ne_zero (fieldPrime - 1)⟩

/-- An element of the field. -/
abbrev Element := Fin fieldPrime

/-- The `width` low bits of a number, the highest first. -/
def bits (width n : Nat) : List Bool := (List.range width).reverse.map n.testBit

namespace Element

/-- The element that a number stands for. -/
def ofNat (n : Nat) : Element := Fin.ofNat fieldPrime n

/-- The power of an element to an exponent below `2 ^ 255`. -/
def pow (x : Element) (exponent : Nat) : Element :=
  (bits 255 exponent).foldl (fun acc bit => if bit then acc * acc * x else acc * acc) (ofNat 1)

/-- The inverse of an element, and zero for zero. -/
def inverse (x : Element) : Element := x.pow (fieldPrime - 2)

/-- A square root of minus one. -/
def sqrtMinusOne : Element :=
  ofNat 19681161376707505956807079304988542015446066515923890162744021073123829784752

/-- The coefficient of the curve's equation. -/
def curveD : Element :=
  ofNat 37095705934669439343138083508754565189542113879843219016388785533085940283555

/-- A square root of `u / v`, if there is one. -/
def sqrtRatio? (u v : Element) : Option Element :=
  -- a candidate: its square is u / v up to a fourth root of one
  let v3 := v * v * v
  let r := u * v3 * (u * v3 * v3 * v).pow ((fieldPrime - 5) / 8)
  if v * (r * r) = u then some r
  else
    let r' := r * sqrtMinusOne
    if v * (r' * r') = u then some r' else none

/-- Every answer is a root. -/
theorem sqrtRatio?_sound {u v r : Element} (h : sqrtRatio? u v = some r) : v * (r * r) = u := by
  simp only [sqrtRatio?] at h
  split at h
  · next hr => rwa [Option.some.inj h] at hr
  · split at h
    · next hr => rwa [Option.some.inj h] at hr
    · exact absurd h (by simp)

/-- The 32 octets of an element, the least significant first. -/
def octets (x : Element) : Octets := Octets.littleEndian 32 x.val

end Element

end Settlement.Ed25519
