import Settlement.Ed25519.Field

/-!
# Points of the Edwards curve

Points of `-x² + y² = 1 + d x² y²` in extended coordinates, their addition,
multiples, and the form of 32 octets: `y` with the parity of `x` in the top bit.
Reading takes `y` modulo the prime, so a few points have a second form, and
minus zero is read as zero.
-/

namespace Settlement.Ed25519

/-- The point `(x / z, y / z)`, with `t = x y / z`. -/
structure Point where
  x : Element
  y : Element
  z : Element
  t : Element

namespace Point

/-- The point with the given coordinates. -/
def ofAffine (x y : Element) : Point := ⟨x, y, 1, x * y⟩

/-- The neutral point. -/
def zero : Point := ofAffine 0 1

/-- The generator of the subgroup in which keys lie. -/
def base : Point :=
  ofAffine
    (.ofNat 15112221349535400772501151409588531511454012693041857206046113283949847762202)
    (.ofNat 46316835694926478169428394003475163141307993866256225615783033603165251855960)

/-- The sum of two points; the formula is complete, so it doubles as well. -/
def add (p q : Point) : Point :=
  let a := (p.y - p.x) * (q.y - q.x)
  let b := (p.y + p.x) * (q.y + q.x)
  let c := p.t * q.t * (Element.curveD + Element.curveD)
  let d := p.z * q.z * 2
  let e := b - a
  let f := d - c
  let g := d + c
  let h := b + a
  ⟨e * f, g * h, f * g, e * h⟩

/-- The point on the other side of the `y` axis. -/
def negate (p : Point) : Point := ⟨0 - p.x, p.y, p.z, 0 - p.t⟩

/-- The multiple of a point by a number below `2 ^ 256`. -/
def multiple (n : Nat) (p : Point) : Point :=
  (bits 256 n).foldl (fun acc bit => if bit then (acc.add acc).add p else acc.add acc) zero

/-- The weight of the top bit of 32 octets, which holds the parity of `x`. -/
def parityBit : Nat := 0x8000000000000000000000000000000000000000000000000000000000000000

/-- The 32 octets of a point. -/
def encode (p : Point) : Octets :=
  let w := p.z.inverse
  let x := p.x * w
  let y := p.y * w
  Octets.littleEndian 32 (y.val + x.val % 2 * parityBit)

/-- The point that 32 octets write, if the curve has one with that `y`. -/
def decode? (o : Octets) : Option Point := do
  let n := Octets.ofLittleEndian o
  let y := Element.ofNat (n % parityBit)
  -- the equation solved for x²
  let yy := y * y
  let x ← Element.sqrtRatio? (yy - 1) (Element.curveD * yy + 1)
  return ofAffine (if x.val % 2 = n / parityBit % 2 then x else 0 - x) y

@[simp] theorem length_encode (p : Point) : p.encode.length = 32 := by
  simp [encode]

end Point

end Settlement.Ed25519
