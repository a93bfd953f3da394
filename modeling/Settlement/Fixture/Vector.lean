import Settlement.Fixture.Party

/-!
# Test vectors

Transfers with the digests of their signed linkages. Signatures are
deterministic, so a digest pins every octet of a linkage.
-/

namespace Settlement.Fixture

/-- A transfer and the digest that its linkage should have. -/
structure Vector where
  name : String
  payerMergers : Nat
  payeeMergers : Nat
  point : Point
  /-- The digest of the linkage's full form, in hexadecimal. -/
  digest : String

/-- The known vectors. -/
def vectors : List Vector :=
  [{ name := "single merger on each side", payerMergers := 1, payeeMergers := 1, point := ⟨100⟩
     digest := "5c7cdfeaf85dde8f6c12a8ea6f50fe2854ebd55f05f635d357d438f19ddb373a" },
   { name := "full merger sets", payerMergers := 3, payeeMergers := 3, point := .max
     digest := "df18bf61cc88cfbdb05d87098947fc9cc4f0df452313e7a0bec500c9194b2cb3" },
   { name := "zero amount", payerMergers := 2, payeeMergers := 1, point := .zero
     digest := "0baf6b5c60f94717d1851d09a65c2af779bf41ca73c25e326090658e1df9b2fb" }]

namespace Vector

/-- The signed linkage of the vector's transfer, if all of it can be signed and joined. -/
def linkage? (S : Suite) (v : Vector) : Option (Linkage Proof) := do
  let t := transfer v.payerMergers v.payeeMergers
  let (primary, secondary) ← (t.evidences S id v.point).toOption
  let l ← (Linkage.create? S primary secondary { now := now }).toOption
  (l.sign S t.linker).toOption

/-- The digest of the full form of the vector's linkage, in hexadecimal. -/
def digest? (S : Suite) (v : Vector) : Option String := do
  let l ← v.linkage? S
  return Hex.encode (S.digest (Signable.canonical S .full l)).octets

/-- Whether the vector's linkage has the digest that it should have. -/
def isMatched (S : Suite) (v : Vector) : Bool := v.digest? S = some v.digest

end Vector

end Settlement.Fixture
