/-!
# Octet strings

Octet strings of any length (`Octets`) and of a fixed length (`Block n`),
and the two ways in which a natural number is written as octets. Writing is
always to a stated width, which `length_bigEndian` and `length_littleEndian`
give back, and drops what does not fit.
-/

namespace Settlement

/-- A sequence of octets of any length. -/
abbrev Octets := List UInt8

/-- Exactly `n` octets. -/
structure Block (n : Nat) where
  /-- The octets, first to last. -/
  octets : Octets
  /-- There are exactly `n` of them. -/
  length_octets : octets.length = n
deriving DecidableEq

namespace Block

variable {n : Nat}

@[ext] theorem ext {a b : Block n} (h : a.octets = b.octets) : a = b := by
  cases a; cases b; simp_all

/-- The octets as a block, when their number is right. -/
def ofOctets? (n : Nat) (o : Octets) : Option (Block n) :=
  if h : o.length = n then some ⟨o, h⟩ else none

/-- The block made of one repeated octet. -/
def replicate (n : Nat) (b : UInt8) : Block n := ⟨List.replicate n b, List.length_replicate⟩

/-- The first `n` of at least `n` octets. -/
def take (n : Nat) (o : Octets) (h : n ≤ o.length) : Block n :=
  ⟨o.take n, List.length_take_of_le h⟩

@[simp] theorem ofOctets?_octets (b : Block n) : ofOctets? n b.octets = some b := by
  simp [ofOctets?, b.length_octets]

theorem ofOctets?_eq_some_iff {o : Octets} {b : Block n} :
    ofOctets? n o = some b ↔ o = b.octets := by
  constructor
  · intro h
    unfold ofOctets? at h
    split at h
    · rw [← Option.some.inj h]
    · cases h
  · rintro rfl
    exact ofOctets?_octets b

end Block

namespace Octets

/-- The `width` low octets of `n`, the most significant first. -/
def bigEndian : (width : Nat) → Nat → Octets
  | 0, _ => []
  | width + 1, n => bigEndian width (n / 256) ++ [UInt8.ofNat n]

/-- The `width` low octets of `n`, the least significant first. -/
def littleEndian : (width : Nat) → Nat → Octets
  | 0, _ => []
  | width + 1, n => UInt8.ofNat n :: littleEndian width (n / 256)

/-- The number written by octets, the most significant first. -/
def ofBigEndian (o : Octets) : Nat := o.foldl (fun n b => n * 256 + b.toNat) 0

/-- The number written by octets, the least significant first. -/
def ofLittleEndian : Octets → Nat
  | [] => 0
  | b :: rest => b.toNat + 256 * ofLittleEndian rest

@[simp] theorem length_bigEndian (width n : Nat) : (bigEndian width n).length = width := by
  induction width generalizing n with
  | zero => rfl
  | succ width ih => simp [bigEndian, ih]

@[simp] theorem length_littleEndian (width n : Nat) : (littleEndian width n).length = width := by
  induction width generalizing n with
  | zero => rfl
  | succ width ih => simp [littleEndian, ih]

@[simp] theorem ofBigEndian_append_singleton (o : Octets) (b : UInt8) :
    ofBigEndian (o ++ [b]) = ofBigEndian o * 256 + b.toNat := by
  simp [ofBigEndian]

end Octets

end Settlement
