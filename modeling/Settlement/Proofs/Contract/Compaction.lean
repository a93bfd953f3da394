import Mathlib.Data.Set.Operations
import Settlement.Proofs.Signing.Objects

/-!
# Compacted contracts

Compaction keeps the hash of a contract and both amounts, and with it the
record (`Contract.record_strip`). As long as the digest does not collide, it
keeps contracts apart that still have their proofs: `Contract.eq_of_strip_eq`.
-/

namespace Settlement

/-- No two of the contents have one digest. -/
def Suite.CollisionFree (S : Suite) (contents : Set Octets) : Prop :=
  Set.InjOn S.digest contents

/-- On finitely many contents it can be computed. -/
instance Suite.decidableCollisionFree (S : Suite) (contents : List Octets) :
    Decidable (S.CollisionFree {o | o ∈ contents}) :=
  inferInstanceAs
    (Decidable (∀ o ∈ contents, ∀ o' ∈ contents, S.digest o = S.digest o' → o = o'))

theorem Point.octets_inj {x y : Point} (h : x.octets = y.octets) : x = y := by
  have hfits : ∀ n : UInt64, n.toNat < 256 ^ 8 := UInt64.toNat_lt
  have hnat : x.units.toUInt64.toNat = y.units.toUInt64.toNat :=
    Octets.bigEndian_inj (hfits _) (hfits _) h
  exact Point.units_inj.mp (Cbor.toUInt64_inj (UInt64.toNat_inj.mp hnat))

/-- The canonical form of a proof, in front of other octets. -/
theorem Proof.canonical_append_inj {S : Suite} {p q : Proof} {x y : Octets}
    (hp : p.WellFormed S) (hq : q.WellFormed S)
    (h : Signable.canonical S .full p ++ x = Signable.canonical S .full q ++ y) :
    p = q ∧ x = y := by
  obtain ⟨hnorm, hxy⟩ :=
    Cbor.canonical_append_inj (Proof.sized_record hp _) (Proof.sized_record hq _) h
  exact ⟨Proof.record_inj.mp hnorm, hxy⟩

namespace Contract

variable {S : Suite}

/-- What the hash of a contract is made from, as long as the contract has its proof. -/
def content? (S : Suite) (c : Contract) : Option Octets :=
  c.proof?.map fun p => Signable.canonical S .full p ++ (c.part.octets ++ c.whole.octets)

theorem hash_eq_digest {c : Contract} {o : Octets} (h : c.content? S = some o) :
    c.hash S = S.digest o := by
  obtain ⟨body, part, whole⟩ := c
  cases body with
  | identifier id => cases h
  | proof p =>
      obtain rfl := Option.some.inj h
      show S.digest (List.flatten _) = S.digest _
      simp only [List.flatten_cons, List.flatten_nil, List.append_nil]

/-- The content of a contract is the contract. -/
theorem content?_inj {c d : Contract} (hc : Base.WellFormed S c) (hd : Base.WellFormed S d)
    {o : Octets} (hoc : c.content? S = some o) (hod : d.content? S = some o) : c = d := by
  obtain ⟨body, part, whole⟩ := c
  obtain ⟨body', part', whole'⟩ := d
  cases body with
  | identifier id => cases hoc
  | proof p =>
      cases body' with
      | identifier id => cases hod
      | proof q =>
          have h := (Option.some.inj hoc).trans (Option.some.inj hod).symm
          obtain ⟨hproof, hamounts⟩ :=
            Proof.canonical_append_inj (hc p rfl) (hd q rfl) h
          obtain ⟨hpart, hwhole⟩ := List.append_inj hamounts (by simp [Point.octets])
          obtain rfl : part = part' := Point.octets_inj hpart
          obtain rfl : whole = whole' := Point.octets_inj hwhole
          rw [hproof]

@[simp] theorem hash_strip (c : Contract) : (c.strip S).hash S = c.hash S := rfl

/-- What compaction leaves has no proof. -/
@[simp] theorem isStripped_strip (c : Contract) : (c.strip S).isStripped = true := rfl

@[simp] theorem strip_strip (c : Contract) : (c.strip S).strip S = c.strip S := rfl

/-- Compaction leaves the record as it was, at every level. -/
@[simp] theorem record_strip (c : Contract) (level : Level) :
    Signable.record S level (c.strip S) = Signable.record S level c := rfl

/-- Contracts that have their proofs are told apart by their hashes. -/
theorem eq_of_hash_eq {c d : Contract} (hc : Base.WellFormed S c) (hd : Base.WellFormed S d)
    {contents : Set Octets} (hfree : S.CollisionFree contents)
    {o o' : Octets} (hoc : c.content? S = some o) (hod : d.content? S = some o')
    (ho : o ∈ contents) (ho' : o' ∈ contents) (h : c.hash S = d.hash S) : c = d := by
  rw [hash_eq_digest hoc, hash_eq_digest hod] at h
  obtain rfl := hfree ho ho' h
  exact content?_inj hc hd hoc hod

/-- Contracts that have their proofs are told apart by what compaction leaves of them. -/
theorem eq_of_strip_eq {c d : Contract} (hc : Base.WellFormed S c) (hd : Base.WellFormed S d)
    {contents : Set Octets} (hfree : S.CollisionFree contents)
    {o o' : Octets} (hoc : c.content? S = some o) (hod : d.content? S = some o')
    (ho : o ∈ contents) (ho' : o' ∈ contents) (h : c.strip S = d.strip S) : c = d :=
  eq_of_hash_eq hc hd hfree hoc hod ho ho' (strip_eq_strip_iff.mp h).1

end Contract

end Settlement
