import Settlement.Linkage.Basic
import Settlement.Token

/-!
# Well-formed objects

Credits and values are only made checked, so an object holds well-formed ones
alone. Nothing else about an object is promised: its instants, slots, amounts
and signatures are whatever they are.
-/

namespace Settlement

variable {B : Type}

/-- The value or the credit asserted is well formed. -/
def Assertion.WellFormed (S : Suite) : Assertion → Prop
  | .value v _ => v.WellFormed S
  | .signer v _ _ => v.WellFormed S
  | .credential c _ _ => c.WellFormed S

/-- What the proof asserts is well formed. -/
def Proof.WellFormed (S : Suite) (p : Proof) : Prop := p.assertion.WellFormed S

theorem Assertion.WellFormed.credit {S : Suite} {a : Assertion} (h : a.WellFormed S) :
    a.credit.WellFormed S := by
  cases a with
  | value v linker => exact Value.WellFormed.wellFormed_credit h
  | signer v slot linker => exact Value.WellFormed.wellFormed_credit h
  | credential c subject index => exact h

theorem Proof.WellFormed.credit {S : Suite} {p : Proof} (h : p.WellFormed S) :
    p.credit.WellFormed S :=
  Assertion.WellFormed.credit h

/-- The proof in the body of a contract, if it is still there, is well formed. -/
def ContractBody.WellFormed (S : Suite) (b : ContractBody) : Prop :=
  ∀ p, b = .proof p → p.WellFormed S

@[ext] theorem Link.ext {l l' : Link B} (hmics : l.linkedMics = l'.linkedMics)
    (hbase1 : l.base1 = l'.base1) (hbase2 : l.base2 = l'.base2) : l = l' := by
  cases l
  cases l'
  simp_all

@[ext] theorem Side.ext {s s' : Side B} (hside : s.isPrimary = s'.isPrimary)
    (hlink : s.link = s'.link) : s = s' := by
  cases s
  cases s'
  simp_all

variable [Base B]

/-- The proof of a base, if it is still there, is well formed. -/
def Base.WellFormed (S : Suite) (b : B) : Prop := ∀ p, Base.proof? b = some p → p.WellFormed S

/-- Both bases of a link are well formed. -/
structure Link.WellFormed (S : Suite) (l : Link B) : Prop where
  base1 : Base.WellFormed S l.base1
  base2 : Base.WellFormed S l.base2

/-- The credit of a token, if it has one, is well formed. -/
def OwnerToken.WellFormed (S : Suite) (t : OwnerToken) : Prop :=
  ∀ c, t.credit = some c → c.WellFormed S

end Settlement
