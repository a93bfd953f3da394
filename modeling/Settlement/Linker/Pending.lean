import Settlement.Linkage.Basic

/-!
# Waiting evidences

The evidences that wait at a linker for the other side, at most one for each
link. A link is named by its instant and by the hash of both bases.
-/

namespace Settlement

/-- The name of a link. -/
structure LinkKey where
  linkedMics : Mics
  bases : Identifier
deriving DecidableEq

/-- The name of a link: its instant, and the hash of the full forms of both bases. -/
def Link.key {B : Type} [Base B] (S : Suite) (l : Link B) : LinkKey :=
  ⟨l.linkedMics,
    .ofParts S [Signable.canonical S .full l.base1, Signable.canonical S .full l.base2]⟩

/-- An evidence that waits, and since when. -/
structure Waiting (B : Type) where
  key : LinkKey
  evidence : LinkedEvidence B
  received : Mics

namespace Waiting

variable {B : Type}

/-- Whether an evidence has waited for the whole time that it may. -/
def isExpired (ttl now : Mics) (w : Waiting B) : Bool := w.received.plus ttl ≤ now

theorem isExpired_iff {ttl now : Mics} {w : Waiting B} :
    w.isExpired ttl now = true ↔ w.received.plus ttl ≤ now := decide_eq_true_iff

theorem isExpired_eq_false_iff {ttl now : Mics} {w : Waiting B} :
    w.isExpired ttl now = false ↔ now < w.received.plus ttl :=
  decide_eq_false_iff_not.trans Int64.not_le

end Waiting

/-- The evidences that wait. -/
structure PendingTable (B : Type) where
  entries : List (Waiting B)

namespace PendingTable

variable {B : Type}

/-- No evidence waits. -/
def empty : PendingTable B := ⟨[]⟩

/-- The number of evidences that wait. -/
def size (t : PendingTable B) : Nat := t.entries.length

/-- The evidence that waits for a link. -/
def find? (t : PendingTable B) (key : LinkKey) : Option (Waiting B) :=
  t.entries.find? (·.key = key)

/-- The table with one more evidence. -/
def insert (t : PendingTable B) (w : Waiting B) : PendingTable B := ⟨w :: t.entries⟩

/-- The table without the evidence that waits for a link. -/
def erase (t : PendingTable B) (key : LinkKey) : PendingTable B :=
  ⟨t.entries.filter (·.key ≠ key)⟩

/-- The table without the evidences that have waited too long. -/
def dropExpired (t : PendingTable B) (ttl now : Mics) : PendingTable B :=
  ⟨t.entries.filter fun w => !w.isExpired ttl now⟩

end PendingTable

end Settlement
