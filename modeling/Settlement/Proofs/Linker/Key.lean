import Settlement.Linker.Pending
import Settlement.Proofs.Contract.Compaction
import Settlement.Proofs.Storage.WellFormed

/-!
# Names of links

A link is named by its instant and one digest over the records of both bases.
The records are prefix free, so as long as the digest does not collide a name
stands for one link: `Link.eq_of_key_eq`. Over contracts this takes the digests
of their contents as well, and that both still have their proofs.
-/

namespace Settlement

open Storage

/-- A base that evidences can be submitted over. -/
class LinkableBase (B : Type) [Base B] [Stored B] extends RecordedBase B where
  /-- The contents whose digests stand for the base in its record. -/
  hashed : Suite → B → List Octets
  eq_of_recorded_eq {S : Suite} {a b : B} {contents : Set Octets} :
    S.CollisionFree contents → Base.WellFormed S a → Base.WellFormed S b →
    (Base.proof? a).isSome → (Base.proof? b).isSome →
    (∀ o ∈ hashed S a, o ∈ contents) → (∀ o ∈ hashed S b, o ∈ contents) →
    recorded S a = recorded S b → a = b
  gives_wellFormed {S : Suite} : ItemReader.Gives (Stored.read S) (Base.WellFormed (B := B) S)

/-- A proof stands in its record as it is. -/
instance : LinkableBase Proof where
  hashed _ _ := []
  eq_of_recorded_eq _ _ _ _ _ _ _ h := h
  gives_wellFormed budget head _ _ _ h := by
    intro p hp
    cases hp
    exact gives_proof budget head h

/-- A contract stands in its record by the digest of its content. -/
instance : LinkableBase Contract where
  hashed S c := (c.content? S).toList
  eq_of_recorded_eq {S a b contents} hfree ha hb hproofa hproofb hhasheda hhashedb h := by
    obtain ⟨p, hp⟩ := Option.isSome_iff_exists.mp hproofa
    obtain ⟨q, hq⟩ := Option.isSome_iff_exists.mp hproofb
    have hcontenta : a.content? S = some _ := congrArg _ hp
    have hcontentb : b.content? S = some _ := congrArg _ hq
    rw [hcontenta] at hhasheda
    rw [hcontentb] at hhashedb
    exact Contract.eq_of_strip_eq ha hb hfree hcontenta hcontentb
      (hhasheda _ (.head _)) (hhashedb _ (.head _)) h
  gives_wellFormed := gives_contract

variable {B : Type} [Base B] {S : Suite}

/-- A base that names a linker has its proof. -/
theorem Base.isSome_proof?_of_linker? {b : B} {key : PublicKey}
    (h : Base.linker? b = some key) : (Base.proof? b).isSome := by
  unfold Base.linker? at h
  cases hproof : Base.proof? b with
  | none =>
      rw [hproof] at h
      cases h
  | some p => rfl

namespace Link

/-- What the digest in the name of a link is made from. -/
def keyContent (S : Suite) (l : Link B) : Octets :=
  Signable.canonical S .full l.base1 ++ Signable.canonical S .full l.base2

theorem key_eq (l : Link B) : l.key S = ⟨l.linkedMics, S.digest (l.keyContent S)⟩ := by
  show LinkKey.mk _ (S.digest (List.flatten _)) = _
  rw [List.flatten_cons, List.flatten_cons, List.flatten_nil, List.append_nil]
  rfl

variable [Stored B] [LinkableBase B]

/-- Everything that is hashed to name a link. -/
def hashed (S : Suite) (l : Link B) : List Octets :=
  l.keyContent S :: (LinkableBase.hashed S l.base1 ++ LinkableBase.hashed S l.base2)

/-- A well-formed link of bases with their proofs, everything hashed for which is among the given
contents. -/
structure Known (S : Suite) (contents : Set Octets) (l : Link B) : Prop where
  wellFormed : l.WellFormed S
  proof1 : (Base.proof? l.base1).isSome
  proof2 : (Base.proof? l.base2).isSome
  hashed : ∀ o ∈ l.hashed S, o ∈ contents

variable {contents : Set Octets} {l l' : Link B}

theorem Known.hashed1 (h : l.Known S contents) :
    ∀ o ∈ LinkableBase.hashed S l.base1, o ∈ contents :=
  fun o ho => h.hashed o (.tail _ (List.mem_append_left _ ho))

theorem Known.hashed2 (h : l.Known S contents) :
    ∀ o ∈ LinkableBase.hashed S l.base2, o ∈ contents :=
  fun o ho => h.hashed o (.tail _ (List.mem_append_right _ ho))

/-- The records of the two bases, one after the other, say where the first one ends. -/
theorem recorded_eq_of_keyContent_eq (hl : l.WellFormed S) (hl' : l'.WellFormed S)
    (h : l.keyContent S = l'.keyContent S) :
    RecordedBase.recorded S l.base1 = RecordedBase.recorded S l'.base1 ∧
      RecordedBase.recorded S l.base2 = RecordedBase.recorded S l'.base2 := by
  obtain ⟨hrecord1, hrest⟩ := Cbor.canonical_append_inj
    (RecordedBase.sized_record hl.base1) (RecordedBase.sized_record hl'.base1) h
  rw [← List.append_nil (Signable.canonical S .full l.base2),
    ← List.append_nil (Signable.canonical S .full l'.base2)] at hrest
  obtain ⟨hrecord2, -⟩ := Cbor.canonical_append_inj
    (RecordedBase.sized_record hl.base2) (RecordedBase.sized_record hl'.base2) hrest
  exact ⟨RecordedBase.record_inj.mp hrecord1, RecordedBase.record_inj.mp hrecord2⟩

/-- A name stands for one link. -/
theorem eq_of_key_eq (hfree : S.CollisionFree contents) (hl : l.Known S contents)
    (hl' : l'.Known S contents) (h : l.key S = l'.key S) : l = l' := by
  rw [key_eq, key_eq, LinkKey.mk.injEq] at h
  obtain ⟨hmics, hdigest⟩ := h
  have hcontent : l.keyContent S = l'.keyContent S :=
    hfree (hl.hashed _ (.head _)) (hl'.hashed _ (.head _)) hdigest
  obtain ⟨hrecorded1, hrecorded2⟩ :=
    recorded_eq_of_keyContent_eq hl.wellFormed hl'.wellFormed hcontent
  have hbase1 : l.base1 = l'.base1 :=
    LinkableBase.eq_of_recorded_eq hfree hl.wellFormed.base1 hl'.wellFormed.base1
      hl.proof1 hl'.proof1 hl.hashed1 hl'.hashed1 hrecorded1
  have hbase2 : l.base2 = l'.base2 :=
    LinkableBase.eq_of_recorded_eq hfree hl.wellFormed.base2 hl'.wellFormed.base2
      hl.proof2 hl'.proof2 hl.hashed2 hl'.hashed2 hrecorded2
  exact Link.ext hmics hbase1 hbase2

end Link

end Settlement
