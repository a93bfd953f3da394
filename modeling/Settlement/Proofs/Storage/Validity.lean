import Settlement.Proofs.Linker.Runs
import Settlement.Proofs.Storage.RoundTrip

/-!
# Nothing that is read is out of order

Whatever the octets or the text, and however they came to be, an object that is
read from them holds well-formed credits and values alone, and is read again
from the octets that store it: `Storage.read_objects_valid`. So is every
evidence that comes to wait at a linker; a linker that takes octets adds to its
table nothing but what the octets store.
-/

namespace Settlement

open Storage

variable {S : Suite}

namespace Storage

/-- Every credit and every value in the object is well formed, and the object is what its octets
store. -/
structure Kind.Valid (S : Suite) (k : Kind) (x : k.Object) : Prop where
  wellFormed : k.WellFormed S x
  read_octets : Stored.ofOctets S (Stored.octets x) = .ok x

theorem Kind.valid_iff {k : Kind} {x : k.Object} : k.Valid S x ↔ k.WellFormed S x := by
  constructor
  · exact Kind.Valid.wellFormed
  · intro h
    have hread := Stored.ofOctets_append (Kind.reads h) (show 9 ≤ depthLimit by decide) []
    rw [List.append_nil] at hread
    exact ⟨h, hread⟩

theorem BaseKind.gives {k : BaseKind} :
    ItemReader.Gives (Stored.read S) (Base.WellFormed (B := k.Object) S) := by
  cases k with
  | proof => exact LinkableBase.gives_wellFormed (B := Proof)
  | contract => exact LinkableBase.gives_wellFormed (B := Contract)

/-- **Readers of every kind give well-formed objects.** -/
theorem Kind.gives {k : Kind} : ItemReader.Gives (Stored.read S) (k.WellFormed S) := by
  cases k with
  | credit => exact gives_credit
  | value => exact gives_value
  | proof => exact gives_proof
  | contract => exact gives_contract
  | proofEvidence => exact gives_proofEvidence
  | linkedEvidence base => exact gives_linkedEvidence BaseKind.gives
  | linkage base => exact gives_linkage BaseKind.gives
  | token => exact gives_token

theorem Kind.valid_of_ofOctets {k : Kind} {o : Octets} {x : k.Object}
    (h : Stored.ofOctets S o = .ok x) : k.Valid S x :=
  Kind.valid_iff.mpr (Stored.of_ofOctets Kind.gives h)

end Storage

/-! ## Texts -/

/-- A text form that is read holds octets that are. -/
theorem Marked.exists_of_parse {α : Type} [Marked α] {s : String} {x : α}
    (h : parse S s = .ok x) : ∃ o, Stored.ofOctets S o = .ok x := by
  unfold parse ofSymbols at h
  split at h
  · cases h
  · split at h
    · obtain ⟨o, -, h⟩ := bind_eq_ok_iff.mp h
      exact ⟨o, h⟩
    · cases h

theorem Storage.TextKind.valid_of_parse {k : TextKind} {s : String} {x : k.kind.Object}
    (h : Marked.parse S s = .ok x) : k.kind.Valid S x := by
  obtain ⟨o, ho⟩ := Marked.exists_of_parse h
  refine Kind.valid_of_ofOctets (o := o) ?_
  cases k <;> exact ho

theorem Credit.wellFormed_of_ofSymbols {cs : List Char} {c : Credit}
    (h : ofSymbols S cs = .ok c) : c.WellFormed S := by
  unfold ofSymbols at h
  split at h
  · split at h
    · cases h
    · obtain ⟨originator, -, h⟩ := bind_eq_ok_iff.mp h
      obtain ⟨mergers, -, h⟩ := bind_eq_ok_iff.mp h
      exact (of_eq_ok_iff.mp (mapError_eq_ok_iff.mp h)).2
  · cases h

theorem Value.wellFormed_of_ofSymbols {cs : List Char} {v : Value}
    (h : ofSymbols S cs = .ok v) : v.WellFormed S := by
  unfold ofSymbols at h
  split at h
  · cases h
  · simp only at h
    split at h
    · cases h
    · obtain ⟨owner, -, h⟩ := bind_eq_ok_iff.mp h
      obtain ⟨point, -, h⟩ := bind_eq_ok_iff.mp h
      obtain ⟨credit, -, h⟩ := bind_eq_ok_iff.mp h
      exact (of_eq_ok_iff.mp (mapError_eq_ok_iff.mp h)).2

/-! ## What waits at a linker -/

namespace Linker

variable {B : Type} [Base B] [DecidableEq B] {k : Linker B} {now : Mics} {w : Waiting B}

/-- An admitted evidence is all that may begin to wait. -/
theorem mem_settle {e : LinkedEvidence B} (hw : w ∈ (k.settle S e now).2.pending.entries) :
    w ∈ k.pending.entries ∨ w.evidence = e := by
  rcases settle_cases (S := S) k e now with ⟨-, h⟩ | ⟨w', -, -, h⟩ | ⟨w', -, -, h⟩
  · rw [h] at hw
    rcases List.mem_cons.mp hw with rfl | hw
    · exact .inr rfl
    · exact .inl hw
  · rw [h] at hw
    exact .inl hw
  · rw [h] at hw
    exact .inl (PendingTable.mem_erase.mp hw).1

/-- What begins to wait when octets are submitted is what they store. -/
theorem mem_submitOctets [Stored B] {o : Octets}
    (hw : w ∈ (k.submitOctets S o now).2.pending.entries) :
    w ∈ k.pending.entries ∨ Stored.ofOctets S o = .ok w.evidence := by
  unfold submitOctets at hw
  split at hw
  · exact .inl hw
  · next e he =>
    cases hexamine : k.examine S e now with
    | error fault =>
        rw [submit_of_error hexamine] at hw
        exact .inl hw
    | ok _ =>
        rw [submit_of_ok hexamine] at hw
        rcases mem_settle hw with hw | rfl
        · exact .inl (PendingTable.mem_dropExpired.mp hw).1
        · exact .inr he

/-- The evidence in octets that a new linker admits waits. -/
theorem waits_of_submitOctets [Stored B] {seed : Seed} {config : LinkerConfig} {o : Octets}
    {e : LinkedEvidence B} (hread : Stored.ofOctets S o = .ok e)
    (hexamine : (new seed config).examine S e now = .ok ()) :
    ⟨e.body.link.key S, e, now⟩ ∈
      ((new seed config).submitOctets S o now).2.pending.entries := by
  show _ ∈ ((new seed config).receive S (.octets o) now).2.pending.entries
  rw [receive_of_ok (s := .octets o) hread]
  exact waits_of_examine hexamine

end Linker

namespace Storage

instance : (k : BaseKind) → LinkableBase k.Object
  | .proof => inferInstanceAs (LinkableBase Proof)
  | .contract => inferInstanceAs (LinkableBase Contract)

/-- **Nothing that is read is out of order**, whether from octets, from the text form of an
object, a credit or a value, or by a linker. At a linker every evidence that octets cause to wait
is in order, and in a run of calls that hand over well-formed evidences all that wait are. -/
theorem read_objects_valid (S : Suite) :
    (∀ (k : Kind) (o : Octets) (x : k.Object), Stored.ofOctets S o = .ok x → k.Valid S x) ∧
    (∀ (k : TextKind) (s : String) (x : k.kind.Object),
      Marked.parse S s = .ok x → k.kind.Valid S x) ∧
    (∀ (s : String) (c : Credit), Credit.parse S s = .ok c → Kind.credit.Valid S c) ∧
    (∀ (s : String) (v : Value), Value.parse S s = .ok v → Kind.value.Valid S v) ∧
    (∀ (base : BaseKind) (k : Linker base.Object) (o : Octets) (now : Mics),
      ∀ w ∈ (k.submitOctets S o now).2.pending.entries, w ∉ k.pending.entries →
        (Kind.linkedEvidence base).Valid S w.evidence) ∧
    (∀ (base : BaseKind) (seed : Seed) (config : LinkerConfig) (calls : List (Call base.Object)),
      (∀ c ∈ calls, c.WellFormed S) →
      ∀ w ∈ ((Linker.new seed config).run S calls).pending.entries,
        (Kind.linkedEvidence base).Valid S w.evidence) := by
  refine ⟨?_, ?_, ?_, ?_, ?_, ?_⟩
  · intro k o x h
    exact Kind.valid_of_ofOctets h
  · intro k s x h
    exact TextKind.valid_of_parse h
  · intro s c h
    exact Kind.valid_iff.mpr (Credit.wellFormed_of_ofSymbols h)
  · intro s v h
    exact Kind.valid_iff.mpr (Value.wellFormed_of_ofSymbols h)
  · intro base k o now w hw hnew
    rcases Linker.mem_submitOctets hw with hold | hread
    · exact absurd hold hnew
    · exact Kind.valid_of_ofOctets hread
  · intro base seed config calls hwell w hw
    have hsound : ((Linker.new seed config).run S calls).Sound S (Call.allHashed S calls) :=
      Linker.sound_run (Linker.sound_new seed config) hwell fun c hc o ho => ⟨c, hc, ho⟩
    exact Kind.valid_iff.mpr (hsound.admitted w hw).known.wellFormed

/-- A credit whose only merger is the originator. -/
def plainCredit : Credit :=
  ⟨Suite.plain.publicKey (.padded [1]), [Suite.plain.publicKey (.padded [1])]⟩

/-- What the originator owes of the credit. -/
def plainDebt : Value := ⟨plainCredit.originator, ⟨-5⟩, plainCredit⟩

/-- An amount of nineteen digits, which no value may have. -/
def overdrawn : Value := ⟨plainCredit.originator, ⟨-1000000000000000000⟩, plainCredit⟩

/-- The credit in octets that no writer here makes: its members in another order with an unknown
one between them, an array of open length, and octets at the end that belong to nothing. -/
def looseOctets : Octets :=
  0xa3 :: (Cbor.text "mergers").encode ++ 0x9f :: Stored.octets plainCredit.originator ++
    0xff :: (Cbor.text "memo").encode ++ Cbor.null.encode ++
    (Cbor.text "originator").encode ++ Stored.octets plainCredit.originator ++ [0xff, 0]

/-- Loose octets, the texts of a proof, a credit and a value, and a side that comes to wait, as
octets and as it is. What is out of range comes neither from octets nor from a text. -/
theorem read_objects_valid_plain :
    (Stored.ofOctets .plain looseOctets = .ok plainCredit ∧
      Kind.credit.Valid .plain plainCredit) ∧
    (Marked.parse .plain (Marked.text (Linker.plainProof (.padded [1]))) =
        .ok (Linker.plainProof (.padded [1])) ∧
      Kind.proof.Valid .plain (Linker.plainProof (.padded [1]))) ∧
    (Credit.parse .plain plainCredit.text = .ok plainCredit ∧
      Kind.credit.Valid .plain plainCredit) ∧
    (Value.parse .plain plainDebt.text = .ok plainDebt ∧ Kind.value.Valid .plain plainDebt) ∧
    ((∃ w ∈ ((Linker.new (.padded []) {}).submitOctets .plain
        (Stored.octets (Linker.plainSide true)) 3).2.pending.entries,
          w.evidence = Linker.plainSide true) ∧
      (Kind.linkedEvidence .proof).Valid .plain (Linker.plainSide true)) ∧
    ((∀ c ∈ [Call.receive (.evidence (Linker.plainSide true)) 3], c.WellFormed .plain) ∧
      ∃ w ∈ ((Linker.new (.padded []) {}).run .plain
        [.receive (.evidence (Linker.plainSide true)) 3]).pending.entries,
          (Kind.linkedEvidence .proof).Valid .plain w.evidence) ∧
    ((∀ o, Stored.ofOctets .plain o ≠ .ok overdrawn) ∧
      (∀ s, Value.parse .plain s ≠ .ok overdrawn) ∧
      (Stored.ofOctets .plain (Stored.octets overdrawn) : Except DataFault Value) =
        .error (.decoding (.model (.pointOutOfRange (-1000000000000000000)))) ∧
      Value.parse .plain overdrawn.text =
        .error (.model (.pointOutOfRange (-1000000000000000000)))) := by
  obtain ⟨hoctets, hmarked, hcredit, hvalue, hsubmit, hrun⟩ := read_objects_valid .plain
  have hloose : Stored.ofOctets .plain looseOctets = .ok plainCredit := by decide +kernel
  have hproof : Marked.parse .plain (Marked.text (Linker.plainProof (.padded [1]))) =
      .ok (Linker.plainProof (.padded [1])) := by
    rw [Marked.parse_text rfl]
    decide +kernel
  have hcreditText : Credit.parse .plain plainCredit.text = .ok plainCredit := by decide +kernel
  have hvalueText : Value.parse .plain plainDebt.text = .ok plainDebt := by decide +kernel
  have hread : Stored.ofOctets .plain (Stored.octets (Linker.plainSide true)) =
      .ok (Linker.plainSide true) := by decide +kernel
  have hexamine : (Linker.new (.padded []) {}).examine .plain (Linker.plainSide true) 3 =
      .ok () := by decide +kernel
  have hwaits := Linker.waits_of_submitOctets hread hexamine
  have hproofs : ∀ (k : Linker Proof) (o : Octets) (now : Mics),
      ∀ w ∈ (k.submitOctets .plain o now).2.pending.entries, w ∉ k.pending.entries →
        (Kind.linkedEvidence .proof).Valid .plain w.evidence := hsubmit .proof
  have hruns : ∀ calls : List (Call Proof), (∀ c ∈ calls, c.WellFormed .plain) →
      ∀ w ∈ ((Linker.new (.padded []) {}).run .plain calls).pending.entries,
        (Kind.linkedEvidence .proof).Valid .plain w.evidence := hrun .proof _ _
  have hcalls : ∀ c ∈ [Call.receive (.evidence (Linker.plainSide true)) 3],
      c.WellFormed .plain :=
    List.forall_mem_singleton.mpr (Linker.wellFormed_plainSide true)
  have hwaitsRun := Linker.waits_of_examine hexamine
  have hoverdrawn : ¬ Kind.value.Valid .plain overdrawn := by
    intro h
    have hwell : overdrawn.WellFormed .plain := h.wellFormed
    exact absurd hwell.bounds_point (by decide)
  refine ⟨⟨hloose, hoctets .credit _ _ hloose⟩, ⟨hproof, hmarked .proof _ _ hproof⟩,
    ⟨hcreditText, hcredit _ _ hcreditText⟩, ⟨hvalueText, hvalue _ _ hvalueText⟩,
    ⟨⟨_, hwaits, rfl⟩, hproofs _ _ _ _ hwaits List.not_mem_nil⟩,
    ⟨hcalls, _, hwaitsRun, hruns _ hcalls _ hwaitsRun⟩,
    fun o ho => hoverdrawn (hoctets .value o _ ho), fun s hs => hoverdrawn (hvalue s _ hs),
    by decide +kernel, by decide +kernel⟩

end Storage

end Settlement
