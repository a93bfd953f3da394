import Settlement.Proofs.Storage.Steady
import Settlement.Storage.Evidence
import Settlement.Token

/-!
# Labels of records

A record says its type by nothing but the names of its members. For each type
one member that cannot be absent is its label: the reader refuses every record
without it, whatever the other members hold (`ItemReader.Labelled`). Evidences
and linkages over proofs have the labels of those over contracts; they are told
apart by what their first base holds, which their readers refuse if it is of
the other type.
-/

namespace Settlement.Storage

variable {α δ : Type}

/-! ## Members -/

/-- Shown the value, the member fails or takes it whole. -/
def Member.Ends (m : Member δ) (v : Cbor) (P : δ → Prop) : Prop :=
  ∀ budget d, (m.read budget d).Ends v.encode P

/-- The reader keeps its place, and refuses every record that lacks the label or in which only bad
values have it. -/
structure ItemReader.Labelled (item : ItemReader α) (label : String) (Bad : Cbor → Prop) :
    Prop where
  steady : item.Steady
  refuses : ∀ entries, Storable (.map entries) →
    (∀ v, (.text label, v) ∈ entries → Bad v) → item.Refuses (.map entries)

/-- The member keeps its place, and keeps the invariant unless it is the label's; that one refuses
what is bad. -/
structure Member.Guards (m : Member δ) (I : δ → Prop) (label : String) (Bad : Cbor → Prop) :
    Prop where
  steady : ∀ v, Storable v → m.Ends v fun _ => True
  keeps : m.Keeps I ∨ m.name = label ∧ ∀ v, Bad v → m.Ends v fun _ => False

namespace Member

variable {name : String} {get : δ → Option α} {set : δ → α → δ} {item : ItemReader α}

theorem ends_of {v : Cbor} {P : α → Prop} {Q : δ → Prop} (hitem : item.Ends v P)
    (hset : ∀ d x, P x → Q (set d x)) : (Member.of name get set item).Ends v Q := by
  intro budget d
  have hread : Reader.Ends (do
      let h ← Reader.head
      return set d (← item budget h)) v.encode Q := by
    have hassoc : (do
        let h ← Reader.head
        return set d (← item budget h)) =
          (Reader.head >>= item budget) >>= fun x => (pure (set d x) : Reader δ) := by
      rw [bind_assoc]
    rw [hassoc]
    exact (hitem budget).bind_nil fun x hx => Reader.ends_pure (hset d x hx)
  unfold Member.of
  simp only
  split
  · exact Reader.ends_throw _
  · exact hread

theorem guards_other {I : δ → Prop} {label : String} {Bad : Cbor → Prop} (hitem : item.Steady)
    (hset : ∀ d x, I d → I (set d x)) : (Member.of name get set item).Guards I label Bad where
  steady _ hv := ends_of (hitem.ends hv) fun _ _ _ => trivial
  keeps := .inl (keeps_other hset)

theorem guards_label {I : δ → Prop} {Bad : Cbor → Prop} (hitem : item.Steady)
    (hbad : ∀ v, Bad v → item.Refuses v) : (Member.of name get set item).Guards I name Bad where
  steady _ hv := ends_of (hitem.ends hv) fun _ _ _ => trivial
  keeps := .inr ⟨rfl, fun v hv => ends_of (hbad v hv) fun _ _ => False.elim⟩

end Member

namespace Reader

open ItemReader

/-! ## Records and alternatives -/

/-- An entry goes to the member of its name or is dropped. -/
theorem ends_entry {members : List (Member δ)} {I : δ → Prop} {budget : Nat} {s : String}
    {v : Cbor} {d : δ} (hs : IsName s) (hv : Storable v) (hd : I d)
    (hmember : ∀ m ∈ members, m.name = s → (m.read budget d).Ends v.encode I) :
    Ends (head >>= fun h => entry members budget h d) ((Cbor.text s).encode ++ v.encode) I := by
  rw [head_bind_entry]
  refine (takes_name hs).bind_ends ?_
  split
  · next m hm =>
    have hname : Cbor.utf8 m.name = Cbor.utf8 s := by simpa using List.find?_some hm
    exact hmember m (List.mem_of_find?_eq_some hm) (Cbor.utf8_inj hname)
  · rw [← bind_assoc]
    exact (ends_skip hv budget).bind_nil fun _ _ => ends_pure hd

variable {members : List (Member δ)} {empty : δ} {finish : δ → Except DecodeFault α}

/-- An invariant of the draft holds of what is finished. -/
theorem ends_record {I : δ → Prop} {P : α → Prop} {entries : List (Cbor × Cbor)}
    (hkeys : ∀ e ∈ entries, ∃ s, IsName s ∧ e.1 = .text s) (hvalues : ∀ e ∈ entries, Storable e.2)
    (hempty : I empty)
    (hmembers : ∀ m ∈ members, ∀ v, (.text m.name, v) ∈ entries → ∀ budget d, I d →
      (m.read budget d).Ends v.encode I)
    (hfinish : ∀ d x, I d → finish d = .ok x → P x) (budget : Nat) :
    (record members empty finish budget (.map (some entries.length))).Ends
      (Cbor.encodeEntries entries) P := by
  unfold record
  refine (ends_pure (P := (· = Head.map (some entries.length))) rfl).nil_bind ?_
  rintro _ rfl
  refine (ends_enter budget).nil_bind fun inner _ => ?_
  refine Ends.bind_nil (P := I) ?_ fun d hd => ends_lift (hfinish d · hd)
  show (times (entry members inner) entries.length empty).Ends _ _
  rw [Cbor.encodeEntries_eq_flatMap, List.flatMap_def,
    ← List.length_map fun e : Cbor × Cbor => e.1.encode ++ e.2.encode]
  refine ends_times (fun o ho d hd => ?_) empty hempty
  obtain ⟨⟨key, v⟩, he, rfl⟩ := List.mem_map.mp ho
  obtain ⟨s, hs, hkey⟩ := hkeys _ he
  obtain rfl : key = .text s := hkey
  refine ends_entry hs (hvalues _ he) hd fun m hm hname => ?_
  subst hname
  exact hmembers m hm v he inner d hd

theorem steady_record
    (hmembers : ∀ m ∈ members, ∀ v, Storable v → m.Ends v fun _ => True) :
    (record members empty finish).Steady := by
  intro budget h body hshape
  cases hshape with
  | map hkeys hvalues =>
      refine ends_record (I := fun _ => True) hkeys hvalues trivial ?_ (fun _ _ _ _ => trivial) _
      intro m hm v hv budget d _
      exact hmembers m hm v (hvalues _ hv) budget d
  | unsigned n => exact ends_throw _
  | negative n => exact ends_throw _
  | simple n => exact ends_throw _
  | bytes b => exact ends_throw _
  | array _ _ => exact ends_throw _

/-- **A record without its label is refused**, if no other member can stand in for it in the
draft. -/
theorem labelled_record {I : δ → Prop} {label : String} {Bad : Cbor → Prop}
    (hmembers : ∀ m ∈ members, m.Guards I label Bad) (hempty : I empty)
    (hfinish : ∀ d x, I d → finish d ≠ .ok x) :
    (record members empty finish).Labelled label Bad where
  steady := steady_record fun m hm => (hmembers m hm).steady
  refuses := by
    intro entries hentries hbad
    cases hentries with
    | map hlength hkeys hvalues =>
        refine ends_of_starts (starts_map hlength) fun budget => ?_
        refine ends_record (I := I) hkeys hvalues hempty ?_ hfinish budget
        intro m hm v hv budget d hd
        rcases (hmembers m hm).keeps with hkeeps | ⟨rfl, hrefuses⟩
        · exact ((hmembers m hm).steady v (hvalues _ hv) budget d).and_gives (hkeeps budget d hd)
        · intro rest x left hx
          exact (hrefuses v (hbad v hv) budget d hx).2.elim

theorem steady_oneOf {alternatives : List (String × ItemReader α)}
    (halternatives : ∀ a ∈ alternatives, a.2.Steady) : (oneOf alternatives).Steady := by
  intro budget h body hshape
  unfold oneOf
  rw [hshape.untag_eq]
  simp only [pure_bind]
  cases hshape with
  | @map entries hkeys hvalues =>
      rcases entries with _ | ⟨⟨key, v⟩, _ | ⟨e, entries⟩⟩
      · exact ends_throw _
      · obtain ⟨s, hs, hkey⟩ := hkeys _ (.head _)
        obtain rfl : key = .text s := hkey
        have hbody : Cbor.encodeEntries [(.text s, v)] = (Cbor.text s).encode ++ v.encode := by
          simp [Cbor.encodeEntries]
        rw [hbody]
        refine (ends_enter budget).nil_bind fun inner _ => ?_
        rw [← bind_assoc]
        refine (takes_name hs).bind_ends ?_
        unfold content
        split
        · next a ha =>
          exact (halternatives a (List.mem_of_find?_eq_some ha)).ends (hvalues _ (.head _)) inner
        · exact ends_throw _
      · exact ends_throw _
  | unsigned n => exact ends_throw _
  | negative n => exact ends_throw _
  | simple n => exact ends_throw _
  | bytes b => exact ends_throw _
  | array _ _ => exact ends_throw _

end Reader

open Reader

variable {S : Suite}

theorem Reader.require_bind_ne_ok {β : Type} {o : Option α} {f : α → Except DecodeFault β} {y : β}
    (h : o = none) : (require o >>= f) ≠ .ok y := by
  subst h
  nofun

/-! ## Readers of parts -/

theorem steady_publicKey : (Stored.read S : ItemReader PublicKey).Steady :=
  fun budget _ _ hshape => (steady_block (by decide) budget hshape).map fun _ _ => trivial

theorem steady_signature : (Stored.read S : ItemReader Signature).Steady :=
  fun budget _ _ hshape => (steady_block (by decide) budget hshape).map fun _ _ => trivial

theorem steady_identifier : (Stored.read S : ItemReader Identifier).Steady :=
  fun budget _ _ hshape => (steady_block (by decide) budget hshape).map fun _ _ => trivial

theorem steady_point : (Stored.read S : ItemReader Point).Steady :=
  fun budget _ _ hshape => (steady_int64 budget hshape).map fun _ _ => trivial

theorem steady_mergerSignatures : (Stored.read S : ItemReader MergerSignatures).Steady := by
  intro budget h body hshape
  refine (steady_exactly (steady_optional steady_signature) budget hshape).bind_nil
    fun slots _ => ?_
  split
  · exact ends_pure trivial
  · exact ends_throw _

/-! ## Labelled readers -/

/-- No value of the label is bad; it is missing or nothing is wrong with it. -/
abbrev Never : Cbor → Prop := fun _ => False

theorem labelled_credit : (Stored.read S : ItemReader Credit).Labelled "originator" Never := by
  refine labelled_record (I := fun d => d.originator = none) ?_ rfl ?_
  · simp only [List.forall_mem_cons]
    exact ⟨Member.guards_label steady_publicKey fun _ => False.elim,
      Member.guards_other (steady_list steady_publicKey) fun _ _ hd => hd, nofun⟩
  · exact fun d x hd => require_bind_ne_ok hd

theorem labelled_value : (Stored.read S : ItemReader Value).Labelled "owner" Never := by
  refine labelled_record (I := fun d => d.owner = none) ?_ rfl ?_
  · simp only [List.forall_mem_cons]
    exact ⟨Member.guards_label steady_publicKey fun _ => False.elim,
      Member.guards_other steady_point fun _ _ hd => hd,
      Member.guards_other labelled_credit.steady fun _ _ hd => hd, nofun⟩
  · exact fun d x hd => require_bind_ne_ok hd

theorem labelled_token : (Stored.read S : ItemReader OwnerToken).Labelled "public_key" Never := by
  refine labelled_record (I := fun d => d.publicKey = none) ?_ rfl ?_
  · simp only [List.forall_mem_cons]
    exact ⟨Member.guards_label steady_publicKey fun _ => False.elim,
      Member.guards_other steady_signature fun _ _ hd => hd,
      Member.guards_other steady_int64 fun _ _ hd => hd,
      Member.guards_other steady_uint64 fun _ _ hd => hd,
      Member.guards_other (steady_optional labelled_credit.steady) fun _ _ hd => hd, nofun⟩
  · exact fun d x hd => require_bind_ne_ok hd

theorem steady_assertion : (Stored.read S : ItemReader Assertion).Steady := by
  refine steady_oneOf ?_
  simp only [List.forall_mem_cons]
  refine ⟨steady_record ?_, steady_record ?_, steady_record ?_, nofun⟩ <;>
    simp only [List.forall_mem_cons]
  · exact ⟨fun _ hv => Member.ends_of (labelled_value.steady.ends hv) fun _ _ _ => trivial,
      fun _ hv => Member.ends_of (steady_publicKey.ends hv) fun _ _ _ => trivial, nofun⟩
  · exact ⟨fun _ hv => Member.ends_of (labelled_value.steady.ends hv) fun _ _ _ => trivial,
      fun _ hv => Member.ends_of (steady_uint8.ends hv) fun _ _ _ => trivial,
      fun _ hv => Member.ends_of (steady_publicKey.ends hv) fun _ _ _ => trivial, nofun⟩
  · exact ⟨fun _ hv => Member.ends_of (labelled_credit.steady.ends hv) fun _ _ _ => trivial,
      fun _ hv => Member.ends_of (steady_publicKey.ends hv) fun _ _ _ => trivial,
      fun _ hv => Member.ends_of (steady_uint8.ends hv) fun _ _ _ => trivial, nofun⟩

theorem labelled_proof : (Stored.read S : ItemReader Proof).Labelled "kind" Never := by
  refine labelled_record (I := fun d => d.assertion = none) ?_ rfl ?_
  · simp only [List.forall_mem_cons]
    exact ⟨Member.guards_label steady_assertion fun _ => False.elim,
      Member.guards_other steady_int64 fun _ _ hd => hd,
      Member.guards_other steady_int64 fun _ _ hd => hd,
      Member.guards_other (steady_optional steady_signature) fun _ _ hd => hd, nofun⟩
  · exact fun d x hd => require_bind_ne_ok hd

theorem steady_contractBody : (Stored.read S : ItemReader ContractBody).Steady := by
  refine steady_oneOf ?_
  simp only [List.forall_mem_cons]
  exact ⟨fun budget _ _ hshape => (labelled_proof.steady budget hshape).map fun _ _ => trivial,
    fun budget _ _ hshape => (steady_identifier budget hshape).map fun _ _ => trivial, nofun⟩

theorem labelled_contract : (Stored.read S : ItemReader Contract).Labelled "body" Never := by
  refine labelled_record (I := fun d => d.body = none) ?_ rfl ?_
  · simp only [List.forall_mem_cons]
    exact ⟨Member.guards_label steady_contractBody fun _ => False.elim,
      Member.guards_other steady_point fun _ _ hd => hd,
      Member.guards_other steady_point fun _ _ hd => hd, nofun⟩
  · exact fun d x hd => require_bind_ne_ok hd

theorem labelled_proofEvidence :
    (Stored.read S : ItemReader ProofEvidence).Labelled "proof" Never := by
  refine labelled_record (I := fun d => d.proof = none) ?_ rfl ?_
  · simp only [List.forall_mem_cons]
    exact ⟨Member.guards_label labelled_proof.steady fun _ => False.elim,
      Member.guards_other steady_mergerSignatures fun _ _ hd => hd, nofun⟩
  · exact fun d x hd => require_bind_ne_ok hd

section

variable {B : Type} [Stored B]

theorem labelled_linkedEvidence (hbase : (Stored.read S : ItemReader B).Steady) :
    (Stored.read S : ItemReader (LinkedEvidence B)).Labelled "is_primary" Never := by
  refine labelled_record (I := fun d => d.isPrimary = none) ?_ rfl ?_
  · simp only [List.forall_mem_cons]
    exact ⟨Member.guards_label steady_bool fun _ => False.elim,
      Member.guards_other steady_int64 fun _ _ hd => hd,
      Member.guards_other hbase fun _ _ hd => hd, Member.guards_other hbase fun _ _ hd => hd,
      Member.guards_other steady_mergerSignatures fun _ _ hd => hd, nofun⟩
  · exact fun d x hd => require_bind_ne_ok hd

/-- A side whose first base is refused is refused. -/
theorem labelled_linkedEvidence_base1 (hbase : (Stored.read S : ItemReader B).Steady) :
    (Stored.read S : ItemReader (LinkedEvidence B)).Labelled "base1"
      (Stored.read S : ItemReader B).Refuses := by
  refine labelled_record (I := fun d => d.base1 = none) ?_ rfl ?_
  · simp only [List.forall_mem_cons]
    exact ⟨Member.guards_other steady_bool fun _ _ hd => hd,
      Member.guards_other steady_int64 fun _ _ hd => hd,
      Member.guards_label hbase fun _ hv => hv, Member.guards_other hbase fun _ _ hd => hd,
      Member.guards_other steady_mergerSignatures fun _ _ hd => hd, nofun⟩
  · intro d x hd h
    obtain ⟨isPrimary, -, h⟩ := bind_eq_ok_iff.mp h
    obtain ⟨linkedMics, -, h⟩ := bind_eq_ok_iff.mp h
    exact require_bind_ne_ok hd h

theorem labelled_linkage (hbase : (Stored.read S : ItemReader B).Steady) :
    (Stored.read S : ItemReader (Linkage B)).Labelled "primary_signatures" Never := by
  refine labelled_record (I := fun d => d.primarySignatures = none) ?_ rfl ?_
  · simp only [List.forall_mem_cons]
    exact ⟨Member.guards_other steady_int64 fun _ _ hd => hd,
      Member.guards_other hbase fun _ _ hd => hd, Member.guards_other hbase fun _ _ hd => hd,
      Member.guards_label steady_mergerSignatures fun _ => False.elim,
      Member.guards_other steady_mergerSignatures fun _ _ hd => hd,
      Member.guards_other (steady_optional steady_signature) fun _ _ hd => hd, nofun⟩
  · intro d x hd h
    obtain ⟨linkedMics, -, h⟩ := bind_eq_ok_iff.mp h
    obtain ⟨base1, -, h⟩ := bind_eq_ok_iff.mp h
    obtain ⟨base2, -, h⟩ := bind_eq_ok_iff.mp h
    exact require_bind_ne_ok hd h

/-- A linkage whose first base is refused is refused. -/
theorem labelled_linkage_base1 (hbase : (Stored.read S : ItemReader B).Steady) :
    (Stored.read S : ItemReader (Linkage B)).Labelled "base1"
      (Stored.read S : ItemReader B).Refuses := by
  refine labelled_record (I := fun d => d.base1 = none) ?_ rfl ?_
  · simp only [List.forall_mem_cons]
    exact ⟨Member.guards_other steady_int64 fun _ _ hd => hd,
      Member.guards_label hbase fun _ hv => hv, Member.guards_other hbase fun _ _ hd => hd,
      Member.guards_other steady_mergerSignatures fun _ _ hd => hd,
      Member.guards_other steady_mergerSignatures fun _ _ hd => hd,
      Member.guards_other (steady_optional steady_signature) fun _ _ hd => hd, nofun⟩
  · intro d x hd h
    obtain ⟨linkedMics, -, h⟩ := bind_eq_ok_iff.mp h
    exact require_bind_ne_ok hd h

end

end Settlement.Storage
