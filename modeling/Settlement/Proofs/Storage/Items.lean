import Settlement.Proofs.Storage.Delimited
import Settlement.Storage.Record

/-!
# How stored values are read

One lemma for each way in which a stored value is written: numbers, truth
values, strings of a fixed size, values that may be absent, lists, records and
alternatives. What is written in one of these ways is read whole
(`ItemReader.Reads`) if its parts are.

A record is read through a draft: `Member.Fills` follows the draft from entry
to entry, and `Reader.reads_record` is the law for the whole record.
-/

namespace Settlement.Storage

variable {α β δ : Type}

namespace Reader

open ItemReader

/-! ## Numbers and truth values -/

theorem takes_integerIn (low high : Int) {h : Head} {n : Int}
    (hread : ∀ fuel, integerWithin (fuel + 1) h = (pure n : Reader Int)) (hlow : low ≤ n)
    (hhigh : n ≤ high) : (integerIn low high h).Takes [] n := by
  have hfuel : (fun o => integerWithin (o.length + 1) h o) = (pure n : Reader Int) := by
    funext o
    show integerWithin (o.length + 1) h o = _
    rw [hread]
  unfold integerIn
  rw [hfuel]
  refine (takes_pure n).nil_bind ?_
  rw [if_pos ⟨hlow, hhigh⟩]
  exact takes_pure n

theorem toNat_toUInt64 {n : Int64} (h : 0 ≤ n) : (n.toUInt64.toNat : Int) = n.toInt := by
  have h0 := Int64.le_iff_toInt_le.mp h
  rw [Int64.toInt_zero] at h0
  have hnonneg : 0 ≤ n.toBitVec.toInt := h0
  show (n.toBitVec.toNat : Int) = n.toBitVec.toInt
  rw [BitVec.toInt_eq_toNat_cond] at hnonneg ⊢
  split
  · rfl
  · have hlt := n.toBitVec.isLt
    omega

/-- A signed number, on either side of zero. -/
theorem reads_int64 (n : Int64) : int64.Reads 0 (.int n) n := by
  have hlow : Int64.minValue.toInt ≤ n.toInt := Int64.minValue_le_toInt n
  have hhigh : n.toInt ≤ Int64.maxValue.toInt := Int64.toInt_le n
  have hback : Int64.ofInt n.toInt = n := Int64.ofInt_toInt n
  unfold Cbor.int
  split
  · next hnonneg =>
    have hn := toNat_toUInt64 hnonneg
    refine reads_of_starts (starts_uint _) fun budget _ => ?_
    have hint := (takes_integerIn _ _ (h := .unsigned n.toUInt64.toNat) (fun _ => rfl)
      (hn ▸ hlow) (hn ▸ hhigh)).map Int64.ofInt
    rw [hn, hback] at hint
    exact hint
  · next hneg =>
    have hneg' : n.toInt < (0 : Int64).toInt := Int64.lt_iff_toInt_lt.mp (Int64.not_le.mp hneg)
    rw [Int64.toInt_zero] at hneg'
    have hsub : (-1 - n).toInt = -1 - n.toInt := by
      have hlower := Int64.le_toInt n
      have hone : (-1 : Int64).toInt = -1 := by decide
      rw [Int64.toInt_sub, hone]
      exact Int.bmod_eq_of_le (by omega) (by omega)
    have hnonneg : (0 : Int64) ≤ -1 - n := by
      rw [Int64.le_iff_toInt_le, Int64.toInt_zero]
      omega
    have hn := toNat_toUInt64 hnonneg
    have hback' : -1 - ((-1 - n).toUInt64.toNat : Int) = n.toInt := by omega
    refine reads_of_starts (starts_nint _) fun budget _ => ?_
    have hint := (takes_integerIn _ _ (h := .negative (-1 - n).toUInt64.toNat) (fun _ => rfl)
      (hback' ▸ hlow) (hback' ▸ hhigh)).map Int64.ofInt
    rw [hback', hback] at hint
    exact hint

theorem reads_uint64 (n : UInt64) : uint64.Reads 0 (.uint n) n := by
  refine reads_of_starts (starts_uint n) fun budget _ => ?_
  have hlt := n.toNat_lt
  have hint := (takes_integerIn 0 0xffffffffffffffff (h := .unsigned n.toNat)
    (fun _ => rfl) (by omega) (by omega)).map fun k => UInt64.ofNat k.toNat
  rw [Int.toNat_natCast, UInt64.ofNat_toNat] at hint
  exact hint

theorem reads_uint8 (n : UInt8) : uint8.Reads 0 (.uint n.toUInt64) n := by
  refine reads_of_starts (starts_uint n.toUInt64) fun budget _ => ?_
  have hlt := n.toNat_lt
  rw [UInt8.toNat_toUInt64]
  have hint := (takes_integerIn 0 255 (h := .unsigned n.toNat)
    (fun _ => rfl) (by omega) (by omega)).map fun k => UInt8.ofNat k.toNat
  rw [Int.toNat_natCast, UInt8.ofNat_toNat] at hint
  exact hint

theorem reads_bool (b : Bool) : bool.Reads 0 (.bool b) b := by
  refine reads_of_starts (starts_bool b) fun budget _ => ?_
  cases b with
  | false => exact takes_pure false
  | true => exact takes_pure true

/-! ## Strings of a fixed size, and values that may be absent -/

theorem reads_block {n : Nat} (hn : n ≤ stringLimit) (b : Block n) :
    (block n).Reads 0 (.bytes b.octets) b := by
  have hlimit : stringLimit < UInt64.size := by decide
  have hlength : b.octets.length ≤ stringLimit := by
    rw [b.length_octets]
    exact hn
  refine reads_of_starts (starts_bytes (by omega)) fun budget _ => ?_
  unfold block
  refine (takes_pure (Head.bytes (some b.octets.length))).nil_bind ?_
  simp only [if_pos hlength]
  refine (takes_octets b.octets).bind_nil ?_
  rw [Block.ofOctets?_octets]
  exact takes_pure b

theorem reads_none {item : ItemReader α} : (optional item).Reads 0 .null none :=
  reads_of_starts starts_null fun _ _ => takes_pure none

/-- What does not start like an absent value is there. -/
theorem reads_some {item : ItemReader α} {depth : Nat} {v : Cbor} {x : α} {h : Head}
    {body : Octets} (hitem : item.Reads depth v x) (hv : Starts v h body)
    (hnull : h ≠ .simple 22) (hundefined : h ≠ .simple 23) :
    (optional item).Reads depth v (some x) := by
  refine reads_of_starts hv fun budget hbudget => ?_
  have hoptional : optional item budget h = some <$> item budget h := by
    unfold optional
    split
    · exact absurd rfl hnull
    · exact absurd rfl hundefined
    · rfl
  rw [hoptional]
  exact (hitem.takes hv hbudget).map some

/-! ## Lists -/

variable {item : ItemReader α} {depth : Nat} {cbor : α → Cbor}

theorem takes_enter {budget : Nat} (h : 1 ≤ budget) : (enter budget).Takes [] (budget - 1) := by
  cases budget with
  | zero => omega
  | succ budget => exact takes_pure budget

/-- An element, and those after it. -/
theorem takes_times_succ {step : Head → δ → Reader δ} {count : Nat} {d d' d'' : δ} {a b : Octets}
    (hstep : Takes (head >>= fun h => step h d) a d') (hrest : (times step count d').Takes b d'') :
    (times step (count + 1) d).Takes (a ++ b) d'' := by
  have hunfold : times step (count + 1) d =
      (head >>= fun h => step h d) >>= times step count := by
    rw [bind_assoc]
    rfl
  rw [hunfold]
  exact hstep.bind hrest

theorem reads_list {xs : List α} (hlength : xs.length < UInt64.size)
    (hitem : ∀ x ∈ xs, item.Reads depth (cbor x) x) :
    (list item).Reads (depth + 1) (.array (xs.map cbor)) xs := by
  refine reads_of_starts (starts_array (by simpa using hlength)) fun budget hbudget => ?_
  rw [List.length_map]
  -- the items that have been read lie in front of the later ones in reverse
  have htimes : ∀ acc, (times (fun h xs => (· :: xs) <$> item (budget - 1) h) xs.length acc).Takes
      (Cbor.encodeItems (xs.map cbor)) (xs.reverse ++ acc) := by
    clear hlength
    induction xs with
    | nil => exact fun acc => takes_pure acc
    | cons x xs ih =>
        intro acc
        have hx := ((hitem x (.head _)).map (f := (· :: acc))) (budget - 1) (by omega)
        have hrest := ih (fun y hy => hitem y (.tail _ hy)) (x :: acc)
        rw [List.reverse_cons, List.append_assoc]
        exact takes_times_succ hx hrest
  have hall := (htimes []).map List.reverse
  rw [List.append_nil, List.reverse_reverse] at hall
  unfold list
  refine (takes_pure (Head.array (some xs.length))).nil_bind ?_
  exact (takes_enter (by omega)).nil_bind hall

theorem reads_exactly {xs : List α} (hlength : xs.length < UInt64.size)
    (hitem : ∀ x ∈ xs, item.Reads depth (cbor x) x) :
    (exactly xs.length item).Reads (depth + 1) (.array (xs.map cbor)) xs := by
  refine reads_of_starts (starts_array (by simpa using hlength)) fun budget hbudget => ?_
  rw [List.length_map]
  have hfirst : (firstElements (item (budget - 1)) xs.length (some xs.length)).Takes
      (Cbor.encodeItems (xs.map cbor)) xs := by
    clear hlength
    induction xs with
    | nil => exact takes_pure []
    | cons x xs ih =>
        have hrest := ih fun y hy => hitem y (.tail _ hy)
        have hunfold : firstElements (item (budget - 1)) (x :: xs).length
            (some (x :: xs).length) = (head >>= item (budget - 1)) >>= fun y =>
              (y :: ·) <$> firstElements (item (budget - 1)) xs.length (some xs.length) := by
          rw [bind_assoc]
          simp only [map_eq_pure_bind]
          rfl
        rw [hunfold]
        exact (hitem x (.head _) (budget - 1) (by omega)).bind (hrest.map (x :: ·))
  unfold exactly
  refine (takes_pure (Head.array (some xs.length))).nil_bind ?_
  exact (takes_enter (by omega)).nil_bind hfirst

/-! ## Names -/

end Reader

/-- A text that can be read as a name: short enough, and made of whole characters. -/
def IsName (s : String) : Prop :=
  (Cbor.utf8 s).length ≤ stringLimit ∧ Utf8.isValid (Cbor.utf8 s) = true

instance (s : String) : Decidable (IsName s) := inferInstanceAs (Decidable (_ ∧ _))

/-- Names that can be read and told apart. -/
def AreNames (names : List String) : Prop :=
  names.Nodup ∧ (∀ s ∈ names, IsName s) ∧ names.length < UInt64.size

instance (names : List String) : Decidable (AreNames names) :=
  inferInstanceAs (Decidable (_ ∧ _ ∧ _))

/-- What has a name of its own is found by it. -/
theorem find?_name {γ : Type} {name : γ → String} {l : List γ} (hnodup : (l.map name).Nodup)
    {a : γ} (ha : a ∈ l) :
    l.find? (fun b => Cbor.utf8 (name b) = Cbor.utf8 (name a)) = some a := by
  induction l with
  | nil => cases ha
  | cons b l ih =>
      obtain ⟨hnew, hrest⟩ := List.nodup_cons.mp hnodup
      rcases List.mem_cons.mp ha with rfl | ha
      · exact List.find?_cons_of_pos (by simp)
      · have hne : ¬ Cbor.utf8 (name b) = Cbor.utf8 (name a) := fun h =>
          hnew (List.mem_map.mpr ⟨a, ha, (Cbor.utf8_inj h).symm⟩)
        exact (List.find?_cons_of_neg (by simpa using hne)).trans (ih hrest ha)

namespace Reader

theorem takes_name {s : String} (h : IsName s) :
    Takes (head >>= name) (Cbor.text s).encode (Cbor.utf8 s) := by
  have hlimit : stringLimit < UInt64.size := by decide
  obtain ⟨front, hencode, hhead⟩ := starts_text (Nat.lt_of_le_of_lt h.1 hlimit)
  rw [hencode]
  refine hhead.bind ?_
  unfold name
  refine (takes_pure (Head.text (some (Cbor.utf8 s).length))).nil_bind ?_
  simp only [if_pos h.1]
  refine (takes_octets (Cbor.utf8 s)).bind_nil ?_
  rw [if_pos h.2]
  exact takes_pure _

end Reader

/-! ## Records -/

/-- The member reads its value into a draft and leaves another. -/
def Member.Reads (m : Member δ) (depth : Nat) (v : Cbor) (d d' : δ) : Prop :=
  ∀ budget, depth ≤ budget → (m.read budget d).Takes v.encode d'

theorem Member.reads_of {name : String} {get : δ → Option α} {set : δ → α → δ}
    {item : ItemReader α} {depth deeper : Nat} {v : Cbor} {d : δ} {x : α}
    (hitem : item.Reads depth v x) (hd : get d = none) (hdepth : depth ≤ deeper) :
    (Member.of name get set item).Reads deeper v d (set d x) := by
  intro budget hbudget
  have hread := (hitem budget (Nat.le_trans hdepth hbudget)).bind_nil
    (f := fun y => pure (set d y)) (Reader.takes_pure _)
  rw [bind_assoc] at hread
  unfold Member.of
  simp only [hd, Option.isSome_none, Bool.false_eq_true, if_false]
  exact hread

/-- The members read the entries in their order, each into the draft that those before it have
left. -/
inductive Member.Fills (depth : Nat) : List (Member δ) → List (String × Cbor) → δ → δ → Prop
  | nil {d : δ} : Fills depth [] [] d d
  | cons {m : Member δ} {members : List (Member δ)} {name : String} {v : Cbor}
      {entries : List (String × Cbor)} {d d' d'' : δ} (hname : m.name = name)
      (hread : m.Reads depth v d d') (hrest : Fills depth members entries d' d'') :
      Fills depth (m :: members) ((name, v) :: entries) d d''

/-- A value goes to its own place in the draft, which has to be free. -/
theorem Member.Fills.of {name : String} {get : δ → Option α} {set : δ → α → δ}
    {item : ItemReader α} {depth deeper : Nat} {v : Cbor} {x : α} {members : List (Member δ)}
    {entries : List (String × Cbor)} {d d' : δ} (hitem : item.Reads depth v x)
    (hd : get d = none) (hdepth : depth ≤ deeper)
    (hrest : Member.Fills deeper members entries (set d x) d') :
    Member.Fills deeper (.of name get set item :: members) ((name, v) :: entries) d d' :=
  .cons rfl (Member.reads_of hitem hd hdepth) hrest

theorem Member.Fills.length_eq {depth : Nat} {members : List (Member δ)}
    {entries : List (String × Cbor)} {d d' : δ} (h : Member.Fills depth members entries d d') :
    entries.length = members.length := by
  induction h with
  | nil => rfl
  | cons _ _ _ ih => rw [List.length_cons, List.length_cons, ih]

namespace Reader

open ItemReader

variable {members : List (Member δ)} {entries : List (String × Cbor)} {depth budget : Nat}

/-- An entry is read name first. -/
theorem head_bind_entry (members : List (Member δ)) (budget : Nat) (d : δ) :
    (head >>= fun h => entry members budget h d) = (head >>= Reader.name) >>= fun key =>
      match members.find? (fun m => Cbor.utf8 m.name = key) with
      | some m => m.read budget d
      | none => do
        skip budget (← head)
        return d := by
  rw [bind_assoc]
  rfl

theorem takes_entries (hnames : AreNames (members.map Member.name)) (hbudget : depth ≤ budget)
    {todo : List (Member δ)} (htodo : ∀ m ∈ todo, m ∈ members) {d d' : δ}
    (hfills : Member.Fills depth todo entries d d') :
    (times (entry members budget) entries.length d).Takes
      (Cbor.encodeEntries (entries.map fun e => (.text e.1, e.2))) d' := by
  induction hfills with
  | nil => exact takes_pure _
  | @cons m todo name v entries d d' d'' hname hread hrest ih =>
      subst hname
      have hm := htodo m (.head _)
      have hentry : Takes (head >>= fun h => entry members budget h d)
          ((Cbor.text m.name).encode ++ v.encode) d' := by
        have hkey := takes_name (hnames.2.1 _ (List.mem_map.mpr ⟨m, hm, rfl⟩))
        have hvalue := hread budget hbudget
        rw [head_bind_entry]
        refine hkey.bind ?_
        rw [find?_name hnames.1 hm]
        exact hvalue
      exact takes_times_succ hentry (ih fun m hm => htodo m (.tail _ hm))

/-- **A record is read as it was written**, if each of its members is. -/
theorem reads_record {empty d : δ} {finish : δ → Except DecodeFault α} {x : α}
    (hnames : AreNames (members.map Member.name))
    (hfills : Member.Fills depth members entries empty d) (hfinish : finish d = .ok x) :
    (record members empty finish).Reads (depth + 1) (recordCbor entries) x := by
  have hlength : (entries.map fun e => (Cbor.text e.1, e.2)).length < UInt64.size := by
    rw [List.length_map, hfills.length_eq, ← List.length_map Member.name]
    exact hnames.2.2
  refine reads_of_starts (starts_map hlength) fun budget hbudget => ?_
  rw [List.length_map]
  have hentries := takes_entries hnames (show depth ≤ budget - 1 by omega) (fun _ hm => hm) hfills
  unfold record
  refine (takes_pure (Head.map (some entries.length))).nil_bind ?_
  refine (takes_enter (by omega)).nil_bind ?_
  exact hentries.bind_nil (takes_lift hfinish)

/-! ## Alternatives -/

variable {alternatives : List (String × ItemReader α)} {name : String} {item : ItemReader α}
  {v : Cbor} {x : α}

/-- An alternative is read as it was written, if its content is. -/
theorem reads_oneOf (hnames : AreNames (alternatives.map Prod.fst))
    (hmem : (name, item) ∈ alternatives) (hitem : item.Reads depth v x) :
    (oneOf alternatives).Reads (depth + 1) (alternativeCbor name v) x := by
  have hbody : Cbor.encodeEntries [(.text name, v)] = (Cbor.text name).encode ++ v.encode := by
    simp [Cbor.encodeEntries]
  have hone : [(Cbor.text name, v)].length < UInt64.size := by
    rw [List.length_singleton]
    decide
  refine reads_of_starts (starts_map hone) fun budget hbudget => ?_
  rw [hbody]
  unfold oneOf
  refine (takes_pure (Head.map (some 1))).nil_bind ?_
  refine (takes_enter (by omega)).nil_bind ?_
  have hkey := takes_name (hnames.2.1 _ (List.mem_map.mpr ⟨_, hmem, rfl⟩))
  have hcontent : (content alternatives (budget - 1) (Cbor.utf8 name)).Takes v.encode x := by
    unfold content
    rw [find?_name hnames.1 hmem]
    exact hitem (budget - 1) (by omega)
  have hboth := hkey.bind hcontent
  rw [bind_assoc] at hboth
  exact hboth

end Reader

end Settlement.Storage
