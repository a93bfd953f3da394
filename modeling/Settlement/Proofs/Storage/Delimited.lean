import Settlement.Proofs.Cbor.PrefixFree
import Settlement.Proofs.Results
import Settlement.Storage.Item

/-!
# Items that are read whole

A stored item says itself where it ends. `Reader.Takes` is that law for a
reader: of octets that start with the given ones it takes exactly these,
whatever follows, and a part of them is not enough. The law goes through the
sequence of two readers (`Reader.Takes.bind`), since a part of two pieces is a
part of the first one, or the first one and a part of the second.

`ItemReader.Reads` is the law for a value from its head on, with the nesting
that it needs.
-/

namespace Settlement.Storage

variable {α β δ : Type}

namespace Reader

/-! ## Readers in sequence -/

theorem bind_of_ok {r : Reader α} {f : α → Reader β} {o rest : Octets} {x : α}
    (h : r o = .ok (x, rest)) : (r >>= f) o = f x rest := by
  show (r o >>= fun p => f p.1 p.2) = f x rest
  rw [h]
  rfl

theorem bind_of_error {r : Reader α} {f : α → Reader β} {o : Octets} {fault : DecodeFault}
    (h : r o = .error fault) : (r >>= f) o = .error fault := by
  show (r o >>= fun p => f p.1 p.2) = .error fault
  rw [h]
  rfl

/-- The reader takes exactly these octets from the front, and gives `x`. -/
structure Takes (r : Reader α) (o : Octets) (x : α) : Prop where
  /-- What follows the octets is left. -/
  eq_ok : ∀ rest, r (o ++ rest) = .ok (x, rest)
  /-- A part of the octets is not enough. -/
  of_cut : ∀ part missing, o = part ++ missing → missing ≠ [] → ∃ fault, r part = .error fault

theorem Takes.eq_ok_self {r : Reader α} {o : Octets} {x : α} (h : r.Takes o x) :
    r o = .ok (x, []) := by
  have hok := h.eq_ok []
  rwa [List.append_nil] at hok

theorem takes_pure (x : α) : Takes (pure x) [] x where
  eq_ok _ := rfl
  of_cut part missing h hmissing := by
    obtain ⟨-, rfl⟩ := List.append_eq_nil_iff.mp h.symm
    exact absurd rfl hmissing

theorem takes_lift {r : Except DecodeFault α} {x : α} (h : r = .ok x) :
    Takes (liftM r) [] x := by
  subst h
  exact takes_pure x

theorem Takes.bind {r : Reader α} {f : α → Reader β} {a b : Octets} {x : α} {y : β}
    (hr : r.Takes a x) (hf : (f x).Takes b y) : Takes (r >>= f) (a ++ b) y where
  eq_ok rest := by
    rw [List.append_assoc, bind_of_ok (hr.eq_ok _)]
    exact hf.eq_ok rest
  of_cut part missing h hmissing := by
    rcases List.append_eq_append_iff.mp h with ⟨more, rfl, hb⟩ | ⟨left, rfl, rfl⟩
    · -- the first piece is whole, and a part of the second follows
      obtain ⟨fault, hfault⟩ := hf.of_cut more missing hb hmissing
      exact ⟨fault, (bind_of_ok (hr.eq_ok more)).trans hfault⟩
    · by_cases hleft : left = []
      · subst hleft
        rw [List.append_nil] at hr
        obtain ⟨fault, hfault⟩ := hf.of_cut [] b rfl (by simpa using hmissing)
        exact ⟨fault, (bind_of_ok hr.eq_ok_self).trans hfault⟩
      · obtain ⟨fault, hfault⟩ := hr.of_cut part left rfl hleft
        exact ⟨fault, bind_of_error hfault⟩

/-- Nothing is taken after the first reader. -/
theorem Takes.bind_nil {r : Reader α} {f : α → Reader β} {o : Octets} {x : α} {y : β}
    (hr : r.Takes o x) (hf : (f x).Takes [] y) : Takes (r >>= f) o y :=
  List.append_nil o ▸ hr.bind hf

/-- Nothing is taken by the first reader. -/
theorem Takes.nil_bind {r : Reader α} {f : α → Reader β} {o : Octets} {x : α} {y : β}
    (hr : r.Takes [] x) (hf : (f x).Takes o y) : Takes (r >>= f) o y :=
  hr.bind hf

theorem Takes.map {r : Reader α} {o : Octets} {x : α} (hr : r.Takes o x) (f : α → β) :
    Takes (f <$> r) o (f x) := by
  rw [map_eq_pure_bind]
  exact hr.bind_nil (takes_pure _)

/-- What comes after a reader that takes its octets. -/
theorem Takes.of_bind {r : Reader α} {f : α → Reader β} {a b : Octets} {x : α} {y : β}
    (hr : r.Takes a x) (h : Takes (r >>= f) (a ++ b) y) : (f x).Takes b y where
  eq_ok rest := by
    rw [← h.eq_ok rest, List.append_assoc, bind_of_ok (hr.eq_ok _)]
  of_cut part missing hb hmissing := by
    obtain ⟨fault, hfault⟩ := h.of_cut (a ++ part) missing (by simp [hb]) hmissing
    exact ⟨fault, (bind_of_ok (hr.eq_ok part)).symm.trans hfault⟩

/-! ## Octets, numbers and heads -/

theorem takes_octets (o : Octets) : (octets o.length).Takes o o where
  eq_ok rest := octets_append o rest
  of_cut part missing h hmissing := by
    have hpos : 0 < missing.length := List.length_pos_iff.mpr hmissing
    have hlength : ¬ (part.take o.length).length = o.length := by
      rw [List.length_take, h, List.length_append]
      omega
    exact ⟨.endOfInput, if_neg hlength⟩

theorem takes_octet (b : UInt8) : octet.Takes [b] b where
  eq_ok _ := rfl
  of_cut part missing h hmissing := by
    cases part with
    | nil => exact ⟨.endOfInput, rfl⟩
    | cons c part =>
        have hnil : part ++ missing = [] := (List.cons.inj h).2.symm
        exact absurd (List.append_eq_nil_iff.mp hnil).2 hmissing

theorem takes_number {width n : Nat} (h : n < 256 ^ width) :
    (number width).Takes (Octets.bigEndian width n) n := by
  have htakes := (takes_octets (Octets.bigEndian width n)).map Octets.ofBigEndian
  rwa [Octets.length_bigEndian, Octets.ofBigEndian_bigEndian h] at htakes

theorem takes_argument {n : Nat} (hn : n < UInt64.size) :
    (argument (Cbor.headInfo n)).Takes
      (Octets.bigEndian (Cbor.infoWidth (Cbor.headInfo n)) n) (some n) := by
  by_cases hsmall : Cbor.headInfo n < 24
  · have hself := Cbor.headInfo_eq_self hsmall
    rw [argument, if_pos hsmall, hself, Cbor.infoWidth, if_pos (hself ▸ hsmall)]
    exact takes_pure _
  · have hnumber := takes_number (Cbor.lt_of_not_headInfo_lt hn hsmall)
    have hinfo : Cbor.headInfo n < 24 ∨ Cbor.headInfo n = 24 ∨ Cbor.headInfo n = 25 ∨
        Cbor.headInfo n = 26 ∨ Cbor.headInfo n = 27 := by
      unfold Cbor.headInfo
      repeat' split
      all_goals omega
    rcases hinfo with h | h | h | h | h
    · exact absurd h hsmall
    all_goals
      rw [h] at hnumber ⊢
      exact hnumber.map some

theorem takes_head {m : Cbor.Major} {n : Nat} {h : Head} (hn : n < UInt64.size)
    (hhead : headOf m (Cbor.headInfo n) (some n) = .ok h) : head.Takes (Cbor.head m n) h := by
  have hinfo := Cbor.headInfo_lt n
  rw [Cbor.head_eq]
  refine (takes_octet _).bind ?_
  simp only [Cbor.toNat_initial_mod hinfo, Cbor.toNat_initial_div hinfo, Cbor.Major.ofCode_code]
  exact (takes_argument hn).bind_nil (takes_lift hhead)

end Reader

/-! ## Values from their head on -/

/-- The value is written as a head and the octets of a body. -/
def Starts (v : Cbor) (h : Head) (body : Octets) : Prop :=
  ∃ front, v.encode = front ++ body ∧ Reader.head.Takes front h

theorem starts_uint (n : UInt64) : Starts (.uint n) (.unsigned n.toNat) [] :=
  ⟨_, by rw [Cbor.encode, List.append_nil], Reader.takes_head n.toNat_lt rfl⟩

theorem starts_nint (n : UInt64) : Starts (.nint n) (.negative n.toNat) [] :=
  ⟨_, by rw [Cbor.encode, List.append_nil], Reader.takes_head n.toNat_lt rfl⟩

theorem starts_bytes {b : Octets} (h : b.length < UInt64.size) :
    Starts (.bytes b) (.bytes (some b.length)) b :=
  ⟨_, by rw [Cbor.encode], Reader.takes_head h rfl⟩

theorem starts_text {s : String} (h : (Cbor.utf8 s).length < UInt64.size) :
    Starts (.text s) (.text (some (Cbor.utf8 s).length)) (Cbor.utf8 s) :=
  ⟨_, by rw [Cbor.encode], Reader.takes_head h rfl⟩

theorem starts_array {items : List Cbor} (h : items.length < UInt64.size) :
    Starts (.array items) (.array (some items.length)) (Cbor.encodeItems items) :=
  ⟨_, by rw [Cbor.encode], Reader.takes_head h rfl⟩

theorem starts_map {entries : List (Cbor × Cbor)} (h : entries.length < UInt64.size) :
    Starts (.map entries) (.map (some entries.length)) (Cbor.encodeEntries entries) :=
  ⟨_, by rw [Cbor.encode], Reader.takes_head h rfl⟩

theorem starts_bool (b : Bool) : Starts (.bool b) (.simple (if b then 21 else 20)) [] := by
  refine ⟨_, by rw [List.append_nil], ?_⟩
  rw [Cbor.encode]
  cases b with
  | false => exact Reader.takes_head (m := .simple) (n := 20) (by decide) rfl
  | true => exact Reader.takes_head (m := .simple) (n := 21) (by decide) rfl

theorem starts_null : Starts .null (.simple 22) [] := by
  refine ⟨_, by rw [List.append_nil], ?_⟩
  rw [Cbor.encode]
  exact Reader.takes_head (m := .simple) (n := 22) (by decide) rfl

/-- From its head on the value is read as `x`, with room for `depth` levels of nesting. -/
def ItemReader.Reads (item : ItemReader α) (depth : Nat) (v : Cbor) (x : α) : Prop :=
  ∀ budget, depth ≤ budget → Reader.Takes (Reader.head >>= item budget) v.encode x

namespace ItemReader

variable {item : ItemReader α} {depth : Nat} {v : Cbor} {x : α} {h : Head} {body : Octets}

theorem reads_of_starts (hv : Starts v h body)
    (hitem : ∀ budget, depth ≤ budget → (item budget h).Takes body x) :
    item.Reads depth v x := by
  intro budget hbudget
  obtain ⟨front, hencode, hhead⟩ := hv
  rw [hencode]
  exact hhead.bind (hitem budget hbudget)

theorem Reads.takes (hitem : item.Reads depth v x) (hv : Starts v h body) {budget : Nat}
    (hbudget : depth ≤ budget) : (item budget h).Takes body x := by
  obtain ⟨front, hencode, hhead⟩ := hv
  have hwhole := hitem budget hbudget
  rw [hencode] at hwhole
  exact hhead.of_bind hwhole

theorem Reads.mono (hitem : item.Reads depth v x) {deeper : Nat} (h : depth ≤ deeper) :
    item.Reads deeper v x :=
  fun budget hbudget => hitem budget (Nat.le_trans h hbudget)

theorem Reads.map {f : α → β} (hitem : item.Reads depth v x) :
    ItemReader.Reads (fun budget h => f <$> item budget h) depth v (f x) := by
  intro budget hbudget
  have hmap : (Reader.head >>= fun h => f <$> item budget h) =
      f <$> (Reader.head >>= item budget) := by
    rw [map_bind]
  rw [hmap]
  exact (hitem budget hbudget).map f

end ItemReader

end Settlement.Storage
