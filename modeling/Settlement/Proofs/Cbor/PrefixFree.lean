import Mathlib.Algebra.Group.Nat.Defs
import Settlement.Cbor.Basic
import Settlement.Octets.Lemmas

/-!
# Encodings can be told apart where they stand

A head says where it ends (`head_append_inj`), and so does an item: octets that
start with an encoding start with no other one, `encode_append_inj`. What this
asks of a value is that its lengths fit a head, `Cbor.Sized`.

The first octet carries the major type and five further bits (`initial_inj`),
and the bits alone say how many octets of the argument follow (`infoWidth`).
-/

namespace Settlement.Cbor

/-! ## Heads -/

theorem Major.code_lt (m : Major) : m.code < 8 := by
  cases m <;> decide

theorem toNat_initial {m : Major} {i : Nat} (hi : i < 32) :
    (initial m i).toNat = m.code * 32 + i := by
  have hm := m.code_lt
  simp only [initial, UInt8.toNat_ofNat']
  omega

/-- The five low bits of a first octet. -/
theorem toNat_initial_mod {m : Major} {i : Nat} (hi : i < 32) : (initial m i).toNat % 32 = i := by
  rw [toNat_initial hi]
  omega

/-- The three high bits of a first octet. -/
theorem toNat_initial_div {m : Major} {i : Nat} (hi : i < 32) :
    (initial m i).toNat / 32 = m.code := by
  rw [toNat_initial hi]
  omega

theorem initial_inj {m m' : Major} {i j : Nat} (hi : i < 32) (hj : j < 32)
    (h : initial m i = initial m' j) : m = m' ∧ i = j := by
  have hcode : m.code = m'.code := by rw [← toNat_initial_div hi, h, toNat_initial_div hj]
  refine ⟨?_, ?_⟩
  · rw [← Major.ofCode_code m, hcode, Major.ofCode_code]
  · rw [← toNat_initial_mod hi, h, toNat_initial_mod hj]

/-- The five low bits of the first octet of a head. -/
def headInfo (n : Nat) : Nat :=
  if n < 24 then n
  else if n < 256 then 24
  else if n < 65536 then 25
  else if n < 4294967296 then 26
  else 27

/-- The number of octets of the argument behind a first octet with the given bits. -/
def infoWidth (info : Nat) : Nat :=
  if info < 24 then 0
  else if info = 24 then 1
  else if info = 25 then 2
  else if info = 26 then 4
  else 8

theorem headInfo_lt (n : Nat) : headInfo n < 32 := by
  unfold headInfo
  repeat' split
  all_goals omega

theorem head_eq (m : Major) (n : Nat) :
    head m n = initial m (headInfo n) :: Octets.bigEndian (infoWidth (headInfo n)) n := by
  unfold head headInfo
  split
  · rw [infoWidth, if_pos ‹_›]
    rfl
  · repeat' split
    all_goals rfl

theorem headInfo_eq_self {n : Nat} (h : headInfo n < 24) : headInfo n = n := by
  unfold headInfo at h ⊢
  split at h
  · rw [if_pos ‹_›]
  · repeat' split at h
    all_goals omega

theorem lt_of_not_headInfo_lt {n : Nat} (hn : n < UInt64.size) (h : ¬ headInfo n < 24) :
    n < 256 ^ infoWidth (headInfo n) := by
  unfold headInfo at h ⊢
  split at h
  · exact absurd ‹_› h
  · rw [if_neg ‹_›]
    repeat' split
    · show n < 256 ^ 1
      omega
    · show n < 256 ^ 2
      omega
    · show n < 256 ^ 4
      omega
    · show n < 256 ^ 8
      exact hn

/-- The argument is what the bits and the octets behind them say. -/
theorem eq_of_headInfo_eq {n k : Nat} (hn : n < UInt64.size) (hk : k < UInt64.size)
    (hinfo : headInfo n = headInfo k)
    (harg : Octets.bigEndian (infoWidth (headInfo n)) n
      = Octets.bigEndian (infoWidth (headInfo n)) k) : n = k := by
  by_cases h24 : headInfo n < 24
  · rw [← headInfo_eq_self h24, hinfo, headInfo_eq_self (hinfo ▸ h24)]
  · have hk' : k < 256 ^ infoWidth (headInfo n) := by
      rw [hinfo]
      exact lt_of_not_headInfo_lt hk (hinfo ▸ h24)
    exact Octets.bigEndian_inj (lt_of_not_headInfo_lt hn h24) hk' harg

/-- **Heads are prefix free.** Octets start with at most one head of a major type. -/
theorem head_append_inj {m : Major} {n k : Nat} (hn : n < UInt64.size) (hk : k < UInt64.size)
    {x y : Octets} (h : head m n ++ x = head m k ++ y) : n = k ∧ x = y := by
  rw [head_eq, head_eq, List.cons_append, List.cons_append, List.cons.injEq] at h
  obtain ⟨hfirst, hrest⟩ := h
  have hinfo : headInfo n = headInfo k :=
    (initial_inj (headInfo_lt n) (headInfo_lt k) hfirst).2
  rw [← hinfo] at hrest
  obtain ⟨harg, hxy⟩ := List.append_inj hrest (by simp)
  exact ⟨eq_of_headInfo_eq hn hk hinfo harg, hxy⟩

/-! ## Values -/

mutual

/-- Every length in the value fits a head. No octets in memory are longer. -/
def Sized : Cbor → Prop
  | .bytes b => b.length < UInt64.size
  | .text s => (utf8 s).length < UInt64.size
  | .array items => items.length < UInt64.size ∧ SizedItems items
  | .map entries => entries.length < UInt64.size ∧ SizedEntries entries
  | .tag _ content => Sized content
  | .uint _ => True
  | .nint _ => True
  | .bool _ => True
  | .null => True
  | .float _ => True

/-- Every length in every value fits a head. -/
def SizedItems : List Cbor → Prop
  | [] => True
  | item :: rest => Sized item ∧ SizedItems rest

/-- Every length in every key and every value fits a head. -/
def SizedEntries : List (Cbor × Cbor) → Prop
  | [] => True
  | (key, value) :: rest => Sized key ∧ Sized value ∧ SizedEntries rest

end

theorem encodeItems_eq_flatMap (items : List Cbor) : encodeItems items = items.flatMap encode := by
  induction items with
  | nil => rfl
  | cons item rest ih => rw [encodeItems, ih, List.flatMap_cons]

theorem encodeEntries_eq_flatMap (entries : List (Cbor × Cbor)) :
    encodeEntries entries = entries.flatMap fun e => e.1.encode ++ e.2.encode := by
  induction entries with
  | nil => rfl
  | cons e rest ih => rw [encodeEntries, ih, List.flatMap_cons]

/-- The major type of an item's first octet. -/
def major : Cbor → Major
  | .uint _ => .unsigned
  | .nint _ => .negative
  | .bytes _ => .bytes
  | .text _ => .text
  | .array _ => .array
  | .map _ => .map
  | .tag .. => .tag
  | .bool _ => .simple
  | .null => .simple
  | .float _ => .simple

/-- The five low bits of an item's first octet. -/
def info : Cbor → Nat
  | .uint n => headInfo n.toNat
  | .nint n => headInfo n.toNat
  | .bytes b => headInfo b.length
  | .text s => headInfo (utf8 s).length
  | .array items => headInfo items.length
  | .map entries => headInfo entries.length
  | .tag number _ => headInfo number.toNat
  | .bool b => if b then 21 else 20
  | .null => 22
  | .float _ => 27

theorem info_lt (v : Cbor) : v.info < 32 := by
  cases v with
  | bool b => cases b <;> decide
  | null => decide
  | float bits => exact Nat.lt_of_lt_of_le (Nat.lt_succ_self 27) (by decide)
  | _ => exact headInfo_lt _

theorem encode_eq_cons (v : Cbor) : ∃ rest, v.encode = initial v.major v.info :: rest := by
  cases v with
  | bool b => exact ⟨[], by rw [encode]; rfl⟩
  | null => exact ⟨[], by rw [encode]; rfl⟩
  | float bits => exact ⟨_, by rw [encode]; rfl⟩
  | uint n => exact ⟨_, by rw [encode, head_eq]; rfl⟩
  | nint n => exact ⟨_, by rw [encode, head_eq]; rfl⟩
  | _ => exact ⟨_, by rw [encode, head_eq, List.cons_append]; rfl⟩

/-- Items that start octets alike start with the same first octet. -/
theorem major_info_eq {v w : Cbor} {x y : Octets} (h : v.encode ++ x = w.encode ++ y) :
    v.major = w.major ∧ v.info = w.info := by
  obtain ⟨restv, hv⟩ := encode_eq_cons v
  obtain ⟨restw, hw⟩ := encode_eq_cons w
  rw [hv, hw, List.cons_append, List.cons_append, List.cons.injEq] at h
  exact initial_inj (info_lt v) (info_lt w) h.1

theorem utf8_inj {s t : String} (h : utf8 s = utf8 t) : s = t :=
  String.toByteArray_inj.mp (ByteArray.ext (Array.toList_inj.mp h))

/-- A head and as many octets as it says. -/
theorem head_append_octets_inj {m : Major} {a b x y : Octets} (ha : a.length < UInt64.size)
    (hb : b.length < UInt64.size)
    (h : head m a.length ++ a ++ x = head m b.length ++ b ++ y) : a = b ∧ x = y := by
  rw [List.append_assoc, List.append_assoc] at h
  obtain ⟨hlen, hrest⟩ := head_append_inj ha hb h
  exact List.append_inj hrest hlen

/-- Truth values, nothing and doubles differ in the bits of the first octet, and doubles in the
octets behind it. -/
theorem simple_append_inj {v w : Cbor} {x y : Octets} (hv : v.major = .simple)
    (hw : w.major = .simple) (hinfo : v.info = w.info) (h : v.encode ++ x = w.encode ++ y) :
    v = w ∧ x = y := by
  cases v with
  | bool b =>
      cases w with
      | bool c =>
          rw [encode, encode, List.cons_append, List.cons_append, List.cons.injEq] at h
          refine ⟨congrArg _ ?_, h.2⟩
          revert hinfo
          cases b <;> cases c <;> simp [info]
      | null => exact absurd hinfo (by cases b <;> simp [info])
      | float bits => exact absurd hinfo (by cases b <;> simp [info])
      | _ => cases hw
  | null =>
      cases w with
      | bool c => exact absurd hinfo (by cases c <;> simp [info])
      | null => exact ⟨rfl, List.append_cancel_left h⟩
      | float bits => exact absurd hinfo (by simp [info])
      | _ => cases hw
  | float bits =>
      cases w with
      | bool c => exact absurd hinfo (by cases c <;> simp [info])
      | null => exact absurd hinfo (by simp [info])
      | float bits' =>
          rw [encode, encode, List.cons_append, List.cons_append, List.cons.injEq] at h
          obtain ⟨hbits, hxy⟩ := List.append_inj h.2 (by simp)
          have hn : bits.toNat = bits'.toNat :=
            Octets.bigEndian_inj bits.toNat_lt bits'.toNat_lt hbits
          exact ⟨congrArg _ (UInt64.toNat_inj.mp hn), hxy⟩
      | _ => cases hw
  | _ => cases hv

mutual

/-- **Encodings are prefix free.** Octets start with the encoding of at most one value. -/
theorem encode_append_inj : ∀ {v w : Cbor} {x y : Octets}, v.Sized → w.Sized →
    v.encode ++ x = w.encode ++ y → v = w ∧ x = y := by
  intro v w x y hv hw h
  -- one first octet: the values are of one constructor, or both simple
  obtain ⟨hmajor, hinfo⟩ := major_info_eq h
  cases v with
  | uint n =>
      cases w with
      | uint k =>
          obtain ⟨hnk, hxy⟩ := head_append_inj n.toNat_lt k.toNat_lt h
          exact ⟨congrArg _ (UInt64.toNat_inj.mp hnk), hxy⟩
      | _ => exact absurd hmajor (by simp [major])
  | nint n =>
      cases w with
      | nint k =>
          obtain ⟨hnk, hxy⟩ := head_append_inj n.toNat_lt k.toNat_lt h
          exact ⟨congrArg _ (UInt64.toNat_inj.mp hnk), hxy⟩
      | _ => exact absurd hmajor (by simp [major])
  | bytes b =>
      cases w with
      | bytes c =>
          obtain ⟨hbc, hxy⟩ := head_append_octets_inj hv hw h
          exact ⟨congrArg _ hbc, hxy⟩
      | _ => exact absurd hmajor (by simp [major])
  | text s =>
      cases w with
      | text t =>
          obtain ⟨hst, hxy⟩ := head_append_octets_inj hv hw h
          exact ⟨congrArg _ (utf8_inj hst), hxy⟩
      | _ => exact absurd hmajor (by simp [major])
  | array items =>
      cases w with
      | array items' =>
          rw [encode, encode, List.append_assoc, List.append_assoc] at h
          obtain ⟨hlen, hrest⟩ := head_append_inj hv.1 hw.1 h
          obtain ⟨hitems, hxy⟩ := encodeItems_append_inj hv.2 hw.2 hlen hrest
          exact ⟨congrArg _ hitems, hxy⟩
      | _ => exact absurd hmajor (by simp [major])
  | map entries =>
      cases w with
      | map entries' =>
          rw [encode, encode, List.append_assoc, List.append_assoc] at h
          obtain ⟨hlen, hrest⟩ := head_append_inj hv.1 hw.1 h
          obtain ⟨hentries, hxy⟩ := encodeEntries_append_inj hv.2 hw.2 hlen hrest
          exact ⟨congrArg _ hentries, hxy⟩
      | _ => exact absurd hmajor (by simp [major])
  | tag number content =>
      cases w with
      | tag number' content' =>
          rw [encode, encode, List.append_assoc, List.append_assoc] at h
          obtain ⟨hnumber, hrest⟩ := head_append_inj number.toNat_lt number'.toNat_lt h
          simp only [Sized] at hv hw
          obtain ⟨hcontent, hxy⟩ := encode_append_inj hv hw hrest
          exact ⟨by rw [UInt64.toNat_inj.mp hnumber, hcontent], hxy⟩
      | _ => exact absurd hmajor (by simp [major])
  | bool b => exact simple_append_inj rfl hmajor.symm hinfo h
  | null => exact simple_append_inj rfl hmajor.symm hinfo h
  | float bits => exact simple_append_inj rfl hmajor.symm hinfo h

theorem encodeItems_append_inj : ∀ {vs ws : List Cbor} {x y : Octets}, SizedItems vs →
    SizedItems ws → vs.length = ws.length →
    encodeItems vs ++ x = encodeItems ws ++ y → vs = ws ∧ x = y := by
  intro vs ws x y hv hw hlen h
  -- nothing marks the end of the items; the head has said how many there are
  cases vs with
  | nil =>
      cases ws with
      | nil => exact ⟨rfl, h⟩
      | cons w ws => exact absurd hlen (by simp)
  | cons v vs =>
      cases ws with
      | nil => exact absurd hlen (by simp)
      | cons w ws =>
          rw [encodeItems, encodeItems, List.append_assoc, List.append_assoc] at h
          obtain ⟨hvw, hrest⟩ := encode_append_inj hv.1 hw.1 h
          obtain ⟨hvs, hxy⟩ := encodeItems_append_inj hv.2 hw.2 (Nat.succ.inj hlen) hrest
          exact ⟨by rw [hvw, hvs], hxy⟩

theorem encodeEntries_append_inj : ∀ {vs ws : List (Cbor × Cbor)} {x y : Octets},
    SizedEntries vs → SizedEntries ws → vs.length = ws.length →
    encodeEntries vs ++ x = encodeEntries ws ++ y → vs = ws ∧ x = y := by
  intro vs ws x y hv hw hlen h
  cases vs with
  | nil =>
      cases ws with
      | nil => exact ⟨rfl, h⟩
      | cons w ws => exact absurd hlen (by simp)
  | cons e es =>
      cases ws with
      | nil => exact absurd hlen (by simp)
      | cons f fs =>
          obtain ⟨key, value⟩ := e
          obtain ⟨key', value'⟩ := f
          simp only [encodeEntries, List.append_assoc] at h
          obtain ⟨hkey, h⟩ := encode_append_inj hv.1 hw.1 h
          obtain ⟨hvalue, h⟩ := encode_append_inj hv.2.1 hw.2.1 h
          obtain ⟨hrest, hxy⟩ := encodeEntries_append_inj hv.2.2 hw.2.2 (Nat.succ.inj hlen) h
          exact ⟨by rw [hkey, hvalue, hrest], hxy⟩

end

theorem encode_inj {v w : Cbor} (hv : v.Sized) (hw : w.Sized) (h : v.encode = w.encode) : v = w :=
  (encode_append_inj (x := []) (y := []) hv hw (by rw [h])).1

end Settlement.Cbor
