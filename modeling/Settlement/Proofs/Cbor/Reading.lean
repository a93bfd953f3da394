import Settlement.Proofs.Cbor.Grammar
import Settlement.Proofs.Storage.Delimited

/-!
# Reading the deterministic form

`decode?` reads octets that are one item of the deterministic form, and refuses
all others: it gives a value exactly if the octets are an item that says the
value (`decode?_eq_some_iff`). So an item says one value, and no part of an item
is an item (`Item.eq_of_append`).

A reader of a grammar has two laws. What the grammar has it takes from the
front, whatever follows (`Reader.Takes`), and what it takes from the front the
grammar has (`Reader.Sound`).
-/

namespace Settlement

/-! ## Readers that accept no more -/

namespace Storage.Reader

variable {α β : Type} {r : Reader α} {f : α → Reader β}

/-- Whatever the reader takes from the front has the property, with the value that it gives. -/
def Sound (r : Reader α) (P : Octets → α → Prop) : Prop :=
  ∀ ⦃o x rest⦄, r o = .ok (x, rest) → ∃ taken, o = taken ++ rest ∧ P taken x

variable {P : Octets → α → Prop} {Q : Octets → β → Prop}

theorem sound_pure {x : α} (h : P [] x) : (pure x : Reader α).Sound P := by
  intro o y rest hy
  cases hy
  exact ⟨[], rfl, h⟩

theorem sound_throw (fault : DecodeFault) : (throw fault : Reader α).Sound P := by
  intro o x rest hx
  cases hx

theorem Sound.mono {P' : Octets → α → Prop} (hr : r.Sound P) (h : ∀ o x, P o x → P' o x) :
    r.Sound P' := by
  intro o x rest hx
  obtain ⟨taken, ho, hP⟩ := hr hx
  exact ⟨taken, ho, h taken x hP⟩

theorem Sound.bind (hr : r.Sound P) (hf : ∀ a x, P a x → (f x).Sound fun b y => Q (a ++ b) y) :
    (r >>= f).Sound Q := by
  intro o y rest hy
  obtain ⟨⟨x, middle⟩, hx, hxy⟩ := bind_eq_ok_iff.mp hy
  obtain ⟨a, rfl, hP⟩ := hr hx
  obtain ⟨b, rfl, hQ⟩ := hf a x hP hxy
  exact ⟨a ++ b, (List.append_assoc _ _ _).symm, hQ⟩

/-- Nothing is taken after the first reader. -/
theorem Sound.map {g : α → β} (hr : r.Sound P) (h : ∀ o x, P o x → Q o (g x)) :
    (g <$> r).Sound Q := by
  rw [map_eq_pure_bind]
  refine hr.bind fun a x hx => sound_pure ?_
  rw [List.append_nil]
  exact h a x hx

theorem sound_octet : octet.Sound fun o b => o = [b] := by
  intro o b rest h
  cases o with
  | nil => cases h
  | cons c o =>
      cases h
      exact ⟨[b], rfl, rfl⟩

theorem sound_octets (n : Nat) : (octets n).Sound fun o front => o = front ∧ o.length = n := by
  intro o front rest h
  by_cases hlength : (o.take n).length = n
  · obtain ⟨rfl, rfl⟩ := Prod.mk.inj (Except.ok.inj ((if_pos hlength).symm.trans h))
    exact ⟨o.take n, (List.take_append_drop n o).symm, rfl, hlength⟩
  · cases (if_neg hlength).symm.trans h

theorem sound_number (width : Nat) :
    (number width).Sound fun o n => o.length = width ∧ Octets.ofBigEndian o = n :=
  (sound_octets width).map fun _ _ h => ⟨h.2, congrArg _ h.1⟩

/-- What `r` reads, so many times. -/
def many (r : Reader α) : Nat → Reader (List α)
  | 0 => pure []
  | n + 1 => do return (← r) :: (← many r n)

theorem Takes.many {written : α → Octets} {xs : List α} (h : ∀ x ∈ xs, r.Takes (written x) x) :
    (r.many xs.length).Takes (xs.flatMap written) xs := by
  induction xs with
  | nil => exact takes_pure _
  | cons x xs ih =>
      obtain ⟨hx, hxs⟩ := List.forall_mem_cons.mp h
      exact hx.bind ((ih hxs).bind_nil (takes_pure _))

theorem Sound.many {written : α → Octets} {good : α → Prop}
    (h : r.Sound fun o x => o = written x ∧ good x) (n : Nat) :
    (r.many n).Sound fun o xs => o = xs.flatMap written ∧ xs.length = n ∧ ∀ x ∈ xs, good x := by
  induction n with
  | zero => exact sound_pure ⟨rfl, rfl, nofun⟩
  | succ n ih =>
      refine h.bind ?_
      rintro _ x ⟨rfl, hx⟩
      refine ih.bind ?_
      rintro _ xs ⟨rfl, hlength, hxs⟩
      refine sound_pure ⟨?_, congrArg _ hlength, List.forall_mem_cons.mpr ⟨hx, hxs⟩⟩
      rw [List.append_nil, List.flatMap_cons]

/-- What `r` reads, and then what `r'` does. -/
def pair (r : Reader α) (r' : Reader β) : Reader (α × β) := do return (← r, ← r')

theorem Takes.pair {r' : Reader β} {a b : Octets} {x : α} {y : β} (hr : r.Takes a x)
    (hr' : r'.Takes b y) : (r.pair r').Takes (a ++ b) (x, y) :=
  hr.bind (hr'.bind_nil (takes_pure _))

theorem Sound.pair {r' : Reader β} (hr : r.Sound P) (hr' : r'.Sound Q) :
    (r.pair r').Sound fun o p => ∃ a b, o = a ++ b ∧ P a p.1 ∧ Q b p.2 := by
  refine hr.bind fun a x hx => hr'.bind fun b y hy => sound_pure ⟨a, b, ?_, hx, hy⟩
  rw [List.append_nil]

/-- What `r` reads, with the octets that it takes. -/
def withOctets (r : Reader α) : Reader (α × Octets) := fun o => do
  let (x, rest) ← r o
  return ((x, o.take (o.length - rest.length)), rest)

theorem take_length_sub (a rest : Octets) :
    (a ++ rest).take ((a ++ rest).length - rest.length) = a := by
  rw [List.length_append, Nat.add_sub_cancel, List.take_left]

theorem Takes.withOctets {o : Octets} {x : α} (h : r.Takes o x) :
    r.withOctets.Takes o (x, o) where
  eq_ok rest := by
    show (r (o ++ rest) >>= _) = _
    rw [h.eq_ok]
    exact congrArg (fun a => Except.ok ((x, a), rest)) (take_length_sub o rest)
  of_cut part missing ho hmissing := by
    obtain ⟨fault, hfault⟩ := h.of_cut part missing ho hmissing
    refine ⟨fault, ?_⟩
    show (r part >>= _) = _
    rw [hfault]
    rfl

theorem Sound.withOctets (h : r.Sound P) :
    r.withOctets.Sound fun o p => o = p.2 ∧ P p.2 p.1 := by
  intro o p left hp
  obtain ⟨⟨x, rest⟩, hx, hxp⟩ := bind_eq_ok_iff.mp hp
  obtain ⟨taken, rfl, hP⟩ := h hx
  obtain ⟨rfl, rfl⟩ := Prod.mk.inj (Except.ok.inj hxp)
  exact ⟨taken, rfl, (take_length_sub taken rest).symm, by rwa [take_length_sub]⟩

end Storage.Reader

namespace Cbor

open Storage (Reader)

/-! ## Reading items -/

/-- The least argument that needs a first octet with the given five bits. -/
def leastArgument (info : Nat) : Nat :=
  if info = 24 then 24 else if info = 25 then 256 else if info = 26 then 65536 else 4294967296

/-- The argument behind a first octet with the given five bits, if it needs that octet. -/
def readArgument (info : Nat) : Reader Nat :=
  if info < 24 then pure info
  else if info < 28 then do
    let n ← Reader.number (2 ^ (info - 24))
    if leastArgument info ≤ n then pure n else throw .malformed
  else throw .malformed

/-- The next head, if it is the shortest one with its argument. -/
def readHead : Reader (Major × Nat) := do
  let b ← Reader.octet
  return (.ofCode (b.toNat / 32), ← readArgument (b.toNat % 32))

/-- The text that octets are. -/
def textOf? (o : Octets) : Option String := String.fromUTF8? ⟨o.toArray⟩

/-- The value that a simple number stands for. -/
def readSimple : Nat → Reader Cbor
  | 20 => return .bool false
  | 21 => return .bool true
  | 22 => return .null
  | _ => throw .malformed

/-- What follows a head that has been read; `item` reads an item inside. -/
def readBody (item : Reader Cbor) : Major → Nat → Reader Cbor
  | .unsigned, n => return .uint (.ofNat n)
  | .negative, n => return .nint (.ofNat n)
  | .bytes, n => .bytes <$> Reader.octets n
  | .text, n => do
    match textOf? (← Reader.octets n) with
    | some s => return .text s
    | none => throw .malformed
  | .array, n => do
    let items ← item.withOctets.many n
    return .array (items.map (·.1))
  | .map, n => do
    let entries ← (item.withOctets.pair item.withOctets).many n
    if (entries.map (·.1.2)).Pairwise (· < ·) then
      return .map (entries.map fun e => (e.1.1, e.2.1))
    else
      throw .malformed
  | .tag, n => .tag (.ofNat n) <$> item
  | .simple, n => readSimple n

/-- The next item, if it nests less than `fuel` deep. -/
def readItem : (fuel : Nat) → Reader Cbor
  | 0 => throw .endOfInput
  | fuel + 1 => do
    let (major, n) ← readHead
    readBody (readItem fuel) major n

/-- The value of octets that are one item. Nothing nests deeper than there are octets. -/
def decode? (o : Octets) : Option Cbor :=
  match readItem o.length o with
  | .ok (v, []) => some v
  | _ => none

/-! ## Heads are read -/

section

variable {m : Major} {n : Nat} {o : Octets}

/-- An argument needs a first octet if no shorter one leaves room for it. -/
theorem leastArgument_le_iff {info : Nat} (h24 : 24 ≤ info) (h28 : info < 28) :
    leastArgument info ≤ n ↔ 2 ^ (info - 24) ≤ infoWidth (headInfo n) := by
  have hinfo : info = 24 ∨ info = 25 ∨ info = 26 ∨ info = 27 := by omega
  unfold leastArgument headInfo infoWidth
  rcases hinfo with rfl | rfl | rfl | rfl
  all_goals
    simp
    grind

/-- What the five bits of a first octet that is followed by an argument say of it. -/
theorem headInfo_of_not_lt (h : ¬ headInfo n < 24) :
    headInfo n < 28 ∧ 2 ^ (headInfo n - 24) = infoWidth (headInfo n) := by
  unfold headInfo infoWidth at *
  grind

theorem takes_readArgument (h : n < UInt64.size) :
    (readArgument (headInfo n)).Takes (Octets.bigEndian (infoWidth (headInfo n)) n) n := by
  unfold readArgument
  by_cases hshort : headInfo n < 24
  · rw [if_pos hshort, infoWidth, if_pos hshort, headInfo_eq_self hshort]
    exact Reader.takes_pure _
  · obtain ⟨h28, hwidth⟩ := headInfo_of_not_lt hshort
    have hleast : leastArgument (headInfo n) ≤ n :=
      (leastArgument_le_iff (Nat.le_of_not_lt hshort) h28).mpr (Nat.le_of_eq hwidth)
    rw [if_neg hshort, if_pos h28, hwidth]
    refine (Reader.takes_number (lt_of_not_headInfo_lt h hshort)).bind_nil ?_
    rw [if_pos hleast]
    exact Reader.takes_pure _

theorem takes_readHead (h : IsShortestHead m n o) : readHead.Takes o (m, n) := by
  obtain ⟨hsize, rfl⟩ := isShortestHead_iff.mp h
  have hinfo := headInfo_lt n
  rw [head_eq]
  refine (Reader.takes_octet _).bind ?_
  rw [toNat_initial_mod hinfo, toNat_initial_div hinfo, Major.ofCode_code]
  exact (takes_readArgument hsize).bind_nil (Reader.takes_pure _)

/-- An argument that is read makes a shortest head with the first octet. -/
theorem sound_readArgument (m : Major) (info : Nat) :
    (readArgument info).Sound fun o n => IsShortestHead m n (initial m info :: o) := by
  unfold readArgument
  split
  · rename_i hshort
    refine Reader.sound_pure ((IsHead.short hshort).isShortestHead ?_)
    rw [length_head]
    exact Nat.succ_le_succ (Nat.zero_le _)
  · split
    · rename_i hlong h28
      have h24 : 24 ≤ info := Nat.le_of_not_lt hlong
      refine (Reader.sound_number _).bind ?_
      rintro o n ⟨hlength, hargument⟩
      split
      · rename_i hleast
        refine Reader.sound_pure ?_
        have hhead := IsHead.long (m := m) ⟨info - 24, by omega⟩ o hlength hargument
        simp only [Nat.add_sub_of_le h24] at hhead
        rw [List.append_nil]
        refine hhead.isShortestHead ?_
        rw [List.length_cons, hlength, length_head]
        exact Nat.succ_le_succ ((leastArgument_le_iff h24 h28).mp hleast)
      · exact Reader.sound_throw _
    · exact Reader.sound_throw _

theorem Major.code_ofCode {code : Nat} (h : code < 8) : (ofCode code).code = code := by
  revert code
  decide

theorem initial_ofCode (b : UInt8) : initial (.ofCode (b.toNat / 32)) (b.toNat % 32) = b := by
  have hb := b.toNat_lt
  apply UInt8.toNat_inj.mp
  rw [toNat_initial (Nat.mod_lt _ (by decide)), Major.code_ofCode (by omega)]
  omega

theorem sound_readHead : readHead.Sound fun o p => IsShortestHead p.1 p.2 o := by
  refine Reader.sound_octet.bind ?_
  rintro _ b rfl
  refine (sound_readArgument (.ofCode (b.toNat / 32)) _).bind ?_
  intro o n h
  refine Reader.sound_pure ?_
  rw [initial_ofCode] at h
  rwa [List.append_nil]

end

/-! ## Items are read -/

theorem textOf?_eq_some_iff {o : Octets} {s : String} : textOf? o = some s ↔ utf8 s = o := by
  unfold textOf? String.fromUTF8?
  split
  · rename_i h
    rw [Option.some.injEq]
    constructor
    · rintro rfl
      rfl
    · rintro rfl
      exact String.toByteArray_inj.mp rfl
  · rename_i h
    constructor
    · nofun
    · rintro rfl
      exact absurd s.isValidUTF8 h

theorem length_le_flatMap {α : Type} {written : α → Octets} {xs : List α} {x : α} (h : x ∈ xs) :
    (written x).length ≤ (xs.flatMap written).length :=
  (List.sublist_flatten_of_mem (List.mem_map_of_mem h)).length_le

/-- The octets behind a head leave less fuel than the item. -/
theorem exists_fuel {m : Major} {n fuel : Nat} {head body : Octets} (h : IsShortestHead m n head)
    (hfuel : (head ++ body).length ≤ fuel) :
    ∃ inside, fuel = inside + 1 ∧ body.length ≤ inside := by
  have hpos := h.length_pos
  rw [List.length_append] at hfuel
  exact ⟨fuel - 1, by omega, by omega⟩

theorem isShortestHead_simple {n : Nat} (h : n < 24) :
    IsShortestHead .simple n [initial .simple n] :=
  isShortestHead_iff.mpr ⟨Nat.lt_trans h (by decide), (if_pos h).symm⟩

variable {v w : Cbor} {o : Octets}

/-- An item is taken whole, whatever follows it. -/
theorem Item.takes (h : Item v o) : ∀ {fuel}, o.length ≤ fuel → (readItem fuel).Takes o v := by
  induction h with
  | @uint n o hhead =>
      intro fuel hfuel
      rw [← List.append_nil o] at hfuel
      obtain ⟨inside, rfl, -⟩ := exists_fuel hhead hfuel
      refine (takes_readHead hhead).bind_nil ?_
      show Reader.Takes (pure (Cbor.uint (.ofNat n.toNat))) [] _
      rw [UInt64.ofNat_toNat]
      exact Reader.takes_pure _
  | @nint n o hhead =>
      intro fuel hfuel
      rw [← List.append_nil o] at hfuel
      obtain ⟨inside, rfl, -⟩ := exists_fuel hhead hfuel
      refine (takes_readHead hhead).bind_nil ?_
      show Reader.Takes (pure (Cbor.nint (.ofNat n.toNat))) [] _
      rw [UInt64.ofNat_toNat]
      exact Reader.takes_pure _
  | @bytes b o hhead =>
      intro fuel hfuel
      obtain ⟨inside, rfl, -⟩ := exists_fuel hhead hfuel
      exact (takes_readHead hhead).bind ((Reader.takes_octets b).map _)
  | @text s o hhead =>
      intro fuel hfuel
      obtain ⟨inside, rfl, -⟩ := exists_fuel hhead hfuel
      refine (takes_readHead hhead).bind ((Reader.takes_octets _).bind_nil ?_)
      rw [textOf?_eq_some_iff.mpr rfl]
      exact Reader.takes_pure _
  | @array items o hhead hitems ih =>
      intro fuel hfuel
      obtain ⟨inside, rfl, hinside⟩ := exists_fuel hhead hfuel
      have hmany : ((readItem inside).withOctets.many items.length).Takes
          (items.flatMap (·.2)) items := Reader.Takes.many fun v hv =>
        (ih v hv (Nat.le_trans (length_le_flatMap hv) hinside)).withOctets
      exact (takes_readHead hhead).bind (hmany.bind_nil (Reader.takes_pure _))
  | @map entries o hhead hkeys hvalues hascending ihkeys ihvalues =>
      intro fuel hfuel
      obtain ⟨inside, rfl, hinside⟩ := exists_fuel hhead hfuel
      have hmany : (((readItem inside).withOctets.pair (readItem inside).withOctets).many
          entries.length).Takes (entries.flatMap fun e => e.1.2 ++ e.2.2) entries := by
        refine Reader.Takes.many fun e he => ?_
        have hlength := Nat.le_trans (length_le_flatMap he) hinside
        rw [List.length_append] at hlength
        exact (ihkeys e he (by omega)).withOctets.pair (ihvalues e he (by omega)).withOctets
      refine (takes_readHead hhead).bind (hmany.bind_nil ?_)
      rw [if_pos hascending]
      exact Reader.takes_pure _
  | @tag number content o inner hhead hcontent ih =>
      intro fuel hfuel
      obtain ⟨inside, rfl, hinside⟩ := exists_fuel hhead hfuel
      refine (takes_readHead hhead).bind ?_
      show Reader.Takes (Cbor.tag (.ofNat number.toNat) <$> readItem inside) _ _
      rw [UInt64.ofNat_toNat]
      exact (ih hinside).map _
  | bool b =>
      intro fuel hfuel
      obtain ⟨inside, rfl⟩ := Nat.exists_eq_add_one.mpr (Nat.lt_of_lt_of_le Nat.zero_lt_one hfuel)
      cases b with
      | false =>
          exact (takes_readHead (isShortestHead_simple (n := 20) (by decide))).bind_nil
            (Reader.takes_pure _)
      | true =>
          exact (takes_readHead (isShortestHead_simple (n := 21) (by decide))).bind_nil
            (Reader.takes_pure _)
  | null =>
      intro fuel hfuel
      obtain ⟨inside, rfl⟩ := Nat.exists_eq_add_one.mpr (Nat.lt_of_lt_of_le Nat.zero_lt_one hfuel)
      exact (takes_readHead (isShortestHead_simple (n := 22) (by decide))).bind_nil
        (Reader.takes_pure _)

/-- A head and what is read behind it are an item, if what is read inside are items. -/
theorem sound_readBody {item : Reader Cbor} (hitem : item.Sound fun o v => Item v o) {m : Major}
    {n : Nat} {front : Octets} (hhead : IsShortestHead m n front) :
    (readBody item m n).Sound fun o v => Item v (front ++ o) := by
  have hsize := hhead.isHead.lt_size
  cases m with
  | unsigned =>
      refine Reader.sound_pure ?_
      rw [List.append_nil]
      refine .uint ?_
      rwa [UInt64.toNat_ofNat_of_lt' hsize]
  | negative =>
      refine Reader.sound_pure ?_
      rw [List.append_nil]
      refine .nint ?_
      rwa [UInt64.toNat_ofNat_of_lt' hsize]
  | bytes =>
      refine (Reader.sound_octets n).map ?_
      rintro o b ⟨rfl, rfl⟩
      exact .bytes hhead
  | text =>
      refine (Reader.sound_octets n).bind ?_
      rintro o _ ⟨rfl, rfl⟩
      split
      · rename_i s htext
        obtain rfl := textOf?_eq_some_iff.mp htext
        refine Reader.sound_pure ?_
        rw [List.append_nil]
        exact .text hhead
      · exact Reader.sound_throw _
  | array =>
      refine (Reader.Sound.many (hitem.withOctets) n).bind ?_
      rintro _ items ⟨rfl, rfl, hitems⟩
      refine Reader.sound_pure ?_
      rw [List.append_nil]
      exact .array hhead hitems
  | map =>
      have hentry : (item.withOctets.pair item.withOctets).Sound fun o e =>
          o = e.1.2 ++ e.2.2 ∧ Item e.1.1 e.1.2 ∧ Item e.2.1 e.2.2 := by
        refine (hitem.withOctets.pair hitem.withOctets).mono ?_
        rintro _ e ⟨a, b, rfl, ⟨rfl, hkey⟩, rfl, hvalue⟩
        exact ⟨rfl, hkey, hvalue⟩
      refine (hentry.many n).bind ?_
      rintro _ entries ⟨rfl, rfl, hentries⟩
      split
      · rename_i hascending
        refine Reader.sound_pure ?_
        rw [List.append_nil]
        exact .map hhead (fun e he => (hentries e he).1) (fun e he => (hentries e he).2) hascending
      · exact Reader.sound_throw _
  | tag =>
      refine hitem.map fun o v hv => .tag ?_ hv
      rwa [UInt64.toNat_ofNat_of_lt' hsize]
  | simple =>
      obtain ⟨-, rfl⟩ := isShortestHead_iff.mp hhead
      show (readSimple n).Sound _
      unfold readSimple
      split
      · exact Reader.sound_pure (.bool false)
      · exact Reader.sound_pure (.bool true)
      · exact Reader.sound_pure .null
      · exact Reader.sound_throw _

theorem sound_readItem (fuel : Nat) : (readItem fuel).Sound fun o v => Item v o := by
  induction fuel with
  | zero => exact Reader.sound_throw _
  | succ fuel ih => exact sound_readHead.bind fun _ _ hhead => sound_readBody ih hhead

/-- **The decoder reads the grammar.** Octets are decoded exactly if they are one item, to the value
that the item says. -/
theorem decode?_eq_some_iff : decode? o = some v ↔ Item v o := by
  constructor
  · intro h
    unfold decode? at h
    split at h
    · rename_i w hread
      obtain ⟨taken, ho, hitem⟩ := sound_readItem _ hread
      rw [List.append_nil] at ho
      rw [← Option.some.inj h, ho]
      exact hitem
    · cases h
  · intro h
    unfold decode?
    rw [(h.takes (Nat.le_refl _)).eq_ok_self]

/-- A map is read with its keys in order. -/
example : decode? [0xa2, 0x01, 0xf6, 0x02, 0xf5] =
    some (.map [(.uint 1, .null), (.uint 2, .bool true)]) := rfl

/-- It is refused with its keys the other way round, and with a head that is longer than it must
be. -/
example : decode? [0xa2, 0x02, 0xf5, 0x01, 0xf6] = none ∧
    decode? [0xb8, 0x02, 0x01, 0xf6, 0x02, 0xf5] = none := ⟨rfl, rfl⟩

/-- An item and what follows it are not an item, unless nothing does. -/
theorem Item.eq_of_append {rest : Octets} (hv : Item v o) (hw : Item w (o ++ rest)) :
    v = w ∧ rest = [] := by
  have hfuel : o.length ≤ (o ++ rest).length := by
    rw [List.length_append]
    exact Nat.le_add_right _ _
  have hread := (hv.takes hfuel).eq_ok rest
  rw [(hw.takes (Nat.le_refl _)).eq_ok_self] at hread
  obtain ⟨rfl, rfl⟩ := Prod.mk.inj (Except.ok.inj hread)
  exact ⟨rfl, rfl⟩

end Cbor

end Settlement
