import Settlement.Proofs.Storage.Items
import Settlement.Proofs.Storage.WellFormed

/-!
# Readers that keep their place

A reader may be shown an item that was written as something else. It may refuse
it, but must not lose its place: if it goes on at all, it goes on right behind
the item. `Reader.Ends` says so of a reader and octets, `ItemReader.Steady` of a
reader and all items that stored objects are made of (`Storable`).

Reading is lenient, and in general a reader does lose its place: the first three
items of a longer array are read as the slots of merger signatures, and the
first thirty-two numbers of one as a key. No stored object holds an array of
more than three items.

A record that lacks a member that the reader cannot do without is refused, and
so is one whose member of that name is refused (`Reader.labelled_record`).
-/

namespace Settlement.Storage

variable {α β δ : Type}

namespace Reader

/-- On octets that start with the given ones the reader fails, or takes exactly these and gives a
value with the property. -/
def Ends (r : Reader α) (o : Octets) (P : α → Prop) : Prop :=
  ∀ ⦃rest x left⦄, r (o ++ rest) = .ok (x, left) → left = rest ∧ P x

variable {P : α → Prop} {Q : β → Prop} {r : Reader α} {f : α → Reader β} {a b o : Octets} {x : α}

theorem ends_pure (h : P x) : Ends (pure x) [] P := by
  intro rest y left hy
  cases hy
  exact ⟨rfl, h⟩

theorem ends_throw (fault : DecodeFault) : Ends (throw fault) o P := by
  intro rest y left hy
  cases hy

theorem ends_lift {r : Except DecodeFault α} (h : ∀ x, r = .ok x → P x) :
    Ends (liftM r) [] P := by
  intro rest y left hy
  cases r with
  | error fault => cases hy
  | ok x =>
      cases hy
      exact ⟨rfl, h _ rfl⟩

theorem Takes.ends (h : r.Takes o x) (hx : P x) : r.Ends o P := by
  intro rest y left hy
  rw [h.eq_ok rest] at hy
  cases hy
  exact ⟨rfl, hx⟩

theorem Ends.bind (hr : r.Ends a P) (hf : ∀ x, P x → (f x).Ends b Q) :
    Ends (r >>= f) (a ++ b) Q := by
  intro rest y left hy
  rw [List.append_assoc] at hy
  obtain ⟨⟨x, o⟩, hx, hy⟩ := bind_eq_ok_iff.mp hy
  obtain ⟨rfl, hP⟩ := hr hx
  exact hf x hP hy

/-- Nothing is taken after the first reader. -/
theorem Ends.bind_nil (hr : r.Ends o P) (hf : ∀ x, P x → (f x).Ends [] Q) :
    Ends (r >>= f) o Q :=
  List.append_nil o ▸ hr.bind hf

theorem Ends.map {g : α → β} (hr : r.Ends o P) (hg : ∀ x, P x → Q (g x)) :
    Ends (g <$> r) o Q := by
  rw [map_eq_pure_bind]
  exact hr.bind_nil fun x hx => ends_pure (hg x hx)

theorem Takes.bind_ends (hr : r.Takes a x) (hf : (f x).Ends b Q) : Ends (r >>= f) (a ++ b) Q :=
  (hr.ends (P := (· = x)) rfl).bind fun _ hy => hy ▸ hf

/-- Nothing is taken by the first reader. -/
theorem Ends.nil_bind (hr : r.Ends [] P) (hf : ∀ x, P x → (f x).Ends o Q) :
    Ends (r >>= f) o Q :=
  hr.bind hf

theorem Ends.and_gives {P' : α → Prop} (hr : r.Ends o P) (hgives : r.Gives P') :
    r.Ends o P' := by
  intro rest y left hy
  exact ⟨(hr hy).1, hgives hy⟩

/-- A reader that never succeeds may be shown anything. -/
theorem Gives.ends (h : r.Gives fun _ => False) : r.Ends o P :=
  fun _ _ _ hy => (h hy).elim

theorem ends_enter (budget : Nat) : (enter budget).Ends [] fun _ => True := by
  cases budget with
  | zero => exact ends_throw _
  | succ budget => exact ends_pure trivial

/-- What an invariant survives piece by piece it survives over all pieces. -/
theorem ends_times {step : Head → δ → Reader δ} {I : δ → Prop} {pieces : List Octets}
    (hstep : ∀ o ∈ pieces, ∀ d, I d → Ends (head >>= fun h => step h d) o I) :
    ∀ d, I d → (times step pieces.length d).Ends pieces.flatten I := by
  induction pieces with
  | nil => exact fun d hd => ends_pure hd
  | cons o pieces ih =>
      intro d hd
      have hunfold : times step (o :: pieces).length d =
          (head >>= fun h => step h d) >>= times step pieces.length := by
        rw [bind_assoc]
        rfl
      rw [hunfold, List.flatten_cons]
      exact (hstep o (.head _) d hd).bind (ih fun o ho => hstep o (.tail _ ho))

/-- An array is too short for more elements than it has. -/
theorem gives_firstElements_of_lt {item : Head → Reader α} {length count : Nat}
    (h : length < count) : (firstElements item count (some length)).Gives fun _ => False := by
  induction length generalizing count with
  | zero =>
      obtain ⟨count, rfl⟩ := Nat.exists_eq_succ_of_ne_zero (Nat.ne_of_gt h)
      exact gives_throw _
  | succ length ih =>
      obtain ⟨count, rfl⟩ := Nat.exists_eq_succ_of_ne_zero (Nat.ne_of_gt (Nat.zero_lt_of_lt h))
      refine gives_bind fun head => gives_bind fun x => ?_
      exact (ih (Nat.lt_of_succ_lt_succ h)).bind fun _ hfalse => hfalse.elim

end Reader

/-! ## Items of stored objects -/

/-- What stored objects are made of: numbers, truth values, strings, nothing, arrays of no more
items than a credit has mergers, and records. -/
inductive Storable : Cbor → Prop
  | uint (n : UInt64) : Storable (.uint n)
  | nint (n : UInt64) : Storable (.nint n)
  | bool (b : Bool) : Storable (.bool b)
  | null : Storable .null
  | bytes {b : Octets} (hlength : b.length < UInt64.size) : Storable (.bytes b)
  | array {items : List Cbor} (hlength : items.length ≤ maxMergers)
      (hitems : ∀ v ∈ items, Storable v) : Storable (.array items)
  | map {entries : List (Cbor × Cbor)} (hlength : entries.length < UInt64.size)
      (hkeys : ∀ e ∈ entries, ∃ s, IsName s ∧ e.1 = .text s)
      (hvalues : ∀ e ∈ entries, Storable e.2) : Storable (.map entries)

/-- The head of an item of a stored object, and the octets behind it. -/
inductive Shape : Head → Octets → Prop
  | unsigned (n : Nat) : Shape (.unsigned n) []
  | negative (n : Nat) : Shape (.negative n) []
  | simple (n : Nat) : Shape (.simple n) []
  | bytes (b : Octets) : Shape (.bytes (some b.length)) b
  | array {items : List Cbor} (hlength : items.length ≤ maxMergers)
      (hitems : ∀ v ∈ items, Storable v) :
      Shape (.array (some items.length)) (Cbor.encodeItems items)
  | map {entries : List (Cbor × Cbor)} (hkeys : ∀ e ∈ entries, ∃ s, IsName s ∧ e.1 = .text s)
      (hvalues : ∀ e ∈ entries, Storable e.2) :
      Shape (.map (some entries.length)) (Cbor.encodeEntries entries)

theorem Storable.exists_shape {v : Cbor} (hv : Storable v) :
    ∃ h body, Starts v h body ∧ Shape h body := by
  cases hv with
  | uint n => exact ⟨_, _, starts_uint n, .unsigned _⟩
  | nint n => exact ⟨_, _, starts_nint n, .negative _⟩
  | bool b => exact ⟨_, _, starts_bool b, .simple _⟩
  | null => exact ⟨_, _, starts_null, .simple _⟩
  | bytes hlength => exact ⟨_, _, starts_bytes hlength, .bytes _⟩
  | array hlength hitems =>
      have hsize : maxMergers < UInt64.size := by decide
      exact ⟨_, _, starts_array (Nat.lt_of_le_of_lt hlength hsize), .array hlength hitems⟩
  | map hlength hkeys hvalues => exact ⟨_, _, starts_map hlength, .map hkeys hvalues⟩

theorem Shape.untag_eq {h : Head} {body : Octets} (hshape : Shape h body) :
    Reader.untag h = pure h := by
  cases hshape <;> rfl

/-- Shown the value from its head on, the reader fails or takes it whole. -/
def ItemReader.Ends (item : ItemReader α) (v : Cbor) (P : α → Prop) : Prop :=
  ∀ budget, Reader.Ends (Reader.head >>= item budget) v.encode P

/-- The reader keeps its place, whatever item of a stored object it is shown. -/
def ItemReader.Steady (item : ItemReader α) : Prop :=
  ∀ budget ⦃h body⦄, Shape h body → (item budget h).Ends body fun _ => True

/-- The reader fails on octets that start with the value. -/
def ItemReader.Refuses (item : ItemReader α) (v : Cbor) : Prop := item.Ends v fun _ => False

theorem ItemReader.ends_of_starts {item : ItemReader α} {P : α → Prop} {v : Cbor} {h : Head}
    {body : Octets} (hv : Starts v h body) (hitem : ∀ budget, (item budget h).Ends body P) :
    item.Ends v P := by
  intro budget
  obtain ⟨front, hencode, hhead⟩ := hv
  rw [hencode]
  exact hhead.bind_ends (hitem budget)

theorem ItemReader.Steady.ends {item : ItemReader α} (hitem : item.Steady) {v : Cbor}
    (hv : Storable v) : item.Ends v fun _ => True := by
  obtain ⟨h, body, hstarts, hshape⟩ := hv.exists_shape
  exact ends_of_starts hstarts fun budget => hitem budget hshape

namespace Reader

open ItemReader

/-! ## Numbers, truth values and strings -/

variable {h : Head} {body : Octets}

theorem ends_integerIn (low high : Int) (hshape : Shape h body) :
    (integerIn low high h).Ends body fun _ => True := by
  have hread : ∀ fuel, (integerWithin (fuel + 1) h).Ends body fun _ => True := by
    intro fuel
    cases hshape with
    | unsigned n => exact ends_pure trivial
    | negative n => exact ends_pure trivial
    | simple n => exact ends_throw _
    | bytes b => exact ends_throw _
    | array _ _ => exact ends_throw _
    | map _ _ => exact ends_throw _
  have hfuel : Ends (fun o => integerWithin (o.length + 1) h o) body fun _ => True :=
    fun _ _ _ hx => hread _ hx
  unfold integerIn
  refine hfuel.bind_nil fun n _ => ?_
  split
  · exact ends_pure trivial
  · exact ends_throw _

theorem steady_int64 : int64.Steady :=
  fun _ _ _ hshape => (ends_integerIn _ _ hshape).map fun _ _ => trivial

theorem steady_uint64 : uint64.Steady :=
  fun _ _ _ hshape => (ends_integerIn _ _ hshape).map fun _ _ => trivial

theorem steady_uint8 : uint8.Steady :=
  fun _ _ _ hshape => (ends_integerIn _ _ hshape).map fun _ _ => trivial

theorem steady_bool : bool.Steady := by
  intro budget h body hshape
  unfold bool
  rw [hshape.untag_eq, pure_bind]
  cases hshape with
  | simple n =>
      split
      · exact ends_pure trivial
      · exact ends_pure trivial
      · exact ends_throw _
  | unsigned n => exact ends_throw _
  | negative n => exact ends_throw _
  | bytes b => exact ends_throw _
  | array _ _ => exact ends_throw _
  | map _ _ => exact ends_throw _

theorem steady_block {n : Nat} (hn : maxMergers < n) : (block n).Steady := by
  intro budget h body hshape
  unfold block
  rw [hshape.untag_eq]
  simp only [pure_bind]
  cases hshape with
  | bytes _ =>
      simp only
      split
      · refine ((takes_octets body).ends trivial).bind_nil fun o (_ : True) => ?_
        split
        · exact ends_pure trivial
        · exact ends_throw _
      · exact ends_throw _
  | array hlength hitems =>
      -- there are fewer items than a block has octets
      refine (ends_enter budget).nil_bind fun inner _ => Gives.ends ?_
      exact (gives_firstElements_of_lt (Nat.lt_of_le_of_lt hlength hn)).bind fun _ hfalse =>
        hfalse.elim
  | unsigned m => exact ends_throw _
  | negative m => exact ends_throw _
  | simple m => exact ends_throw _
  | map _ _ => exact ends_throw _

theorem steady_optional {item : ItemReader α} (hitem : item.Steady) :
    (optional item).Steady := by
  intro budget h body hshape
  unfold optional
  split
  · cases hshape
    exact ends_pure trivial
  · cases hshape
    exact ends_pure trivial
  · exact (hitem budget hshape).map fun _ _ => trivial

/-! ## Lists -/

variable {item : ItemReader α}

theorem steady_list (hitem : item.Steady) : (list item).Steady := by
  intro budget h body hshape
  unfold list
  rw [hshape.untag_eq]
  simp only [pure_bind]
  cases hshape with
  | @array items hlength hitems =>
      refine (ends_enter budget).nil_bind fun inner _ => ?_
      refine Ends.map (P := fun _ => True) ?_ fun _ _ => trivial
      rw [Cbor.encodeItems_eq_flatMap, List.flatMap_def, ← List.length_map Cbor.encode]
      refine ends_times (fun o ho xs _ => ?_) [] trivial
      obtain ⟨v, hv, rfl⟩ := List.mem_map.mp ho
      rw [← map_bind]
      exact (hitem.ends (hitems v hv) inner).map fun _ _ => trivial
  | bytes _ =>
      refine Ends.bind_nil (P := fun _ => True) ?_ fun filled _ => ?_
      · exact ((takes_octets body).ends trivial).bind_nil fun _ (_ : True) => ends_pure trivial
      · split
        · exact ends_throw _
        · exact ends_pure trivial
  | unsigned m => exact ends_throw _
  | negative m => exact ends_throw _
  | simple m => exact ends_throw _
  | map _ _ => exact ends_throw _

theorem ends_firstElements {read : Head → Reader α} {items : List Cbor}
    (hread : ∀ v ∈ items, Ends (head >>= read) v.encode fun _ => True) :
    (firstElements read items.length (some items.length)).Ends (Cbor.encodeItems items)
      fun _ => True := by
  induction items with
  | nil => exact ends_pure trivial
  | cons v items ih =>
      have hunfold : firstElements read (v :: items).length (some (v :: items).length) =
          (head >>= read) >>= fun y =>
            (y :: ·) <$> firstElements read items.length (some items.length) := by
        rw [bind_assoc]
        simp only [map_eq_pure_bind]
        rfl
      rw [hunfold, Cbor.encodeItems]
      refine (hread v (.head _)).bind fun y _ => ?_
      exact (ih fun v hv => hread v (.tail _ hv)).map fun _ _ => trivial

theorem steady_exactly (hitem : item.Steady) : (exactly maxMergers item).Steady := by
  intro budget h body hshape
  unfold exactly
  rw [hshape.untag_eq]
  simp only [pure_bind]
  cases hshape with
  | @array items hlength hitems =>
      refine (ends_enter budget).nil_bind fun inner _ => ?_
      rcases Nat.lt_or_eq_of_le hlength with hlt | heq
      · exact (gives_firstElements_of_lt hlt).ends
      · rw [← heq]
        exact ends_firstElements fun v hv => hitem.ends (hitems v hv) inner
  | bytes _ => exact Gives.ends (gives_bind fun _ => gives_throw _)
  | unsigned m => exact ends_throw _
  | negative m => exact ends_throw _
  | simple m => exact ends_throw _
  | map _ _ => exact ends_throw _

/-- Of an array of four items the last one is left unread. -/
example : (head >>= exactly maxMergers bool 1) [0x84, 0xf5, 0xf4, 0xf5, 0xf4] =
    .ok ([true, false, true], [0xf4]) := rfl

/-! ## Items under an unknown name -/

theorem ends_skipTextSegment {o : Octets} (hlength : o.length ≤ stringLimit) :
    (skipTextSegment o.length).Ends o fun _ => True := by
  have hend : ∀ fuel carry, Ends (pieces (fun carry : Octets => stringLimit - carry.length)
      textPiece fuel 0 carry) [] fun _ => True := by
    intro fuel carry
    cases fuel <;> exact ends_pure trivial
  have hpieces : Ends (pieces (fun carry : Octets => stringLimit - carry.length) textPiece
      o.length o.length []) o fun _ => True := by
    cases o with
    | nil => exact ends_pure trivial
    | cons b o =>
        -- the whole text fits into the first piece
        have hsize : min (stringLimit - ([] : Octets).length) (b :: o).length = (b :: o).length :=
          Nat.min_eq_right hlength
        rw [List.length_cons] at hsize ⊢
        unfold pieces
        rw [if_neg (Nat.succ_ne_zero _)]
        simp only [hsize, Nat.sub_self]
        refine ((takes_octets (b :: o)).ends trivial).bind_nil fun piece (_ : True) => ?_
        exact (ends_lift fun _ _ => trivial).nil_bind fun carry (_ : True) => hend _ carry
  unfold skipTextSegment
  refine hpieces.bind_nil fun carry _ => ?_
  split
  · exact ends_throw _
  · exact ends_pure trivial

theorem ends_skip_text {s : String} (hs : IsName s) :
    ItemReader.Ends skip (.text s) fun _ => True := by
  have hsize : (Cbor.utf8 s).length < UInt64.size :=
    Nat.lt_of_le_of_lt hs.1 (by decide)
  refine ends_of_starts (starts_text hsize) fun budget => ?_
  cases budget <;> exact ends_skipTextSegment hs.1

/-- What is dropped is dropped whole. -/
theorem ends_skip {v : Cbor} (hv : Storable v) : ItemReader.Ends skip v fun _ => True := by
  induction hv with
  | uint n =>
      refine ends_of_starts (starts_uint n) fun budget => ?_
      cases budget <;> exact ends_pure trivial
  | nint n =>
      refine ends_of_starts (starts_nint n) fun budget => ?_
      cases budget <;> exact ends_pure trivial
  | bool b =>
      refine ends_of_starts (starts_bool b) fun budget => ?_
      cases b <;> cases budget <;> exact ends_pure trivial
  | null =>
      refine ends_of_starts starts_null fun budget => ?_
      cases budget <;> exact ends_pure trivial
  | @bytes b hlength =>
      refine ends_of_starts (starts_bytes hlength) fun budget => ?_
      have hbytes : (skipBytes (some b.length)).Ends b fun _ => True :=
        ((takes_octets b).ends trivial).bind_nil fun _ (_ : True) => ends_pure trivial
      cases budget <;> exact hbytes.bind_nil fun _ _ => ends_pure trivial
  | @array items hlength hitems ih =>
      have hsize : maxMergers < UInt64.size := by decide
      refine ends_of_starts (starts_array (Nat.lt_of_le_of_lt hlength hsize)) fun budget => ?_
      cases budget with
      | zero => exact ends_throw _
      | succ budget =>
          show (times (fun h _ => skip budget h) items.length ()).Ends _ _
          rw [Cbor.encodeItems_eq_flatMap, List.flatMap_def, ← List.length_map Cbor.encode]
          refine ends_times (fun o ho _ _ => ?_) () trivial
          obtain ⟨v, hv, rfl⟩ := List.mem_map.mp ho
          exact ih v hv budget
  | @map entries hlength hkeys hvalues ih =>
      refine ends_of_starts (starts_map hlength) fun budget => ?_
      cases budget with
      | zero => exact ends_throw _
      | succ budget =>
          show (times (fun h _ => do
            skip budget h
            skip budget (← head)) entries.length ()).Ends _ _
          rw [Cbor.encodeEntries_eq_flatMap, List.flatMap_def,
            ← List.length_map fun e : Cbor × Cbor => e.1.encode ++ e.2.encode]
          refine ends_times (fun o ho _ _ => ?_) () trivial
          obtain ⟨⟨key, v⟩, he, rfl⟩ := List.mem_map.mp ho
          obtain ⟨s, hs, hkey⟩ := hkeys _ he
          obtain rfl : key = .text s := hkey
          rw [← bind_assoc]
          exact (ends_skip_text hs budget).bind fun _ _ => ih _ he budget

end Reader

end Settlement.Storage
