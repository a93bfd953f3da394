import Mathlib.Data.List.TakeWhile
import Settlement.Proofs.Results
import Settlement.Text.Base64Url

/-!
# Base64url is read back

The text of an octet string is read as that octet string, `decode_encode`, and
no other text is read as octets at all, `decode_eq_ok_iff`. A text is first taken
as the numbers behind its symbols (`sextets`), which are read in groups of four
as they were written, and only the last group may be shorter.
-/

namespace Settlement.Base64Url

/-- The numbers behind the symbols of an octet string. -/
def sextets : Octets → List Nat
  | [] => []
  | [a] => [a.toNat / 4, a.toNat % 4 * 16]
  | [a, b] => [a.toNat / 4, a.toNat % 4 * 16 + b.toNat / 16, b.toNat % 16 * 4]
  | a :: b :: c :: rest =>
    a.toNat / 4 :: (a.toNat % 4 * 16 + b.toNat / 16) :: (b.toNat % 16 * 4 + c.toNat / 64) ::
      c.toNat % 64 :: sextets rest

theorem encode_eq_map (o : Octets) : encode o = (sextets o).map symbol := by
  fun_induction sextets o with
  | case1 => rfl
  | case2 a => rfl
  | case3 a b => rfl
  | case4 a b c rest ih => simp [encode, ih]

theorem sextets_lt (o : Octets) : ∀ n ∈ sextets o, n < 64 := by
  intro n hn
  fun_induction sextets o with
  | case1 => cases hn
  | case2 a =>
      have ha := a.toNat_lt
      simp only [List.mem_cons, List.not_mem_nil, or_false] at hn
      omega
  | case3 a b =>
      have ha := a.toNat_lt
      have hb := b.toNat_lt
      simp only [List.mem_cons, List.not_mem_nil, or_false] at hn
      omega
  | case4 a b c rest ih =>
      have ha := a.toNat_lt
      have hb := b.toNat_lt
      have hc := c.toNat_lt
      simp only [List.mem_cons] at hn
      rcases hn with h | h | h | h | h
      · omega
      · omega
      · omega
      · omega
      · exact ih h

theorem sextets_eq_nil_iff {o : Octets} : sextets o = [] ↔ o = [] := by
  fun_cases sextets o <;> simp

/-- Whole groups and what stands behind them are never a group and a single symbol. -/
theorem length_sextets (o : Octets) : (sextets o).length % 4 ≠ 1 := by
  fun_induction sextets o with
  | case1 => simp
  | case2 a => simp
  | case3 a b => simp
  | case4 a b c rest ih =>
      simp only [List.length_cons]
      omega

theorem length_encode (o : Octets) : (encode o).length = (o.length * 4 + 2) / 3 := by
  fun_induction encode o with
  | case1 => rfl
  | case2 a => simp
  | case3 a b => simp
  | case4 a b c rest ih =>
      simp only [List.length_cons, ih]
      omega

/-! ## Symbols -/

/-- The octet of the symbol of a number. -/
def symbolOctet (n : Nat) : UInt8 := UInt8.ofNat (symbol n).toNat

theorem utf8EncodeChar_symbol :
    ∀ n < 64, String.utf8EncodeChar (symbol n) = [symbolOctet n] := by
  decide +kernel

theorem symbolValue?_symbolOctet : ∀ n < 64, symbolValue? (symbolOctet n) = some n := by
  decide +kernel

theorem symbolOctet_ne_pad : ∀ n < 64, symbolOctet n ≠ pad := by
  decide +kernel

variable {vs : List Nat}

theorem flatMap_symbol (h : ∀ n ∈ vs, n < 64) :
    (vs.map symbol).flatMap String.utf8EncodeChar = vs.map symbolOctet := by
  induction vs with
  | nil => rfl
  | cons v vs ih =>
      rw [List.map_cons, List.flatMap_cons, utf8EncodeChar_symbol v (h v (.head _)),
        ih fun n hn => h n (.tail _ hn)]
      rfl

theorem symbolValues_map (h : ∀ n ∈ vs, n < 64) (offset : Nat) :
    symbolValues offset (vs.map symbolOctet) = .ok vs := by
  induction vs generalizing offset with
  | nil => rfl
  | cons v vs ih =>
      simp only [List.map_cons, symbolValues, symbolValue?_symbolOctet v (h v (.head _)),
        ih (fun n hn => h n (.tail _ hn))]
      rfl

/-! ## Groups -/

theorem groupOctets_three (a b c : UInt8) :
    groupOctets [a.toNat / 4, a.toNat % 4 * 16 + b.toNat / 16, b.toNat % 16 * 4 + c.toNat / 64,
      c.toNat % 64] = ([a, b, c], 0) := by
  have hb := b.toNat_lt
  have hc := c.toNat_lt
  have h1 : a.toNat / 4 * 4 + (a.toNat % 4 * 16 + b.toNat / 16) / 16 = a.toNat := by omega
  have h2 : (a.toNat % 4 * 16 + b.toNat / 16) % 16 * 16 +
      (b.toNat % 16 * 4 + c.toNat / 64) / 4 = b.toNat := by omega
  have h3 : (b.toNat % 16 * 4 + c.toNat / 64) % 4 * 64 + c.toNat % 64 = c.toNat := by omega
  simp only [groupOctets, h1, h2, h3, UInt8.ofNat_toNat]

theorem groupOctets_two (a b : UInt8) :
    groupOctets [a.toNat / 4, a.toNat % 4 * 16 + b.toNat / 16, b.toNat % 16 * 4] =
      ([a, b], 0) := by
  have hb := b.toNat_lt
  have h1 : a.toNat / 4 * 4 + (a.toNat % 4 * 16 + b.toNat / 16) / 16 = a.toNat := by omega
  have h2 : (a.toNat % 4 * 16 + b.toNat / 16) % 16 * 16 + b.toNat % 16 * 4 / 4 = b.toNat := by
    omega
  have h3 : b.toNat % 16 * 4 % 4 = 0 := by omega
  simp only [groupOctets, h1, h2, h3, UInt8.ofNat_toNat]

theorem groupOctets_one (a : UInt8) :
    groupOctets [a.toNat / 4, a.toNat % 4 * 16] = ([a], 0) := by
  have h1 : a.toNat / 4 * 4 + a.toNat % 4 * 16 / 16 = a.toNat := by omega
  have h2 : a.toNat % 4 * 16 % 16 = 0 := by omega
  simp only [groupOctets, h1, h2, UInt8.ofNat_toNat]

/-- A last group of two symbols or more that leaves no bits over is read as its octets. -/
theorem decodeLast_map {o : Octets} (h : ∀ n ∈ vs, n < 64) (hlength : 2 ≤ vs.length)
    (hgroup : groupOctets vs = (o, 0)) (offset : Nat) :
    decodeLast offset (vs.map symbolOctet) = .ok o := by
  have hall : ∀ b ∈ vs.map symbolOctet, decide (b ≠ pad) = true := by
    intro b hb
    obtain ⟨n, hn, rfl⟩ := List.mem_map.mp hb
    exact decide_eq_true (symbolOctet_ne_pad n (h n hn))
  have htake : (vs.map symbolOctet).takeWhile (· ≠ pad) = vs.map symbolOctet :=
    List.takeWhile_eq_self_iff.mpr hall
  have hdrop : (vs.map symbolOctet).dropWhile (· ≠ pad) = [] :=
    List.dropWhile_eq_nil_iff.mpr hall
  have hnot : ¬ vs.length < 2 := by omega
  unfold decodeLast
  simp only [htake, hdrop, symbolValues_map h, List.length_map, hnot]
  simp [hgroup, bind, Except.bind, pure, Except.pure]

theorem decodeGroups_sextets (o : Octets) (offset : Nat) :
    decodeGroups offset ((sextets o).map symbolOctet) = .ok o := by
  fun_induction sextets o generalizing offset with
  | case1 => rfl
  | case2 a =>
      exact decodeLast_map (sextets_lt [a]) (Nat.le_refl 2) (groupOctets_one a) offset
  | case3 a b =>
      exact decodeLast_map (sextets_lt [a, b]) (Nat.le_succ 2) (groupOctets_two a b) offset
  | case4 a b c rest ih =>
      have hgroup : ∀ n ∈ sextets [a, b, c], n < 64 := sextets_lt [a, b, c]
      cases hrest : sextets rest with
      | nil =>
          -- the group is the last one, so nothing is left to be read
          obtain rfl := sextets_eq_nil_iff.mp hrest
          exact decodeLast_map hgroup (by simp [sextets]) (groupOctets_three a b c) offset
      | cons v vs =>
          have hvalues := symbolValues_map hgroup offset
          have htail := ih (offset + 4)
          rw [hrest] at htail
          simp only [sextets, List.map_cons, List.map_nil] at hvalues htail
          simp only [List.map_cons, decodeGroups, hvalues, htail, groupOctets_three, bind,
            Except.bind, pure, Except.pure, List.cons_append, List.nil_append]

/-- **The text of an octet string is read as that octet string.** -/
theorem decode_encode (o : Octets) : decode (encode o) = .ok o := by
  have hlength : ¬ ((sextets o).map symbolOctet).length % 4 = 1 := by
    rw [List.length_map]
    exact length_sextets o
  unfold decode decodeOctets
  rw [encode_eq_map, flatMap_symbol (sextets_lt o)]
  simp only [hlength, if_false]
  exact decodeGroups_sextets o 0

/-! ## Nothing else is read -/

theorem symbolOctet_of_symbolValue? {b : UInt8} {n : Nat} (h : symbolValue? b = some n) :
    n < 64 ∧ symbolOctet n = b := by
  have hall : ∀ k < 256, ∀ n ∈ symbolValue? (UInt8.ofNat k),
      n < 64 ∧ symbolOctet n = UInt8.ofNat k := by decide +kernel
  have hb := hall b.toNat b.toNat_lt n
  rw [UInt8.ofNat_toNat] at hb
  exact hb h

theorem of_symbolValues {offset : Nat} {bs : Octets} (h : symbolValues offset bs = .ok vs) :
    (∀ n ∈ vs, n < 64) ∧ vs.map symbolOctet = bs := by
  induction bs generalizing offset vs with
  | nil =>
      obtain rfl := Except.ok.inj h
      exact ⟨nofun, rfl⟩
  | cons b bs ih =>
      unfold symbolValues at h
      split at h
      · cases h
      · next v hv =>
        obtain ⟨vs, hvs, h⟩ := bind_eq_ok_iff.mp h
        obtain rfl := Except.ok.inj h
        obtain ⟨hlt, hmap⟩ := ih hvs
        obtain ⟨hv64, hoctet⟩ := symbolOctet_of_symbolValue? hv
        exact ⟨List.forall_mem_cons.mpr ⟨hv64, hlt⟩, by rw [List.map_cons, hoctet, hmap]⟩

/-- A group of two to four symbols that leaves no bits over is what its octets are written as. -/
theorem sextets_groupOctets (h : ∀ n ∈ vs, n < 64) (htwo : 2 ≤ vs.length) (hfour : vs.length ≤ 4)
    (hunused : (groupOctets vs).2 = 0) : sextets (groupOctets vs).1 = vs := by
  match vs with
  | [] => simp at htwo
  | [_] => simp at htwo
  | [a, b] =>
    simp only [List.forall_mem_cons] at h
    simp only [groupOctets] at hunused
    simp only [groupOctets, sextets, UInt8.toNat_ofNat', List.cons.injEq, and_true]
    omega
  | [a, b, c] =>
    simp only [List.forall_mem_cons] at h
    simp only [groupOctets] at hunused
    simp only [groupOctets, sextets, UInt8.toNat_ofNat', List.cons.injEq, and_true]
    omega
  | [a, b, c, d] =>
    simp only [List.forall_mem_cons] at h
    simp only [groupOctets, sextets, UInt8.toNat_ofNat', List.cons.injEq, and_true]
    omega
  | _ :: _ :: _ :: _ :: _ :: _ =>
    simp only [List.length_cons] at hfour
    omega

/-- The last group is not padded: all of it are symbols, at least two of them, and no bits are left
over. -/
theorem of_decodeLast {offset : Nat} {bs o : Octets} (h : decodeLast offset bs = .ok o) :
    ∃ vs, symbolValues offset bs = .ok vs ∧ 2 ≤ vs.length ∧ groupOctets vs = (o, 0) := by
  unfold decodeLast at h
  obtain ⟨vs, hvs, h⟩ := bind_eq_ok_iff.mp h
  simp only [throw, throwThe, MonadExceptOf.throw, bind, Except.bind, pure, Except.pure] at h
  split at h
  · cases h
  split at h
  · cases h
  · next htwo =>
    split at h
    · cases h
    · next hpads =>
      split at h
      · cases h
      · next hunused =>
        have hbs : bs.takeWhile (· ≠ pad) = bs := by
          have happend := List.takeWhile_append_dropWhile (p := (· ≠ pad)) (l := bs)
          rwa [not_not.mp hpads, List.append_nil] at happend
        rw [hbs] at hvs htwo
        refine ⟨vs, hvs, ?_, Prod.ext (Except.ok.inj h) (not_not.mp hunused)⟩
        have hlen := congrArg List.length (of_symbolValues hvs).2
        rw [List.length_map] at hlen
        omega

theorem sextets_of_decodeLast {offset : Nat} {bs o : Octets} (hlen : bs.length ≤ 4)
    (h : decodeLast offset bs = .ok o) : (sextets o).map symbolOctet = bs := by
  obtain ⟨vs, hvs, htwo, hgroup⟩ := of_decodeLast h
  obtain ⟨hlt, rfl⟩ := of_symbolValues hvs
  have hsextets := sextets_groupOctets hlt htwo (by rwa [List.length_map] at hlen)
    (congrArg Prod.snd hgroup)
  rw [hgroup] at hsextets
  rw [hsextets]

/-- A full group and what follows it are written one after the other. -/
theorem sextets_groupOctets_append {a b c d : Nat} (h : ∀ n ∈ [a, b, c, d], n < 64) (o : Octets) :
    sextets ((groupOctets [a, b, c, d]).1 ++ o) = [a, b, c, d] ++ sextets o := by
  have hgroup := sextets_groupOctets h (by simp) (by simp) rfl
  simp only [groupOctets, sextets, List.cons.injEq] at hgroup
  obtain ⟨ha, hb, hc, hd, -⟩ := hgroup
  simp only [groupOctets, List.cons_append, List.nil_append, sextets, ha, hb, hc, hd]

theorem sextets_of_decodeGroups {offset : Nat} {bs o : Octets}
    (h : decodeGroups offset bs = .ok o) : (sextets o).map symbolOctet = bs := by
  fun_induction decodeGroups offset bs generalizing o with
  | case1 offset a b c d e rest ih =>
      obtain ⟨vs, hvs, h⟩ := bind_eq_ok_iff.mp h
      obtain ⟨tail, htail, h⟩ := bind_eq_ok_iff.mp h
      obtain rfl := Except.ok.inj h
      obtain ⟨hlt, hmap⟩ := of_symbolValues hvs
      -- the values are as many as the symbols of the group
      have hlen : vs.length = 4 := by simpa using congrArg List.length hmap
      match vs, hlen with
      | [v0, v1, v2, v3], _ =>
        rw [sextets_groupOctets_append hlt, List.map_append, hmap, ih htail]
        rfl
  | case2 offset =>
      obtain rfl := Except.ok.inj h
      rfl
  | case3 offset group hlong hnil =>
      refine sextets_of_decodeLast ?_ h
      match group with
      | [] | [_] | [_, _] | [_, _, _] | [_, _, _, _] => simp
      | a :: b :: c :: d :: e :: rest => exact absurd rfl (hlong a b c d e rest)

/-- Characters are told apart by their octets, one after another. -/
theorem flatMap_utf8EncodeChar_inj {cs ds : List Char}
    (h : cs.flatMap String.utf8EncodeChar = ds.flatMap String.utf8EncodeChar) : cs = ds := by
  have hencode : cs.utf8Encode = ds.utf8Encode := congrArg List.toByteArray h
  have hdecode := congrArg ByteArray.utf8Decode? hencode
  rw [List.utf8Decode?_utf8Encode, List.utf8Decode?_utf8Encode] at hdecode
  simpa using hdecode

theorem decodeGroups_of_decode {cs : List Char} {o : Octets} (h : decode cs = .ok o) :
    decodeGroups 0 (cs.flatMap String.utf8EncodeChar) = .ok o := by
  unfold decode decodeOctets at h
  simp only [throw, throwThe, MonadExceptOf.throw, bind, Except.bind] at h
  split at h
  · split at h
    · cases h
    · exact h
  · exact h

/-- **What texts are read.** A text is read as octets exactly if it is what they are written as. -/
theorem decode_eq_ok_iff {cs : List Char} {o : Octets} : decode cs = .ok o ↔ cs = encode o := by
  constructor
  · intro h
    have hgroups := decodeGroups_of_decode h
    have hbytes := sextets_of_decodeGroups hgroups
    rw [← flatMap_symbol (sextets_lt o)] at hbytes
    rw [encode_eq_map]
    exact (flatMap_utf8EncodeChar_inj hbytes).symm
  · rintro rfl
    exact decode_encode o

end Settlement.Base64Url
