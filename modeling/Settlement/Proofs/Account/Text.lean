import Settlement.Account.Value
import Settlement.Proofs.Results
import Settlement.Proofs.Suite.Signing
import Settlement.Proofs.Text.Base64Url
import Settlement.Proofs.Text.Numeral

/-!
# What texts are credits and values

A text is read as a credit exactly if it is the text of that credit, and as a
value exactly if it names the owner, the amount by any of its numerals, and the
credit: `account_texts_read_iff`. So no text is read as two objects, and what is
written is read back.

Texts are cut at the first of each mark. That they are cut where they were put
together is because no mark is a symbol of a key (`PublicKey.not_mem_symbols`)
and a numeral holds no `@`. A numeral may hold a `+`, which separates mergers
as well; the credit has been cut off by then.
-/

namespace Settlement

variable {S : Suite}

/-! ## Keys -/

namespace PublicKey

/-- The text of a key is its symbols and nothing else. -/
theorem ofSymbols_eq_ok_iff {cs : List Char} {k : PublicKey} :
    ofSymbols cs = .ok k ↔ cs = k.symbols := by
  unfold ofSymbols symbols
  rw [← Base64Url.decode_eq_ok_iff]
  cases Base64Url.decode cs with
  | error fault => exact ⟨nofun, nofun⟩
  | ok o =>
      rw [Except.ok.injEq, ← Block.ofOctets?_eq_some_iff]
      cases hblock : Block.ofOctets? 32 o with
      | none => simp [hblock]
      | some block =>
          cases k
          simp [hblock]

theorem length_symbols (k : PublicKey) : k.symbols.length = 43 := by
  rw [symbols, Base64Url.length_encode, k.block.length_octets]

/-- The marks that separate the parts of texts. -/
def marks : List Char := ['@', '/', '+', '#']

theorem not_mem_symbols {c : Char} (hc : c ∈ marks) (k : PublicKey) : c ∉ k.symbols := by
  have hsymbol : ∀ n < 64, Base64Url.symbol n ∉ marks := by decide
  rw [symbols, Base64Url.encode_eq_map]
  intro hmem
  obtain ⟨n, hn, rfl⟩ := List.mem_map.mp hmem
  exact hsymbol n (Base64Url.sextets_lt _ n hn) hc

theorem mapM_ofSymbols_eq_ok_iff {ps : List (List Char)} {ks : List PublicKey} :
    ps.mapM ofSymbols = .ok ks ↔ ps = ks.map symbols := by
  induction ps generalizing ks with
  | nil => cases ks <;> simp [pure, Except.pure]
  | cons p ps ih =>
      simp only [List.mapM_cons, bind_eq_ok_iff, ofSymbols_eq_ok_iff, ih, pure, Except.pure,
        Except.ok.injEq]
      cases ks with
      | nil => simp
      | cons k ks =>
          constructor
          · rintro ⟨k, rfl, ks, rfl, h⟩
            rw [← h, List.map_cons]
          · intro h
            rw [List.map_cons, List.cons.injEq] at h
            exact ⟨k, h.1, ks, h.2, rfl⟩

end PublicKey

/-! ## Credits -/

namespace Credit

/-- Mergers are as many as there are pieces. -/
theorem pieces_mergers {c : Credit} (h : c.WellFormed S) :
    Text.pieces '+' (List.intercalate ['+'] (c.mergers.map PublicKey.symbols)) =
      c.mergers.map PublicKey.symbols := by
  refine Text.pieces_intercalate ?_ ?_
  · intro hnil
    have hpos := h.one_le_mergers
    rw [List.map_eq_nil_iff.mp hnil] at hpos
    exact absurd hpos (by decide)
  · intro p hp
    obtain ⟨k, -, rfl⟩ := List.mem_map.mp hp
    exact k.not_mem_symbols (by decide)

/-- A text is read as a credit exactly if it is that credit's. -/
theorem ofSymbols_eq_ok_iff {cs : List Char} {c : Credit} :
    ofSymbols S cs = .ok c ↔ c.WellFormed S ∧ cs = c.symbols := by
  constructor
  · intro h
    unfold ofSymbols at h
    split at h
    · next body =>
      split at h
      · cases h
      · next before after hcut =>
        obtain ⟨rfl, -⟩ := Text.cut?_eq_some_iff.mp hcut
        obtain ⟨originator, horiginator, h⟩ := bind_eq_ok_iff.mp h
        obtain ⟨mergers, hmergers, h⟩ := bind_eq_ok_iff.mp h
        obtain ⟨rfl, hwell⟩ := of_eq_ok_iff.mp (mapError_eq_ok_iff.mp h)
        have hbefore := PublicKey.ofSymbols_eq_ok_iff.mp (mapError_eq_ok_iff.mp horiginator)
        have hpieces := PublicKey.mapM_ofSymbols_eq_ok_iff.mp (mapError_eq_ok_iff.mp hmergers)
        refine ⟨hwell, ?_⟩
        rw [symbols, ← hpieces, Text.intercalate_pieces, hbefore]
        rfl
    · cases h
  · rintro ⟨h, rfl⟩
    have hcut : Text.cut? '/' (c.originator.symbols ++
        '/' :: List.intercalate ['+'] (c.mergers.map PublicKey.symbols)) =
        some (c.originator.symbols,
          List.intercalate ['+'] (c.mergers.map PublicKey.symbols)) :=
      Text.cut?_eq_some_iff.mpr ⟨rfl, c.originator.not_mem_symbols (by decide)⟩
    have hmergers := PublicKey.mapM_ofSymbols_eq_ok_iff.mpr (pieces_mergers h)
    unfold ofSymbols symbols
    simp only [List.cons_append, hcut, hmergers, PublicKey.ofSymbols_eq_ok_iff.mpr rfl]
    exact mapError_eq_ok_iff.mpr (of_eq_ok_iff.mpr ⟨rfl, h⟩)

end Credit

/-! ## Values -/

namespace Value

/-- The text names the owner, the amount by one of its numerals, and the credit. -/
def IsText (v : Value) (cs : List Char) : Prop :=
  ∃ numeral, Numeral.Denotes numeral v.point.units.toInt ∧
    cs = v.owner.symbols ++ '#' :: numeral ++ v.credit.symbols

theorem isText_symbols (v : Value) : v.IsText v.symbols :=
  ⟨v.point.symbols, Numeral.denotes_toString _, rfl⟩

end Value

theorem Point.ofSymbols_eq_ok_iff {cs : List Char} {p : Point} :
    ofSymbols cs = .ok p ↔ Numeral.Denotes cs p.units.toInt := by
  rw [← Numeral.parse_eq_ok_iff]
  unfold ofSymbols
  cases Numeral.parse cs with
  | error fault => exact ⟨nofun, nofun⟩
  | ok n =>
      cases p
      simp

namespace Value

/-- Behind the owner a text of a value is cut into the numeral and the text of the credit. -/
theorem cut_at_credit {numeral : List Char} {n : Int} (h : Numeral.Denotes numeral n)
    (c : Credit) :
    (numeral ++ c.symbols).takeWhile (· ≠ '@') = numeral ∧
      (numeral ++ c.symbols).dropWhile (· ≠ '@') = c.symbols := by
  have hat : ∀ d ∈ numeral, decide (d ≠ '@') = true := by
    intro d hd
    rcases h.sign_or_digit d hd with rfl | rfl | hdigit
    · decide
    · decide
    · exact decide_eq_true fun h => absurd (h ▸ hdigit) (by decide)
  rw [List.takeWhile_append_of_pos hat, List.dropWhile_append_of_pos hat]
  exact ⟨List.append_nil numeral, rfl⟩

/-- Of a text that names a value the parts are read, and are put together if they may be. -/
theorem ofSymbols_of_isText {cs : List Char} {v : Value} (hwell : v.credit.WellFormed S)
    (h : v.IsText cs) :
    ofSymbols S cs = (of S v.owner v.point v.credit).mapError .model := by
  obtain ⟨numeral, hnumeral, rfl⟩ := h
  have hcut : Text.cut? '#' (v.owner.symbols ++ '#' :: numeral ++ v.credit.symbols) =
      some (v.owner.symbols, numeral ++ v.credit.symbols) :=
    Text.cut?_eq_some_iff.mpr ⟨by simp, v.owner.not_mem_symbols (by decide)⟩
  obtain ⟨htake, hdrop⟩ := cut_at_credit hnumeral v.credit
  have hcredit := Credit.ofSymbols_eq_ok_iff.mpr ⟨hwell, rfl⟩
  unfold ofSymbols
  simp only [hcut, htake, hdrop, hcredit, PublicKey.ofSymbols_eq_ok_iff.mpr rfl,
    Point.ofSymbols_eq_ok_iff.mpr hnumeral]
  rfl

/-- A text is read as a value exactly if it names that value. -/
theorem ofSymbols_eq_ok_iff {cs : List Char} {v : Value} :
    ofSymbols S cs = .ok v ↔ v.WellFormed S ∧ v.IsText cs := by
  constructor
  · intro h
    unfold ofSymbols at h
    split at h
    · cases h
    · next before rest hcut =>
      obtain ⟨rfl, -⟩ := Text.cut?_eq_some_iff.mp hcut
      simp only at h
      split at h
      · cases h
      · obtain ⟨owner, howner, h⟩ := bind_eq_ok_iff.mp h
        obtain ⟨point, hpoint, h⟩ := bind_eq_ok_iff.mp h
        obtain ⟨credit, hcredit, h⟩ := bind_eq_ok_iff.mp h
        obtain ⟨rfl, hwell⟩ := of_eq_ok_iff.mp (mapError_eq_ok_iff.mp h)
        have hbefore := PublicKey.ofSymbols_eq_ok_iff.mp (mapError_eq_ok_iff.mp howner)
        have hnumeral := Point.ofSymbols_eq_ok_iff.mp (mapError_eq_ok_iff.mp hpoint)
        obtain ⟨-, htail⟩ := Credit.ofSymbols_eq_ok_iff.mp hcredit
        refine ⟨hwell, _, hnumeral, ?_⟩
        rw [← htail, ← hbefore, List.append_assoc, List.cons_append,
          List.takeWhile_append_dropWhile]
  · rintro ⟨h, htext⟩
    rw [ofSymbols_of_isText h.wellFormed_credit htext]
    exact mapError_eq_ok_iff.mpr (of_eq_ok_iff.mpr ⟨rfl, h⟩)

end Value

/-! ## Texts -/

theorem Credit.parse_eq_ok_iff {s : String} {c : Credit} :
    Credit.parse S s = .ok c ↔ c.WellFormed S ∧ s = c.text := by
  rw [Credit.parse, Credit.ofSymbols_eq_ok_iff, Credit.text, ← String.toList_inj,
    String.toList_ofList]

theorem Value.parse_eq_ok_iff {s : String} {v : Value} :
    Value.parse S s = .ok v ↔ v.WellFormed S ∧ v.IsText s.toList :=
  Value.ofSymbols_eq_ok_iff

/-- **What texts are credits and values.** A text is read as a credit exactly if it is written so,
and as a value exactly if it is the owner's key of forty-three symbols, a `#`, a numeral of the
amount and the text of the credit. So every credit and every value is read from what is written
for it, and a text of two is a text of one. An amount of more than eighteen digits is refused as
being out of range, even where its numeral can be read. -/
theorem account_texts_read_iff (S : Suite) :
    (∀ (s : String) (c : Credit), Credit.parse S s = .ok c ↔ c.WellFormed S ∧ s = c.text) ∧
    (∀ (s : String) (v : Value),
      Value.parse S s = .ok v ↔ v.WellFormed S ∧ v.IsText s.toList) ∧
    (∀ k : PublicKey, k.symbols.length = 43) ∧
    (∀ c : Credit, c.WellFormed S → Credit.parse S c.text = .ok c) ∧
    (∀ v : Value, v.WellFormed S → Value.parse S v.text = .ok v) ∧
    (∀ c c' : Credit, c.WellFormed S → c'.WellFormed S → c.text = c'.text → c = c') ∧
    (∀ (s : String) (v v' : Value), v.WellFormed S → v'.WellFormed S →
      v.IsText s.toList → v'.IsText s.toList → v = v') ∧
    (∀ (s : String) (v : Value), v.credit.WellFormed S → v.IsText s.toList →
      ¬ (-999999999999999999 ≤ v.point.units.toInt ∧
        v.point.units.toInt ≤ 999999999999999999) →
      Value.parse S s = .error (.model (.pointOutOfRange v.point.units))) := by
  have hvalue : ∀ v : Value, v.WellFormed S → Value.parse S v.text = .ok v := by
    intro v hv
    refine Value.parse_eq_ok_iff.mpr ⟨hv, ?_⟩
    rw [Value.text, String.toList_ofList]
    exact v.isText_symbols
  refine ⟨fun s c => Credit.parse_eq_ok_iff, fun s v => Value.parse_eq_ok_iff,
    PublicKey.length_symbols, fun c hc => Credit.parse_eq_ok_iff.mpr ⟨hc, rfl⟩, hvalue, ?_, ?_, ?_⟩
  · intro c c' hc hc' h
    have hread := Credit.parse_eq_ok_iff.mpr ⟨hc', h⟩
    rw [Credit.parse_eq_ok_iff.mpr ⟨hc, rfl⟩] at hread
    exact Except.ok.inj hread
  · intro s v v' hv hv' h h'
    have hread := Value.parse_eq_ok_iff.mpr ⟨hv', h'⟩
    rw [Value.parse_eq_ok_iff.mpr ⟨hv, h⟩] at hread
    exact Except.ok.inj hread
  · intro s v hcredit htext hbounds
    rw [Value.parse, Value.ofSymbols_of_isText hcredit htext, Value.of_outOfRange hbounds]
    rfl

/-- The key of a seed of two nines. -/
def nineKey : PublicKey := Suite.plain.publicKey (.padded [9, 9])

/-- A credit of three mergers, two of which are the originator. -/
def threefoldCredit : Credit :=
  ⟨nineKey, [nineKey, Suite.plain.publicKey (.padded []), nineKey]⟩

/-- The least amount of the credit. -/
def deepestDebt : Value := ⟨nineKey, .min, threefoldCredit⟩

/-- An amount below that, which no value may have. -/
def belowDebt : Value := ⟨nineKey, ⟨-1000000000000000000⟩, threefoldCredit⟩

/-- The least amount, written with a zero in front, and the one below it. -/
theorem account_texts_read_iff_deepestDebt :
    threefoldCredit.WellFormed .plain ∧ deepestDebt.WellFormed .plain ∧
    Credit.parse .plain threefoldCredit.text = .ok threefoldCredit ∧
    Value.parse .plain (String.ofList (nineKey.symbols ++ '#' :: "-0999999999999999999".toList ++
      threefoldCredit.symbols)) = .ok deepestDebt ∧
    Value.parse .plain (String.ofList (nineKey.symbols ++ '#' :: "-1000000000000000000".toList ++
      threefoldCredit.symbols)) = .error (.model (.pointOutOfRange (-1000000000000000000))) := by
  have hcredit : threefoldCredit.WellFormed .plain :=
    ⟨by decide, by decide, rfl, fun _ _ => rfl⟩
  have hvalue : deepestDebt.WellFormed .plain := ⟨Point.inRange_iff.mp rfl, rfl, hcredit⟩
  have hnumeral : Numeral.Denotes "-0999999999999999999".toList deepestDebt.point.units.toInt :=
    Numeral.parse_eq_ok_iff.mp rfl
  have hbelow : Numeral.Denotes "-1000000000000000000".toList belowDebt.point.units.toInt :=
    Numeral.parse_eq_ok_iff.mp rfl
  obtain ⟨-, hread, -, hwritten, -, -, -, hrefused⟩ := account_texts_read_iff .plain
  refine ⟨hcredit, hvalue, hwritten _ hcredit, (hread _ _).mpr ⟨hvalue, ?_⟩,
    hrefused _ belowDebt hcredit ?_ (by decide)⟩
  · rw [String.toList_ofList]
    exact ⟨_, hnumeral, rfl⟩
  · rw [String.toList_ofList]
    exact ⟨_, hbelow, rfl⟩

end Settlement
