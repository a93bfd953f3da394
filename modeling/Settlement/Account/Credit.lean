import Settlement.Data.Fault
import Settlement.Policy
import Settlement.Signing.Fields
import Settlement.Text.Pieces

/-!
# Credits

A credit is the namespace of an account: an originator and one to three
mergers, whose order counts. `Credit.of` is the checked way to make one;
`of_eq_ok_iff` says that it accepts exactly the well-formed credits.

The text form is `@originator/merger+merger`, keys in base64url.
-/

namespace Settlement

/-- Reads the text form of a key, which need not be a usable one. -/
def PublicKey.ofSymbols (cs : List Char) : Except TextFault PublicKey :=
  match Base64Url.decode cs with
  | .error fault => .error (.keySymbols fault)
  | .ok octets =>
    match Block.ofOctets? 32 octets with
    | some block => .ok ⟨block⟩
    | none => .error (.keyLength octets.length)

/-- An originator and its mergers. -/
structure Credit where
  originator : PublicKey
  /-- The mergers; the order counts. -/
  mergers : List PublicKey
deriving DecidableEq

namespace Credit

/-- One to three mergers, and only usable keys. -/
structure WellFormed (S : Suite) (c : Credit) : Prop where
  one_le_mergers : 1 ≤ c.mergers.length
  mergers_le : c.mergers.length ≤ maxMergers
  isKey_originator : S.isKey c.originator = true
  isKey_mergers : ∀ m ∈ c.mergers, S.isKey m = true

/-- Whether the number of mergers is one to three. -/
def countInRange (c : Credit) : Bool := 1 ≤ c.mergers.length && c.mergers.length ≤ maxMergers

/-- Whether every key is usable. -/
def keysUsable (S : Suite) (c : Credit) : Bool := S.isKey c.originator && c.mergers.all S.isKey

/-- Whether the credit is well formed. -/
def isWellFormed (S : Suite) (c : Credit) : Bool := c.countInRange && c.keysUsable S

theorem isWellFormed_iff {S : Suite} {c : Credit} : c.isWellFormed S = true ↔ c.WellFormed S := by
  simp only [isWellFormed, countInRange, keysUsable, Bool.and_eq_true, decide_eq_true_eq,
    List.all_eq_true]
  exact ⟨fun ⟨⟨h1, h2⟩, h3, h4⟩ => ⟨h1, h2, h3, h4⟩,
    fun ⟨h1, h2, h3, h4⟩ => ⟨⟨h1, h2⟩, h3, h4⟩⟩

/-- The credit of an originator and mergers; the number of mergers is checked before the keys. -/
def of (S : Suite) (originator : PublicKey) (mergers : List PublicKey) : Except ModelFault Credit :=
  let c : Credit := ⟨originator, mergers⟩
  if !c.countInRange then .error (.mergerCount mergers.length)
  else if !c.keysUsable S then .error .invalidPublicKey
  else .ok c

/-- Exactly the well-formed credits can be made. -/
theorem of_eq_ok_iff {S : Suite} {originator : PublicKey} {mergers : List PublicKey} {c : Credit} :
    of S originator mergers = .ok c ↔ c = ⟨originator, mergers⟩ ∧ c.WellFormed S := by
  rw [← isWellFormed_iff]
  simp only [of, isWellFormed]
  constructor
  · intro h
    split at h
    · exact absurd h (by simp)
    · split at h
      · exact absurd h (by simp)
      · next h1 h2 => rw [← Except.ok.inj h]; simp_all
  · rintro ⟨rfl, h⟩
    simp_all

/-- The merger with the given index. -/
def merger? (c : Credit) (index : Nat) : Option PublicKey := c.mergers[index]?

/-- The first place at which a key stands among the mergers. -/
def indexOf? (c : Credit) (key : PublicKey) : Option Nat := c.mergers.findIdx? (· = key)

instance : Signable Credit where
  fields _ c :=
    [.entity .credit,
     ⟨1, .signer, c.originator.cbor⟩,
     ⟨2, .signer, .array (c.mergers.map PublicKey.cbor)⟩]

/-- Credits are ordered by originator, then by the list of mergers. -/
instance : Ord Credit :=
  ⟨fun a b => (compare a.originator b.originator).then (compare a.mergers b.mergers)⟩

/-- The symbols of the text form. -/
def symbols (c : Credit) : List Char :=
  '@' :: c.originator.symbols ++ '/' :: List.intercalate ['+'] (c.mergers.map PublicKey.symbols)

/-- The text form. -/
def text (c : Credit) : String := String.ofList c.symbols

/-- Reads the text form. -/
def ofSymbols (S : Suite) (cs : List Char) : Except DataFault Credit :=
  match cs with
  | '@' :: body =>
    match Text.cut? '/' body with
    | none => .error (.text .creditWithoutSlash)
    | some (before, after) => do
      let originator ← (PublicKey.ofSymbols before).mapError .text
      let mergers ← ((Text.pieces '+' after).mapM PublicKey.ofSymbols).mapError .text
      (of S originator mergers).mapError .model
  | _ => .error (.text .creditWithoutAt)

/-- Reads the text form of a credit. -/
def parse (S : Suite) (s : String) : Except DataFault Credit := ofSymbols S s.toList

end Credit

end Settlement
