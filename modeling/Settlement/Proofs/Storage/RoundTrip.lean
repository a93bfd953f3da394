import Settlement.Proofs.Signing.Authenticity
import Settlement.Proofs.Storage.Kind
import Settlement.Proofs.Storage.Objects
import Settlement.Proofs.Text.Base64Url

/-!
# What is stored is read back

The octets of an object say themselves where they end: the object is read from
them whatever follows, and from no part of them alone
(`Storage.stored_objects_round_trip`). The text form is read back by way of the
octets.
-/

namespace Settlement

namespace Stored

variable {α : Type} [Stored α] {S : Suite} {o : Octets} {depth : Nat} {x : α}

theorem exists_ofOctets_eq_error_iff :
    (∃ fault, (ofOctets S o : Except DataFault α) = .error fault) ↔
      ∃ fault, (Storage.Reader.head >>= read S Storage.depthLimit : Storage.Reader α) o =
        .error fault := by
  unfold ofOctets
  constructor
  · rintro ⟨fault, h⟩
    simp only at h
    split at h
    · cases h
    · next fault' hfault => exact ⟨fault', hfault⟩
  · rintro ⟨fault, h⟩
    exact ⟨.decoding fault, by simp only [h]⟩

/-- What is read whole from its head on is what the octets store. -/
theorem ofOctets_append (hread : (Stored.read S).Reads depth (cbor x) x)
    (hdepth : depth ≤ Storage.depthLimit) (rest : Octets) :
    ofOctets S (octets x ++ rest) = .ok x :=
  ofOctets_eq_ok_iff.mpr ⟨rest, (hread Storage.depthLimit hdepth).eq_ok rest⟩

/-- A part of the octets stores nothing. -/
theorem ofOctets_of_cut (hread : (Stored.read S).Reads depth (cbor x) x)
    (hdepth : depth ≤ Storage.depthLimit) {part : Octets} (hpart : part <+: octets x)
    (hne : part ≠ octets x) :
    ∃ fault, (ofOctets S part : Except DataFault α) = .error fault := by
  obtain ⟨missing, hmissing⟩ := hpart
  have hrest : missing ≠ [] := by
    rintro rfl
    exact hne ((List.append_nil part).symm.trans hmissing)
  exact exists_ofOctets_eq_error_iff.mpr
    ((hread Storage.depthLimit hdepth).of_cut part missing hmissing.symm hrest)

end Stored

namespace Marked

variable {α β : Type} [Marked α] [Marked β] {S : Suite}

/-- Behind its mark a text holds the octets, whatever type with this mark it is read as. -/
theorem parse_text (h : mark α = mark β) (x : α) :
    (parse S (text x) : Except DataFault β) = Stored.ofOctets S (Stored.octets x) := by
  simp only [parse, text, String.toList_ofList, symbols, ofSymbols, h, if_true,
    Base64Url.decode_encode]
  rfl

/-- A text with another mark is not read. -/
theorem parse_text_of_ne (h : mark α ≠ mark β) (x : α) :
    (parse S (text x) : Except DataFault β) = .error (.text (.unmarked (mark β))) := by
  simp only [parse, text, String.toList_ofList, symbols, ofSymbols, h, if_false]

end Marked

namespace Storage

variable {S : Suite}

theorem BaseKind.reads {k : BaseKind} {b : k.Object} (h : Base.WellFormed S b) :
    (Stored.read S).Reads 8 (Stored.cbor b) b := by
  cases k with
  | proof => exact (reads_proof (h b rfl)).mono (by decide)
  | contract => exact reads_contract h

/-- **Every kind of object is read whole.** No object nests deeper than nine levels. -/
theorem Kind.reads {k : Kind} {x : k.Object} (h : k.WellFormed S x) :
    (Stored.read S).Reads 9 (Stored.cbor x) x := by
  cases k with
  | credit => exact (reads_credit h).mono (by decide)
  | value => exact (reads_value h).mono (by decide)
  | proof => exact (reads_proof h).mono (by decide)
  | contract => exact (reads_contract h).mono (by decide)
  | proofEvidence => exact (reads_proofEvidence h).mono (by decide)
  | linkedEvidence base =>
      exact reads_linkedEvidence ⟨BaseKind.reads (Link.WellFormed.base1 h),
        BaseKind.reads (Link.WellFormed.base2 h)⟩
  | linkage base =>
      exact reads_linkage ⟨BaseKind.reads (Link.WellFormed.base1 h),
        BaseKind.reads (Link.WellFormed.base2 h)⟩
  | token => exact (reads_token h).mono (by decide)

/-- The octets of a text form are those of the object. -/
theorem TextKind.parse_text {k : TextKind} (x : k.kind.Object) :
    (Marked.parse S (Marked.text x) : Except DataFault k.kind.Object) =
      Stored.ofOctets S (Stored.octets x) := by
  cases k <;> exact Marked.parse_text rfl x

/-- A text form gives the object it was made of. -/
theorem TextKind.parse_text_eq_ok {k : TextKind} {x : k.kind.Object} (h : k.kind.WellFormed S x) :
    Marked.parse S (Marked.text x) = .ok x := by
  rw [TextKind.parse_text, ← List.append_nil (Stored.octets x)]
  exact Stored.ofOctets_append (Kind.reads h) (by decide) []

/-- **What is stored is read back, and only whole.** Every object that can be made is read from
its octets whatever follows them, nothing is read from a proper part of the octets in front, and
a text form gives the object it was made of. -/
theorem stored_objects_round_trip (S : Suite) :
    (∀ (k : Kind) (x : k.Object), k.WellFormed S x →
      (∀ rest, Stored.ofOctets S (Stored.octets x ++ rest) = .ok x) ∧
      ∀ part, part <+: Stored.octets x → part ≠ Stored.octets x →
        ∃ fault, (Stored.ofOctets S part : Except DataFault k.Object) = .error fault) ∧
    ∀ (k : TextKind) (x : k.kind.Object), k.kind.WellFormed S x →
      Marked.parse S (Marked.text x) = .ok x := by
  have hdepth : 9 ≤ depthLimit := by decide
  refine ⟨fun k x hx => ⟨?_, ?_⟩, fun k x hx => ?_⟩
  · exact Stored.ofOctets_append (Kind.reads hx) hdepth
  · intro part hpart hne
    exact Stored.ofOctets_of_cut (Kind.reads hx) hdepth hpart hne
  · exact TextKind.parse_text_eq_ok hx

/-- A side with a whole contract, a compacted one and two of three slots filled, and the linkage
of it. -/
theorem alteredContractSide_round_trips :
    Link.WellFormed .plain alteredContractSide.body.link ∧
    (∀ rest, Stored.ofOctets .plain (Stored.octets alteredContractSide ++ rest) =
      .ok alteredContractSide) ∧
    (∃ fault, (Stored.ofOctets .plain ((Stored.octets alteredContractSide).take 99) :
      Except DataFault (LinkedEvidence Contract)) = .error fault) ∧
    Marked.parse .plain (Marked.text (Linkage.join alteredContractSide plainContractSide)) =
      .ok (Linkage.join alteredContractSide plainContractSide) := by
  have hwell : Link.WellFormed .plain alteredContractSide.body.link :=
    ⟨wellFormed_wholeOf_plainProof _, nofun⟩
  obtain ⟨hoctets, htext⟩ := stored_objects_round_trip .plain
  obtain ⟨hwhole, hpart⟩ := hoctets (.linkedEvidence .contract) alteredContractSide hwell
  have hlength : 99 < (Stored.octets alteredContractSide).length := by decide +kernel
  refine ⟨hwell, hwhole, hpart _ (List.take_prefix ..) fun h => ?_,
    htext (.linkage .contract) (Linkage.join alteredContractSide plainContractSide) hwell⟩
  have htake := congrArg List.length h
  rw [List.length_take] at htake
  change min 99 (Stored.octets alteredContractSide).length =
    (Stored.octets alteredContractSide).length at htake
  omega

end Storage

end Settlement
