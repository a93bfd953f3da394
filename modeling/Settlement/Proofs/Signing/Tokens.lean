import Settlement.Proofs.Signing.Authenticity
import Settlement.Proofs.Storage.RoundTrip

/-!
# What a token is good for

A token proves one thing to one peer. Where signatures are authentic, what
verifies with a token's signature is that token, on the connection that it was
signed for, whatever else has been put into it or taken out: `token_bound`. The
context is not in the token, and it is told apart from the members by the number
of its field alone, so that a credit may be present or not.
-/

namespace Settlement

variable {S : Suite} {messages : Set Octets} {seed : Seed} {context : Octets}
  {credit : Option Credit} {now : Mics} {salt : UInt64}

attribute [ext] OwnerToken

namespace OwnerToken

/-- A token's message does not cover its signature. -/
theorem ownerMessage_with_signature (t : OwnerToken) (signature : Signature) (context : Octets) :
    { t with signature := signature }.ownerMessage S context = t.ownerMessage S context := by
  obtain ⟨key, old, signed, salt, credit⟩ := t
  cases credit <;> rfl

theorem signature_sign : (sign S seed context credit now salt).signature =
    S.sign seed ((sign S seed context credit now salt).ownerMessage S context) :=
  congrArg (S.sign seed) (ownerMessage_with_signature _ _ _).symm

theorem verify_eq_ok_iff {t : OwnerToken} : t.verify S context = .ok () ↔
    t.signedMics ≠ 0 ∧ t.publicKey.accepts S (t.ownerMessage S context) t.signature = true := by
  unfold verify isDated
  by_cases hdated : t.signedMics = 0
  · simp [hdated]
  · by_cases haccepts : t.publicKey.accepts S (t.ownerMessage S context) t.signature = true
    · simp [hdated, haccepts]
    · simp [hdated, haccepts]

/-- A token verifies on its own connection, if it says when it was signed. -/
theorem verify_sign (hS : S.Signs) (hnow : now ≠ 0) :
    (sign S seed context credit now salt).verify S context = .ok () := by
  refine verify_eq_ok_iff.mpr ⟨hnow, ?_⟩
  rw [signature_sign]
  exact hS.accepts seed _

end OwnerToken

/-- **A token is bound to its connection and to what it says.** What carries its signature verifies
exactly if it is the token, on the connection it was signed for, and dated. The token is what its
text form is read as, so the text is bound in the same way. -/
theorem token_bound (hS : S.Signs) (hauthentic : S.Authentic messages)
    (hcredit : ∀ c, credit = some c → c.WellFormed S) (hcontext : context.length < UInt64.size)
    (hmessage : (OwnerToken.sign S seed context credit now salt).ownerMessage S context ∈
      messages) :
    let token := OwnerToken.sign S seed context credit now salt
    (∀ (t : OwnerToken) (context' : Octets),
      t.WellFormed S → context'.length < UInt64.size → t.ownerMessage S context' ∈ messages →
      t.signature = token.signature →
      (t.verify S context' = .ok () ↔ now ≠ 0 ∧ context' = context ∧ t = token)) ∧
    Marked.parse S (Marked.text token) = .ok token := by
  intro token
  have hplay : (Signed.token token context).InPlay S messages ∅ :=
    ⟨⟨hcredit, hcontext⟩, hmessage, nofun⟩
  refine ⟨?_, Storage.TextKind.parse_text_eq_ok (k := .token) hcredit⟩
  intro t context' ht hcontext' hmessage' hsignature
  have hplay' : (Signed.token t context').InPlay S messages ∅ :=
    ⟨⟨ht, hcontext'⟩, hmessage', nofun⟩
  constructor
  · intro hverify
    obtain ⟨hdated, haccepts⟩ := OwnerToken.verify_eq_ok_iff.mp hverify
    rw [hsignature, OwnerToken.signature_sign] at haccepts
    have hcoverage := Signed.coverage_eq_of_accepts hauthentic hplay hplay' haccepts
    obtain ⟨hkey, hsigned, hsalt, hcredit', hcontext''⟩ := Coverage.token.inj hcoverage
    refine ⟨?_, hcontext'', OwnerToken.ext hkey hsignature hsigned hsalt hcredit'⟩
    rwa [hsigned] at hdated
  · rintro ⟨hnow, rfl, rfl⟩
    exact OwnerToken.verify_sign hS hnow

/-- A credit whose originator is its only merger. -/
def plainCredit : Credit :=
  ⟨Suite.plain.publicKey (.padded [1]), [Suite.plain.publicKey (.padded [1])]⟩

/-- A token on the connection with the context `[7]`, with a credit. -/
def plainToken : OwnerToken := .sign .plain (.padded [1]) [7] (some plainCredit) 3 8

/-- The messages of the token, of the token on a connection with a longer context, and of the token
without its credit. -/
def plainTokenMessages : List Octets :=
  [plainToken.ownerMessage .plain [7], plainToken.ownerMessage .plain [7, 5],
    { plainToken with credit := none }.ownerMessage .plain [7]]

/-- A token with a credit is good on its own connection, on no other one, and not without the
credit. -/
theorem token_bound_plainToken :
    Suite.plain.Authentic {m | m ∈ plainTokenMessages} ∧
    plainToken.verify .plain [7] = .ok () ∧ plainToken.verify .plain [7, 5] ≠ .ok () ∧
    { plainToken with credit := none }.verify .plain [7] ≠ .ok () ∧
    Marked.parse .plain (Marked.text plainToken) = .ok plainToken := by
  have hauthentic : Suite.plain.Authentic {m | m ∈ plainTokenMessages} := by
    apply Suite.plain_authentic
    show ∀ m ∈ plainTokenMessages, ∀ n ∈ plainTokenMessages,
      Suite.checksum m = Suite.checksum n → m = n
    decide +kernel
  have hcredit : ∀ c, some plainCredit = some c → c.WellFormed .plain := by
    rintro _ ⟨⟩
    exact ⟨by decide, by decide, rfl, fun _ _ => rfl⟩
  have hbare : { plainToken with credit := none }.WellFormed .plain := nofun
  have hmessage : (OwnerToken.sign .plain (.padded [1]) [7] (some plainCredit) 3 8).ownerMessage
      .plain [7] ∈ {m | m ∈ plainTokenMessages} := .head _
  obtain ⟨hbound, hparse⟩ :=
    token_bound Suite.plain_signs hauthentic hcredit (by decide) hmessage
  refine ⟨hauthentic, ?_, ?_, ?_, hparse⟩
  · exact (hbound plainToken [7] hcredit (by decide) (.head _) rfl).mpr ⟨by decide, rfl, rfl⟩
  · intro hverify
    obtain ⟨-, hcontext, -⟩ :=
      (hbound plainToken [7, 5] hcredit (by decide) (.tail _ (.head _)) rfl).mp hverify
    exact absurd hcontext (by decide)
  · intro hverify
    obtain ⟨-, -, htoken⟩ :=
      (hbound _ [7] hbare (by decide) (.tail _ (.tail _ (.head _))) rfl).mp hverify
    exact absurd (congrArg OwnerToken.credit htoken) nofun

end Settlement
