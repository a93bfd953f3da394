import Mathlib.Data.Set.Defs
import Settlement.Octets.Basic
import Settlement.Suite.Basic

/-!
# Suites whose signatures verify

What the honest ask of a suite is that their own signatures verify,
`Suite.Signs`, and where they sign again that the signature is the same,
`Suite.Deterministic`; what a verifier asks is that a signature speaks for one key
and one message, `Suite.Authentic`. `Suite.plain` is a suite that can be evaluated
by hand: a seed is its own key and a signature is the key with a checksum of the
message. Nothing about it is secret, but it does sign (`Suite.plain_signs`), each
key in one way (`Suite.plain_deterministic`), and it is authentic wherever the
checksums differ (`Suite.plain_authentic`).
-/

namespace Settlement

namespace Suite

/-- What a seed's holder signs verifies under the seed's key, which is a usable one. -/
structure Signs (S : Suite) : Prop where
  isKey_publicKey : ∀ seed, S.isKey (S.publicKey seed) = true
  verify_sign : ∀ seed message,
    S.verify (S.publicKey seed) message (S.sign seed message) = true

theorem Signs.accepts {S : Suite} (h : S.Signs) (seed : Seed) (message : Octets) :
    (S.publicKey seed).accepts S message (S.sign seed message) = true := by
  rw [PublicKey.accepts, h.isKey_publicKey, h.verify_sign]
  rfl

/-- The given seeds sign a message alike wherever they have one key: a signature is determined by
the key of its signer and the message. -/
def Deterministic (S : Suite) (seeds : Set Seed) : Prop :=
  ∀ seed ∈ seeds, ∀ seed' ∈ seeds, S.publicKey seed = S.publicKey seed' →
    ∀ message, S.sign seed message = S.sign seed' message

/-- Among the given messages, a signature verifies for no message but its own and under no key but
that of its signer. There are more messages than signatures, so a suite that signs has this for
some messages only. -/
def Authentic (S : Suite) (messages : Set Octets) : Prop :=
  ∀ seed, ∀ m ∈ messages, ∀ n ∈ messages, ∀ key : PublicKey,
    key.accepts S n (S.sign seed m) = true → key = S.publicKey seed ∧ n = m

/-- The octets as the digits of one number, which is cut to 32 octets. -/
def checksum (o : Octets) : Block 32 :=
  ⟨Octets.bigEndian 32 (o.foldl (fun n b => n * 257 + b.toNat) 1), Octets.length_bigEndian _ _⟩

/-- Keys that are seeds, and checksums for digests. -/
def plain : Suite where
  isKey _ := true
  publicKey s := ⟨s.block⟩
  sign s message :=
    ⟨⟨s.octets ++ (checksum message).octets, by
      rw [List.length_append, s.block.length_octets, (checksum message).length_octets]⟩⟩
  verify k message signature := signature.octets == k.octets ++ (checksum message).octets
  digest o := ⟨checksum o⟩

theorem plain_signs : plain.Signs :=
  ⟨fun _ => rfl, fun _ _ => beq_self_eq_true _⟩

theorem plain_deterministic (seeds : Set Seed) : plain.Deterministic seeds := by
  intro seed _ seed' _ hkey message
  cases seed
  cases seed'
  obtain rfl := PublicKey.mk.inj hkey
  rfl

theorem plain_authentic {messages : Set Octets}
    (h : ∀ m ∈ messages, ∀ n ∈ messages, checksum m = checksum n → m = n) :
    plain.Authentic messages := by
  intro seed m hm n hn key haccepts
  have heq : seed.octets ++ (checksum m).octets = key.octets ++ (checksum n).octets :=
    eq_of_beq haccepts
  obtain ⟨hkey, hchecksum⟩ := List.append_inj heq
    (seed.block.length_octets.trans key.block.length_octets.symm)
  refine ⟨?_, (h m hm n hn (Block.ext hchecksum)).symm⟩
  cases key
  exact congrArg PublicKey.mk (Block.ext hkey.symm)

end Suite

end Settlement
