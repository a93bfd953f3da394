import Settlement.Fixture.Vector
import Settlement.Linker.Basic
import Settlement.Octets.Lemmas
import Settlement.Proofs.Linker.Honest
import Settlement.Proofs.Linker.Matching
import Settlement.Proofs.Signing.Messages
import Settlement.Suite.Standard
import Settlement.Token
import Settlement.Proofs.Linker.History
import Settlement.Proofs.Linker.Accounting
import Settlement.Proofs.Linker.Isolation
import Settlement.Proofs.Signing.Authenticity
import Settlement.Proofs.Linker.Compaction
import Settlement.Proofs.Linkage.Rederivation
import Settlement.Proofs.Linker.Pooling
import Settlement.Proofs.Linkage.Lenience
import Settlement.Proofs.Storage.Separation
import Settlement.Proofs.Storage.Validity
import Settlement.Proofs.Linkage.Lifetime
import Settlement.Proofs.Proof.Lifetime
import Settlement.Proofs.Linkage.Faults
import Settlement.Proofs.Proof.Principals
import Settlement.Proofs.Evidence.Collection
import Settlement.Proofs.Evidence.Quorum
import Settlement.Proofs.Contract.Commitment
import Settlement.Proofs.Linker.Naming
import Settlement.Proofs.Account.Text
import Settlement.Proofs.Signing.Tokens
import Settlement.Proofs.Linker.Recycling
import Settlement.Proofs.Signing.Deterministic
