import TrustLayer.TlVerify

/-!
# Tenant signers

A signer holds the Ed25519 key of a tenant.  The keys of the two fixture
tenants are baked in, and every other tenant's is derived from its name.
-/

namespace TrustLayer.ThemisEvidence

open TrustLayer.Library
open TrustLayer.TlVerify (Crates Seed VerifyingKey hexDecode)

/-- Signing with the key of a seed, third-party code. -/
class Signing where
  sign : Seed → (message : List UInt8) → Vector UInt8 64

/-- `VerifyingKey::verify_strict`. -/
class StrictVerifying where
  verifyStrict : VerifyingKey → (message signature : List UInt8) → Bool

inductive SignerError where
  | io
  | invalidKeyLength (length : Nat)
  deriving DecidableEq

structure SignerService where
  seed : Seed
  tenantId : Str
  deriving DecidableEq

namespace SignerService

def fromSeed (tenantId : Str) (seed : Seed) : SignerService :=
  { seed, tenantId }

section

variable [Crates]

/-- It is never an error. -/
def forTenant (tenantId : Str) : Except SignerError SignerService :=
  .ok (fromSeed tenantId (TlVerify.seedForTenant tenantId))

def publicKeyHex (signer : SignerService) : Str :=
  TlVerify.publicKeyHexOf signer.seed

theorem hexDecode_publicKeyHex (signer : SignerService) :
    hexDecode signer.publicKeyHex =
      .ok (Crates.publicKey signer.seed).toList :=
  TlVerify.hexDecode_toHex _

end

section

variable [Signing]

def signHex (signer : SignerService) (message : List UInt8) : Str :=
  toHex (Signing.sign signer.seed message).toList

theorem hexDecode_signHex (signer : SignerService) (message : List UInt8) :
    hexDecode (signer.signHex message) =
      .ok (Signing.sign signer.seed message).toList :=
  TlVerify.hexDecode_toHex _

end

end SignerService

end TrustLayer.ThemisEvidence
