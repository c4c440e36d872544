import Reticulum.Base.Bytes

/-!
# Cryptographic primitives and identities

The primitives that the repository takes from its crypto provider are parameters here: a digest and
a signature check, total as they are when the provider works. `Identity` is the public part of
`rns_identity` of `src/identity/identity.c`.
-/

namespace Reticulum

/-- What the modelled code uses of `reticulum/crypto.h`. -/
structure Crypto where
  /-- `rns_sha256`. -/
  sha256 : List UInt8 → Octets 32
  /-- `rns_ed25519_verify`, of a public key, a message and a signature. -/
  ed25519Verify : Octets 32 → List UInt8 → Octets 64 → Bool

/-- The first 16 bytes of a digest. -/
def truncatedHash (digest : Octets 32) : Octets 16 := Octets.ofList 16 digest.bytes

/-- The public part of `rns_identity`. -/
structure Identity where
  encryption_public : Octets 32
  signing_public : Octets 32
  hash : Octets 16
deriving DecidableEq

/-- `rns_identity_from_public`. -/
def identityFromPublic (crypto : Crypto) (public_key : Octets 64) : Identity :=
  { encryption_public := Octets.ofList 32 public_key.bytes
    signing_public := Octets.ofList 32 (public_key.bytes.drop 32)
    hash := truncatedHash (crypto.sha256 public_key.bytes) }

/-- `rns_identity_verify`. -/
def identityVerify (crypto : Crypto) (identity : Identity) (message : List UInt8)
    (signature : Octets 64) : Bool :=
  crypto.ed25519Verify identity.signing_public message signature

end Reticulum
