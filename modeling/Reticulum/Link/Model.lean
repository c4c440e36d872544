import Reticulum.Packet

/-!
# Links

The link handshake of `src/link/link.c`. An initiator sends its two public keys and the MTU that it
asks for in a request packet; a responder answers with a proof, signed by the identity of the
destination, that carries its own key and the MTU that it grants; the initiator confirms with the
round-trip time that it measured. Both then share a link id, which is a digest of the request, and a
key derived from it and the key exchange.

What the code takes from the crypto provider is in `Primitives`. A generated key pair is a private
key and its public key. Times are exact.
-/

namespace Reticulum

open Octets
open Bytes (beEncode beDecode)

/-- What `link.c` takes from the crypto provider and the platform. -/
structure Primitives extends Crypto where
  /-- `rns_x25519_public_from_private`. -/
  x25519Public : Octets 32 → Octets 32
  /-- `rns_x25519_exchange`, of a private key and the public key of the peer. -/
  x25519Exchange : Octets 32 → Octets 32 → Option (Octets 32)
  /-- `rns_hkdf_sha256`, of a shared secret and a link id as the salt. -/
  hkdfSha256 : Octets 32 → Octets 16 → Octets 64
  /-- `rns_ed25519_public_from_private`. -/
  ed25519Public : Octets 32 → Octets 32
  /-- `rns_ed25519_sign`, of a private key and a message. -/
  ed25519Sign : Octets 32 → List UInt8 → Octets 64
  /-- The token of a plaintext under a key and a random initialisation vector: the vector, the
  padded ciphertext and the digest. -/
  tokenSeal : Octets 64 → Octets 16 → List UInt8 → List UInt8
  /-- The plaintext of a token that is genuine. -/
  tokenOpen : Octets 64 → List UInt8 → Option (List UInt8)
  /-- The bits of a double. -/
  doubleBits : ℚ → ℕ
  /-- The double of eight bytes, unless it is not finite. -/
  doubleValue : ℕ → Option ℚ

/-- `rns_token_encrypt` into a buffer of the capacity. -/
def tokenEncrypt (p : Primitives) (key : Octets 64) (random : Octets 16) (plaintext : List UInt8)
    (capacity : ℕ) : Option (List UInt8) :=
  let needed := 16 + (plaintext.length / 16 + 1) * 16 + 32
  if plaintext.length > 2^31 - 1 ∨ capacity < needed ∨ needed > 2^31 - 1 then none
  else some (p.tokenSeal key random plaintext)

/-- `rns_token_decrypt` into a buffer of the capacity, which has to hold the padding too. -/
def tokenDecrypt (p : Primitives) (key : Octets 64) (token : List UInt8) (capacity : ℕ) :
    Option (List UInt8) :=
  if token.length < 64 ∨ (token.length - 48) % 16 ≠ 0 ∨ token.length - 48 > 2^31 - 1 ∨
      capacity < token.length - 48 then none
  else p.tokenOpen key token

/-- An identity with the private part that a destination has of its own. -/
structure LocalIdentity extends Identity where
  /-- The signing key, with nothing where `has_private` is zero. -/
  signing_private : Option (Octets 32)
deriving DecidableEq

/-- `rns_link_role`. -/
inductive LinkRole
  | initiator
  | responder
deriving DecidableEq, Repr

/-- `rns_link_state`. -/
inductive LinkState
  | pending
  | handshake
  | active
  | closed
deriving DecidableEq, Repr

/-- `rns_link`. -/
structure Link where
  role : LinkRole
  state : LinkState
  request_time : ℚ
  deadline : ℚ
  rtt : ℚ
  activated_at : ℚ
  mtu : ℕ
  mode : UInt8
  link_id : Octets 16
  private_key : Octets 32
  public_key : Octets 32
  signing_private : Octets 32
  signing_public : Octets 32
  peer_public : Octets 32
  peer_signing_public : Octets 32
  derived_key : Octets 64
  remote_identity : Identity
deriving DecidableEq

namespace Link

/-- `RNS_LINK_MTU_MASK`. -/
def mtuMask : ℕ := 0x1fffff

/-- `RNS_LINK_MODE_AES256_CBC`. -/
def modeAes256Cbc : UInt8 := 1

section

variable (p : Primitives) (link : Link)

/-- `rns_link_signalling_encode`. -/
def signallingEncode (mtu : ℕ) (mode : UInt8) : Option (List UInt8) :=
  if mtu = 0 ∨ mtu > mtuMask ∨ mode ≠ modeAes256Cbc then none
  else some (beEncode 3 ((mtu &&& mtuMask) ||| ((mode <<< 5).toNat <<< 16)))

/-- `rns_link_signalling_decode`: the MTU and the mode of three bytes. -/
def signallingDecode (input : List UInt8) : Option (ℕ × UInt8) :=
  let value := beDecode input
  let decoded_mode := (input.getD 0 0 &&& 0xe0) >>> 5
  if value &&& mtuMask ≠ 0 ∧ decoded_mode = modeAes256Cbc then
    some (value &&& mtuMask, decoded_mode)
  else none

/-- `derive`: the key of the link, from the keys that it has. -/
def derive : Option Link :=
  match p.x25519Exchange link.private_key link.peer_public with
  | none => none
  | some shared => some { link with derived_key := p.hkdfSha256 shared link.link_id }

/-- `rns_link_initiator_init`, with the private keys that it draws. -/
def initiatorInit (destination : Identity) (x_private s_private : Octets 32)
    (mtu : ℕ) (timeout now : ℚ) : Option Link :=
  if timeout ≤ 0 ∨ signallingEncode mtu modeAes256Cbc = none then none
  else
    some
      { role := .initiator
        state := .pending
        request_time := now
        deadline := now + timeout
        rtt := 0
        activated_at := 0
        mtu
        mode := modeAes256Cbc
        link_id := zero 16
        private_key := x_private
        public_key := p.x25519Public x_private
        signing_private := s_private
        signing_public := p.ed25519Public s_private
        peer_public := zero 32
        peer_signing_public := zero 32
        derived_key := zero 64
        remote_identity := destination }

/-- `rns_link_build_request_payload`. -/
def buildRequestPayload : Option (List UInt8) :=
  if link.role ≠ .initiator ∨ link.state ≠ .pending then none
  else
    match signallingEncode link.mtu link.mode with
    | none => none
    | some signalling => some (link.public_key.bytes ++ link.signing_public.bytes ++ signalling)

/-- `rns_link_initiator_set_request_packet`: the link with its id, when the packet carries its
request. -/
def initiatorSetRequestPacket (raw : List UInt8) : Option Link :=
  if link.role ≠ .initiator ∨ link.state ≠ .pending then none
  else
    match Packet.decode raw, buildRequestPayload link with
    | some packet, some expected =>
      if packet.data.length ≠ 67 ∨ packet.data ≠ expected then none
      else
        match linkIdFromRequestPacket p.toCrypto raw with
        | none => none
        | some link_id => some { link with link_id }
    | _, _ => none

/-- The MTU and the mode of a request, which has none when it carries only keys. -/
def requestSignalling (data : List UInt8) : Option (ℕ × UInt8) :=
  if data.length = 67 then signallingDecode (data.drop 64) else some (Reticulum.mtu, modeAes256Cbc)

/-- `rns_link_responder_accept`, with the private key that it draws. The MTU that it grants is at
most its own. -/
def responderAccept (identity : LocalIdentity) (private_key : Octets 32)
    (raw : List UInt8) (timeout now : ℚ) : Option Link :=
  match identity.signing_private, Packet.decode raw with
  | some signing_private, some packet =>
    if timeout ≤ 0 ∨ packet.packet_type ≠ 2 ∨
        (packet.data.length ≠ 64 ∧ packet.data.length ≠ 67) then none
    else
      match requestSignalling packet.data, linkIdFromRequestPacket p.toCrypto raw with
      | some (mtu, mode), some link_id =>
        derive p
          { role := .responder
            state := .handshake
            request_time := now
            deadline := now + timeout
            rtt := 0
            activated_at := 0
            mtu := if mtu > Reticulum.mtu then Reticulum.mtu else mtu
            mode
            link_id
            private_key
            public_key := p.x25519Public private_key
            signing_private
            signing_public := identity.signing_public
            peer_public := ofList 32 packet.data
            peer_signing_public := ofList 32 (packet.data.drop 32)
            derived_key := zero 64
            remote_identity := ⟨zero 32, zero 32, zero 16⟩ }
      | _, _ => none
  | _, _ => none

/-- The message that a link proof signs. -/
def proofMessage (link_id : Octets 16) (public_key signing_public : Octets 32)
    (signalling : List UInt8) : List UInt8 :=
  link_id.bytes ++ public_key.bytes ++ signing_public.bytes ++ signalling

/-- `rns_link_build_proof`. -/
def buildProof : Option (List UInt8) :=
  if link.role ≠ .responder ∨ link.state ≠ .handshake then none
  else
    match signallingEncode link.mtu link.mode with
    | none => none
    | some signalling =>
      let signature := p.ed25519Sign link.signing_private
        (proofMessage link.link_id link.public_key link.signing_public signalling)
      some (signature.bytes ++ link.public_key.bytes ++ signalling)

/-- `rns_link_initiator_accept_proof`: whether the proof is accepted, and the link. A proof that is
refused for its signature leaves its key in the link. -/
def initiatorAcceptProof (proof : List UInt8) (now : ℚ) : Bool × Link :=
  if proof.length ≠ 99 ∨ link.role ≠ .initiator ∨ link.state ≠ .pending then (false, link)
  else
    match signallingDecode (proof.drop 96) with
    | none => (false, link)
    | some (mtu, mode) =>
      if mode ≠ link.mode then (false, link)
      else
        let link := { link with
          peer_public := ofList 32 (proof.drop 64)
          peer_signing_public := link.remote_identity.signing_public }
        let message := proofMessage link.link_id link.peer_public link.peer_signing_public
          (proof.drop 96)
        if !identityVerify p.toCrypto link.remote_identity message (ofList 64 proof) then
          (false, link)
        else
          match derive p link with
          | none => (false, link)
          | some link =>
            (true, { link with
              rtt := now - link.request_time
              mtu
              state := .active
              activated_at := now })

/-- `encode_double`. -/
def encodeDouble (value : ℚ) : List UInt8 := 0xcb :: beEncode 8 (p.doubleBits value)

/-- `decode_double`. -/
def decodeDouble (input : List UInt8) : Option ℚ :=
  if input.getD 0 0 ≠ 0xcb then none
  else
    match p.doubleValue (beDecode (input.drop 1)) with
    | none => none
    | some value => if value ≥ 0 then some value else none

/-- `rns_link_build_rtt_confirm`. -/
def buildRttConfirm (random : Octets 16) (capacity : ℕ) : Option (List UInt8) :=
  if link.role ≠ .initiator ∨ link.state ≠ .active then none
  else tokenEncrypt p link.derived_key random (encodeDouble p link.rtt) capacity

/-- `rns_link_responder_accept_rtt`: whether the confirmation is accepted, and the link, which a
wrong one closes. -/
def responderAcceptRtt (token : List UInt8) (now : ℚ) : Bool × Link :=
  let closed := (false, { link with state := .closed })
  if link.role ≠ .responder ∨ link.state ≠ .handshake then closed
  else
    match tokenDecrypt p link.derived_key token 16 with
    | none => closed
    | some packed =>
      if packed.length ≠ 9 then closed
      else
        match decodeDouble p packed with
        | none => closed
        | some reported =>
          let measured := now - link.request_time
          (true, { link with
            rtt := if measured > reported then measured else reported
            state := .active
            activated_at := now })

/-- `rns_link_check_timeout`. -/
def checkTimeout (now : ℚ) : Bool × Link :=
  if (link.state = .pending ∨ link.state = .handshake) ∧ now ≥ link.deadline then
    (true, { link with state := .closed })
  else (false, link)

/-- `rns_link_encrypt`. -/
def encrypt (random : Octets 16) (plaintext : List UInt8) (capacity : ℕ) : Option (List UInt8) :=
  if link.state = .active then tokenEncrypt p link.derived_key random plaintext capacity else none

/-- `rns_link_decrypt`. -/
def decrypt (token : List UInt8) (capacity : ℕ) : Option (List UInt8) :=
  if link.state = .active ∨ link.state = .handshake then
    tokenDecrypt p link.derived_key token capacity
  else none

end

end Link

end Reticulum
