import Reticulum.Crypto

/-!
# Packets

The packet codec and the packet hash of `src/packet/packet.c`, the link id of a request packet of
`src/link/link.c`, and the announce body of `src/announce/announce.c`. A packet is a flags byte, the
hop count, one or two addresses, a context byte and at least one byte of data.
-/

namespace Reticulum

open Octets
open Bytes (beDecode)

/-- `RNS_MTU`. -/
def mtu : ℕ := 500

/-- `rns_packet`. `data_length` is the length of `data`. -/
structure Packet where
  header_type : UInt8
  context_flag : UInt8
  transport_type : UInt8
  destination_type : UInt8
  packet_type : UInt8
  hops : UInt8
  transport_id : Octets 16
  destination_hash : Octets 16
  context : UInt8
  data : List UInt8
deriving DecidableEq

namespace Packet

/-- `rns_packet_encode`. -/
def encode (packet : Packet) (capacity : ℕ) : Option (List UInt8) :=
  if packet.header_type > 1 ∨ packet.context_flag > 1 ∨ packet.transport_type > 1 ∨
      packet.destination_type > 3 ∨ packet.packet_type > 3 then none
  else
    let address_length := if packet.header_type = 1 then 32 else 16
    let total := 2 + address_length + 1 + packet.data.length
    if total > mtu ∨ capacity < total then none
    else
      some ([(packet.header_type <<< 6) ||| (packet.context_flag <<< 5) |||
          (packet.transport_type <<< 4) ||| (packet.destination_type <<< 2) ||| packet.packet_type,
          packet.hops] ++
        (if packet.header_type = 1 then packet.transport_id.bytes else []) ++
        packet.destination_hash.bytes ++ [packet.context] ++ packet.data)

/-- The context offset that `layout` finds for a packet of the given flags and length. -/
def contextOffset (flags : UInt8) (raw_length : ℕ) : Option ℕ :=
  let offset := if (flags >>> 6) &&& 1 = 1 then 34 else 18
  if raw_length ≤ offset ∨ raw_length > mtu then none else some offset

/-- `rns_packet_decode`. -/
def decode (raw : List UInt8) : Option Packet :=
  if raw.length < 2 then none
  else
    let flags := raw.getD 0 0
    match contextOffset flags raw.length with
    | none => none
    | some context_offset =>
      if context_offset + 1 = raw.length then none
      else
        let header_type := (flags >>> 6) &&& 1
        some
          { header_type
            context_flag := (flags >>> 5) &&& 1
            transport_type := (flags >>> 4) &&& 1
            destination_type := (flags >>> 2) &&& 3
            packet_type := flags &&& 3
            hops := raw.getD 1 0
            transport_id :=
              if header_type = 1 then ofList 16 (raw.drop 2) else Octets.zero 16
            destination_hash :=
              if header_type = 1 then ofList 16 (raw.drop 18)
              else ofList 16 (raw.drop 2)
            context := raw.getD context_offset 0
            data := raw.drop (context_offset + 1) }

/-- `rns_packet_hash`: the digest of the low flags and of what follows the hops and the transport
id. -/
def hash (crypto : Crypto) (raw : List UInt8) : Option (Octets 32) :=
  if raw.length < 2 then none
  else
    let flags := raw.getD 0 0
    match contextOffset flags raw.length with
    | none => none
    | some _ =>
      let source_offset := if (flags >>> 6) &&& 1 = 1 then 18 else 2
      some (crypto.sha256 ((flags &&& 0x0f) :: raw.drop source_offset))

end Packet

/-- `RNS_LINK_REQUEST_BYTES`. -/
def linkRequestBytes : ℕ := 67

/-- `RNS_LINK_PROOF_BYTES`. -/
def linkProofBytes : ℕ := 99

/-- `rns_link_id_from_request_packet`: the truncated digest of the packet without the hops, the
transport id and the signalling bytes. -/
def linkIdFromRequestPacket (crypto : Crypto) (raw : List UInt8) : Option (Octets 16) :=
  match Packet.decode raw with
  | none => none
  | some packet =>
    if packet.packet_type ≠ 2 ∨ (packet.data.length ≠ 64 ∧ packet.data.length ≠ 67) then none
    else
      let source_offset := if packet.header_type = 1 then 18 else 2
      let n := (raw.length - packet.data.length - source_offset) + 64
      some (truncatedHash
        (crypto.sha256 ((raw.getD 0 0 &&& 0x0f) :: (raw.drop source_offset).take n)))

/-- `rns_announce`, its fields read out of the body. -/
structure Announce where
  public_key : Octets 64
  name_hash : Octets 10
  random_blob : Octets 10
  ratchet : Option (Octets 32)
  signature : Octets 64
  app_data : List UInt8
  timestamp : ℕ
deriving DecidableEq

namespace Announce

/-- The offset of the signature in an announce body, with or without a ratchet. -/
def signatureOffset (context_flag : UInt8) : ℕ := if context_flag ≠ 0 then 116 else 84

/-- `rns_announce_parse`. -/
def parse (body : List UInt8) (context_flag : UInt8) : Option Announce :=
  if context_flag > 1 ∨ body.length > 465 ∨ (context_flag = 0 ∧ body.length < 148) ∨
      (context_flag ≠ 0 ∧ body.length < 180) then none
  else
    some
      { public_key := ofList 64 body
        name_hash := ofList 10 (body.drop 64)
        random_blob := ofList 10 (body.drop 74)
        ratchet := if context_flag ≠ 0 then some (ofList 32 (body.drop 84)) else none
        signature := ofList 64 (body.drop (signatureOffset context_flag))
        app_data := body.drop (signatureOffset context_flag + 64)
        timestamp := beDecode ((body.drop 79).take 5) }

/-- `rns_announce_verify`: the destination is derived from the announced key, and the signature
covers the destination, the body before the signature, and the application data. -/
def verify (crypto : Crypto) (destination_hash : Octets 16) (body : List UInt8)
    (context_flag : UInt8) : Bool :=
  match parse body context_flag with
  | none => false
  | some announce =>
    let identity := identityFromPublic crypto announce.public_key
    let digest := crypto.sha256 (announce.name_hash.bytes ++ identity.hash.bytes)
    decide (truncatedHash digest = destination_hash) &&
      identityVerify crypto identity
        (destination_hash.bytes ++ body.take (signatureOffset context_flag) ++ announce.app_data)
        announce.signature

end Announce

end Reticulum
