import Reticulum.Packet
import Reticulum.Transport.Routes

/-!
# The node

`rns_node` of `src/transport/node.c`: a transport with local destinations, and `rns_node_ingress`,
which decides for a raw packet whether it is dropped, delivered, forwarded, rebroadcast or answered.

The clock is read at several places of one call. `clock k` is the reading at the `k`-th place on a
packet's way: `0` when it comes in, `1` when its hash is considered, and so on. The output buffer is
its capacity, `none` for a null pointer; what is written to it is part of the result.
-/

namespace Reticulum.Transport

/-- `rns_node`. -/
structure Node where
  transport : State
  transport_id : Octets 16
  path_request_destination : Octets 16
  max_hops : UInt8
  local_destinations : List (Octets 16)
  local_destination_capacity : ℕ
deriving DecidableEq

/-- `rns_node_config`. -/
structure NodeConfig where
  transport : Config
  transport_id : Octets 16
  path_request_destination : Octets 16
  max_hops : UInt8
  local_destination_capacity : ℕ

/-- `rns_node_action`. -/
inductive NodeAction
  | drop
  | deliver
  | forward
  | rebroadcast
  | pathResponse
deriving DecidableEq, Repr

/-- `rns_node_reason`. -/
inductive NodeReason
  | none
  | malformed
  | duplicate
  | maxHops
  | invalidAnnounce
  | staleAnnounce
  | notForUs
  | noPath
  | noReversePath
  | wrongReverseInterface
  | noLink
  | linkNotValidated
  | wrongLinkInterface
  | wrongLinkHops
  | invalidLinkProof
  | badProof
  | badPathRequest
  | outputTooSmall
deriving DecidableEq, Repr

/-- What `rns_node_result` says of a verified announce. -/
structure VerifiedAnnounce where
  path_update : PathResult
  identity : Identity
  app_data : List UInt8
  timebase : ℕ
  ratchet : Option (Octets 32)
deriving DecidableEq

/-- `rns_node_result`, with the bytes written to the output buffer. The path request and the
announce are there when `has_path_request` and `has_verified_announce` are set. -/
structure NodeResult where
  action : NodeAction
  reason : NodeReason
  packet_hash : Octets 32
  destination_hash : Octets 16
  next_hop : Octets 16
  hops : UInt8
  output : List UInt8
  path_request : Option PathRequest
  verified_announce : Option VerifiedAnnounce
  received_interface_id : UInt64
  forward_interface_id : UInt64
  received_at : Option ℚ
  transport_transaction : Transaction
deriving DecidableEq

/-- The result that `rns_node_ingress` starts from. -/
def NodeResult.blank (received_interface_id : UInt64) (received_at : Option ℚ) : NodeResult :=
  { action := .drop
    reason := .none
    packet_hash := Octets.zero 32
    destination_hash := Octets.zero 16
    next_hop := Octets.zero 16
    hops := 0
    output := []
    path_request := none
    verified_announce := none
    received_interface_id
    forward_interface_id := 0
    received_at
    transport_transaction := .none }

/-- The result once the packet is decoded. -/
def NodeResult.decoded (packet : Packet) (packet_hash : Octets 32) (received_interface_id : UInt64)
    (received_at : Option ℚ) : NodeResult :=
  { NodeResult.blank received_interface_id received_at with
    packet_hash
    destination_hash := packet.destination_hash
    hops := packet.hops }

namespace Node

/-- `rns_node_init`. -/
def init (config : NodeConfig) : Option Node :=
  if config.max_hops = 0 ∨ config.local_destination_capacity = 0 ∨
      config.local_destination_capacity > (2^64 - 1) / 16 then none
  else
    match Transport.init config.transport with
    | none => none
    | some transport =>
      some { transport
             transport_id := config.transport_id
             path_request_destination := config.path_request_destination
             max_hops := config.max_hops
             local_destinations := []
             local_destination_capacity := config.local_destination_capacity }

section

variable (crypto : Crypto) (node : Node) (packet : Packet) (received_interface_id : UInt64)
  (output : Option ℕ) (clock : ℕ → Option ℚ) (result : NodeResult)

/-- `local_destination`. -/
def localDestination (destination : Octets 16) : Bool :=
  decide (destination ∈ node.local_destinations)

/-- `rns_node_register_destination`. -/
def registerDestination (destination_hash : Octets 16) : Bool × Node :=
  if node.localDestination destination_hash then (true, node)
  else if node.local_destinations.length = node.local_destination_capacity then (false, node)
  else
    (true, { node with local_destinations := node.local_destinations ++ [destination_hash] })

/-- `rns_node_unregister_destination`: the last destination takes the place of the one removed. -/
def unregisterDestination (destination_hash : Octets 16) : Bool × Node :=
  match node.local_destinations.findIdx? (· = destination_hash) with
  | none => (false, node)
  | some i =>
    let last := node.local_destinations.getLastD destination_hash
    (true, { node with local_destinations := (node.local_destinations.set i last).dropLast })

/-- `drop`. -/
def drop (result : NodeResult) (reason : NodeReason) : NodeResult :=
  { result with action := .drop, reason }

/-- `encode_forward`: the result with the encoded packet, or without room for it. -/
def encodeForward : Except NodeResult NodeResult :=
  match output with
  | none => .error (drop { result with output := [] } .outputTooSmall)
  | some capacity =>
    match packet.encode capacity with
    | none => .error (drop { result with output := [] } .outputTooSmall)
    | some bytes => .ok { result with output := bytes, hops := packet.hops }

/-- The encoding into a buffer of `RNS_MTU` bytes that is copied to the output buffer later. -/
def encodeBuffered : Option (List UInt8) :=
  match output, packet.encode mtu with
  | some capacity, some bytes => if capacity < bytes.length then none else some bytes
  | _, _ => none

/-- `path_has_random_blob`. -/
def pathHasRandomBlob (path : Option (ℕ × PathEntry)) (random_blob : Octets 10) : Bool :=
  match path with
  | none => false
  | some (_, entry) =>
    decide (entry.random_blobs.length ≤ maxRandomBlobs) && decide (random_blob ∈ entry.random_blobs)

/-- The part of `handle_announce` after the announce was accepted as new or as a better copy. -/
def admitAnnounce (announce : Announce)
    (new_packet_hash : Bool) (received_interface_id : UInt64) (interface_gravity : Int32)
    (output : Option ℕ) (clock : ℕ → Option ℚ) (result : NodeResult) : NodeResult × Node :=
  let next_hop := if packet.header_type = 1 then packet.transport_id else packet.destination_hash
  match considerAnnounce node.transport (clock 3)
      { destination_hash := packet.destination_hash
        next_hop
        interface_id := received_interface_id
        interface_gravity
        hops := packet.hops + 1
        random_blob := announce.random_blob
        packet_hash := result.packet_hash } with
  | (.rejected, transport) =>
    (drop result (if new_packet_hash then .staleAnnounce else .duplicate), { node with transport })
  | (update, transport) =>
    match setPathIdentity transport (clock 4) packet.destination_hash announce.public_key with
    | (false, transport) => (drop result .invalidAnnounce, { node with transport })
    | (true, transport) =>
      let result := { result with
        verified_announce := some
          { path_update := update
            identity := identityFromPublic crypto announce.public_key
            app_data := announce.app_data
            timebase := announce.timestamp
            ratchet := announce.ratchet } }
      let forwarded := { packet with
        header_type := 1, transport_type := 1, hops := packet.hops + 1
        transport_id := node.transport_id }
      match encodeForward forwarded output result with
      | .error result => (result, { node with transport })
      | .ok result => ({ result with action := .rebroadcast }, { node with transport })

/-- `handle_announce`. -/
def handleAnnounce (interface_gravity : Int32) (output : Option ℕ)
    (clock : ℕ → Option ℚ) (result : NodeResult) : NodeResult × Node :=
  match Announce.parse packet.data packet.context_flag with
  | none => (drop result .invalidAnnounce, node)
  | some announce =>
    if !Announce.verify crypto packet.destination_hash packet.data packet.context_flag then
      (drop result .invalidAnnounce, node)
    else
      match acceptPacketHash node.transport (clock 1) result.packet_hash with
      | (true, transport) =>
        admitAnnounce crypto { node with transport } packet announce true received_interface_id
          interface_gravity output clock result
      | (false, transport) =>
        -- A copy of a known announce may still replace an unresponsive or lighter path.
        match lookup transport (clock 2) packet.destination_hash with
        | (none, transport) => (drop result .duplicate, { node with transport })
        | (some (i, current), transport) =>
          if !pathHasRandomBlob (some (i, current)) announce.random_blob ||
              (!current.unresponsive && decide (interface_gravity ≤ current.interface_gravity)) then
            (drop result .duplicate, { node with transport })
          else
            admitAnnounce crypto { node with transport } packet announce false
              received_interface_id interface_gravity output clock result

/-- `handle_path_request`. -/
def handlePathRequest : NodeResult × Node :=
  match if packet.context ≠ 0 then none else pathRequestParse packet.data with
  | none => (drop result .badPathRequest, node)
  | some request =>
    let answer := { result with path_request := some request, action := .pathResponse }
    if node.localDestination request.destination_hash then (answer, node)
    else
      match lookup node.transport (clock 2) request.destination_hash with
      | (none, transport) => (drop result .noPath, { node with transport })
      | (some _, transport) => (answer, { node with transport })

/-- `link_reason`. -/
def linkReason : LinkRouteResult → NodeReason
  | .missing => .noLink
  | .wrongInterface => .wrongLinkInterface
  | .wrongHops => .wrongLinkHops
  | .notValidated => .linkNotValidated
  | .invalidProof => .invalidLinkProof
  | .matched _ => .none

/-- `link_request_proof` of `handle_link_packet`. -/
def linkRequestProof : Bool :=
  decide (packet.packet_type = 3) && decide (packet.context = 0xff)

/-- The route of `handle_link_packet`: a link request proof validates the link, any other packet
uses it. -/
def linkRoute (transport : State) (packet : Packet) (received_interface_id : UInt64) (clock : ℕ →
    Option ℚ) : LinkRouteResult × State × Transaction :=
  if linkRequestProof packet then
    acceptLinkProofTransaction crypto transport (clock 1) (clock 2) packet.destination_hash
      packet.data received_interface_id (packet.hops + 1)
  else
    routeLinkTransaction transport (clock 1) (clock 2) packet.destination_hash
      received_interface_id (packet.hops + 1)

/-- `handle_link_packet`. -/
def handleLinkPacket : NodeResult × Node :=
  if linkRequestProof packet && decide (packet.data.length ≠ linkProofBytes) then
    (drop result .invalidLinkProof, node)
  else
    match encodeBuffered { packet with hops := packet.hops + 1 } output with
    | none => (drop result .outputTooSmall, node)
    | some encoded =>
      match linkRoute crypto node.transport packet received_interface_id clock with
      | (.matched forward_interface_id, transport, transport_transaction) =>
        ({ result with
            output := encoded
            hops := packet.hops + 1
            forward_interface_id
            transport_transaction
            action := .forward }, { node with transport })
      | (other, transport, transport_transaction) =>
        (drop { result with transport_transaction } (linkReason other), { node with transport })

/-- `handle_ordinary_proof`. -/
def handleOrdinaryProof : NodeResult × Node :=
  if packet.header_type ≠ 0 ∨ packet.context ≠ 0 ∨
      (packet.data.length ≠ 64 ∧ packet.data.length ≠ 96) then (drop result .badProof, node)
  else
    let forwarded_hops := packet.hops + 1
    match encodeBuffered { packet with hops := forwarded_hops } output with
    | none => (drop result .outputTooSmall, node)
    | some encoded =>
      match acceptPacketHash node.transport (clock 1) result.packet_hash with
      | (false, transport) => (drop result .duplicate, { node with transport })
      | (true, transport) =>
        match consumeReverse transport (clock 2) packet.destination_hash received_interface_id with
        | (.missing, transport) => (drop result .noReversePath, { node with transport })
        | (.wrongInterface, transport) =>
          (drop result .wrongReverseInterface, { node with transport })
        | (.matched forward_interface_id, transport) =>
          ({ result with
              output := encoded
              hops := forwarded_hops
              forward_interface_id
              action := .forward }, { node with transport })

/-- The packet that `handle_routed` forwards along a path. -/
def routedPacket (path : PathEntry) : Packet :=
  if path.hops ≤ 1 then
    { packet with
      hops := packet.hops + 1, header_type := 0, transport_type := 0
      transport_id := Octets.zero 16 }
  else
    { packet with
      hops := packet.hops + 1, header_type := 1, transport_type := 1
      transport_id := path.next_hop }

/-- The transaction of `handle_routed`: a link request enters the link table, any other packet the
reverse table. -/
def recordRouted (transport : State) (packet : Packet) (path : PathEntry) (received_interface_id :
    UInt64) (clock : ℕ → Option ℚ) (result : NodeResult) : Option (State × Transaction) :=
  if packet.packet_type = 2 then
    match linkIdFromRequestPacket crypto result.output with
    | none => none
    | some link_id =>
      recordLinkRequestTransaction transport (clock 3) link_id path received_interface_id
        (packet.hops + 1)
  else
    recordReverseTransaction transport (clock 3) result.packet_hash received_interface_id
      path.interface_id

/-- `handle_routed`. -/
def handleRouted : NodeResult × Node :=
  match lookup node.transport (clock 2) packet.destination_hash with
  | (none, transport) => (drop result .noPath, { node with transport })
  | (some (_, path), transport) =>
    if packet.packet_type = 2 ∧
        (packet.data.length ≠ linkRequestBytes ∨ path.identity_public_key = none) then
      (drop result .noPath, { node with transport })
    else
      match encodeForward (routedPacket packet path) output result with
      | .error result => (result, { node with transport })
      | .ok result =>
        let result := { result with
          forward_interface_id := path.interface_id, next_hop := path.next_hop }
        match recordRouted crypto transport packet path received_interface_id clock result with
        | none =>
          (drop { result with output := [], forward_interface_id := 0 } .noPath,
            { node with transport })
        | some (transport, transport_transaction) =>
          ({ result with transport_transaction, action := .forward }, { node with transport })

/-- The end of `rns_node_ingress`, for a packet that the node handles for the network: a path
request or a packet to route, unless it is a duplicate. -/
def handleNetwork : NodeResult × Node :=
  match acceptPacketHash node.transport (clock 1) result.packet_hash with
  | (false, transport) => (drop result .duplicate, { node with transport })
  | (true, transport) =>
    if packet.destination_type = 2 ∧ packet.destination_hash = node.path_request_destination then
      handlePathRequest { node with transport } packet clock result
    else
      handleRouted crypto { node with transport } packet received_interface_id output clock result

/-- `rns_node_ingress`. -/
def ingress (raw : List UInt8) (received_interface_id : UInt64)
    (interface_gravity : Int32) (output : Option ℕ) (clock : ℕ → Option ℚ) : NodeResult × Node :=
  match Packet.decode raw, Packet.hash crypto raw with
  | some packet, some packet_hash =>
    let result := NodeResult.decoded packet packet_hash received_interface_id (clock 0)
    if packet.hops ≥ node.max_hops then (drop result .maxHops, node)
    else if packet.packet_type = 3 ∧ packet.destination_type = 0 then
      handleOrdinaryProof node packet received_interface_id output clock result
    else if packet.packet_type = 1 then
      handleAnnounce crypto node packet received_interface_id interface_gravity output clock result
    else if node.localDestination packet.destination_hash then
      match acceptPacketHash node.transport (clock 1) packet_hash with
      | (false, transport) => (drop result .duplicate, { node with transport })
      | (true, transport) => ({ result with action := .deliver }, { node with transport })
    else if packet.destination_type = 3 then
      handleLinkPacket crypto node packet received_interface_id output clock result
    else if packet.header_type = 1 ∧ packet.transport_id ≠ node.transport_id then
      (drop result .notForUs, node)
    else
      handleNetwork crypto node packet received_interface_id output clock result
  | _, _ => (drop (NodeResult.blank received_interface_id (clock 0)) .malformed, node)

/-- `rns_node_complete_forward`: whether it succeeds, the node, and the result, whose transaction is
spent. -/
def completeForward (sent : Bool) : Bool × Node × NodeResult :=
  if result.action ≠ .forward then (false, node, result)
  else if sent then
    (true, node,
      { result with transport_transaction := transactionCommit result.transport_transaction })
  else
    match transactionRollback node.transport result.transport_transaction with
    | (ok, transport, transport_transaction) =>
      (ok, { node with transport }, { result with transport_transaction })

end

end Node

end Reticulum.Transport
