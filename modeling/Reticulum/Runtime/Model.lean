import Reticulum.Link.Request
import Reticulum.Resource.Sender

/-!
# A link of the runtime

`rns_runtime_link` of `src/runtime/runtime.c`: a link with what the runtime keeps for it, which are
the requests that were made over it, the resource that comes in, the resource that goes out, and the
times that keep it alive. Here are the types, what sends packets, and the receipts of requests; the
resources are in `Runtime.Resources`, and what packets, polls and the application run is in
`Runtime.Calls`.

What the code asks of its surroundings is in `Environment`, one answer for every question in the
order in which they are asked: the clock, whether a packet could be sent, whether there is memory,
what a callback answers, and what is random. What the code tells is in `log`. Callbacks do not call
back.

A receipt lives in memory until it is destroyed, and pointers to it are its place in `receipts`;
`dangling` says that one was used after that.
-/

namespace Reticulum.Runtime

open Resource (Bzip2 Advertisement)
open ResourceSender (Draw)

/-! ## Contexts -/

namespace Context

/-- `RNS_LINK_CONTEXT_RESOURCE`. -/
def resource : UInt8 := 0x01

/-- `RNS_LINK_CONTEXT_RESOURCE_ADV`. -/
def resourceAdv : UInt8 := 0x02

/-- `RNS_LINK_CONTEXT_RESOURCE_REQ`. -/
def resourceReq : UInt8 := 0x03

/-- `RNS_LINK_CONTEXT_RESOURCE_HMU`. -/
def resourceHmu : UInt8 := 0x04

/-- `RNS_LINK_CONTEXT_RESOURCE_PRF`. -/
def resourcePrf : UInt8 := 0x05

/-- `RNS_LINK_CONTEXT_RESOURCE_ICL`. -/
def resourceIcl : UInt8 := 0x06

/-- `RNS_LINK_CONTEXT_RESOURCE_RCL`. -/
def resourceRcl : UInt8 := 0x07

/-- `RNS_LINK_CONTEXT_CACHE_REQUEST`. -/
def cacheRequest : UInt8 := 0x08

/-- `RNS_LINK_CONTEXT_REQUEST`. -/
def request : UInt8 := 0x09

/-- `RNS_LINK_CONTEXT_RESPONSE`. -/
def response : UInt8 := 0x0a

/-- `RNS_LINK_CONTEXT_KEEPALIVE`. -/
def keepalive : UInt8 := 0xfa

/-- `RNS_LINK_CONTEXT_IDENTIFY`. -/
def identify : UInt8 := 0xfb

/-- `RNS_LINK_CONTEXT_CLOSE`. -/
def close : UInt8 := 0xfc

/-- `RNS_LINK_CONTEXT_RTT`. -/
def rtt : UInt8 := 0xfe

/-- `RNS_LINK_CONTEXT_PROOF`. -/
def proof : UInt8 := 0xff

end Context

/-! ## Types -/

/-- `RNS_RUNTIME_MAX_REQUESTS`. -/
def maxRequests : ℕ := 8

/-- `rns_request_state`. -/
inductive RequestState
  | pending
  | complete
  | failed
  | cancelled
deriving DecidableEq, Repr

/-- `rns_request_receipt`, with the option that is read after the request is made. -/
structure RequestReceipt where
  state : RequestState
  request_id : Octets 16
  deadline : ℚ
  max_response_size : ℕ
deriving DecidableEq

/-- `rns_runtime_resource_state`. -/
inductive TransferState
  | advertised
  | transferring
  | complete
  | rejected
  | failed
  | cancelled
deriving DecidableEq, Repr

/-- `rns_runtime_resource_transfer`. -/
structure ResourceTransfer where
  /-- Whether `link` is there, which it is until the transfer ends. -/
  linked : Bool
  sender : ResourceSender
  timeout_seconds : ℚ
  state : TransferState
  deadline : ℚ
  sent_parts : ℕ
  sent_segment_bytes : ℕ
  /-- The parts of the segment for which `part_sent` is true. -/
  part_sent : List ℕ
  runtime_owned : Bool
deriving DecidableEq

/-- `rns_request_access`. -/
inductive RequestAccess
  | allowNone
  | allowAll
  | allowIdentified
  | allowList
deriving DecidableEq, Repr

/-- `rns_runtime_request_handler`. -/
structure RequestHandler where
  path_hash : Octets 16
  access : RequestAccess
  allow_identity_hashes : List (Octets 16)
  max_response_size : ℕ
deriving DecidableEq

/-- `rns_runtime_link_options`, without the callbacks, which are all there. -/
structure LinkOptions where
  timeout_seconds : ℚ
  prove_data_packets : Bool
  max_incoming_resource_size : ℕ
  resource_part_airtime_seconds : ℚ
deriving DecidableEq

/-- The fields of `rns_runtime_link` for the resource that comes in. -/
structure Incoming where
  resource : Option Resource
  /-- `resource_assembled`, its first `resource_assembled_length` bytes. -/
  assembled : Option (List UInt8)
  assembled_capacity : ℕ
  next_segment : ℕ
  total_segments : ℕ
  /-- `resource_receipt`. -/
  receipt : Option ℕ
  application : Bool
  deadline : ℚ
  request_retry_at : ℚ
  hash : Octets 32
  original_hash : Octets 32
  /-- How many resources were taken on for the application before this one. -/
  serial : ℕ
deriving DecidableEq

/-- What `resource_release` leaves. -/
def Incoming.empty : Incoming :=
  { resource := none
    assembled := none
    assembled_capacity := 0
    next_segment := 0
    total_segments := 0
    receipt := none
    application := false
    deadline := 0
    request_retry_at := 0
    hash := Octets.zero 32
    original_hash := Octets.zero 32
    serial := 0 }

/-- What the runtime tells: a packet that it sent, or a callback that it called. -/
inductive Observation
  | sent (raw : List UInt8)
  | state (state : LinkState) (reason : Status)
  | request (receipt : ℕ) (state : RequestState) (status : Status) (response : List UInt8)
  /-- `resource_receive_callback`, for the resource that was taken on as the given one, or for one
  that was not taken on. -/
  | received (serial : Option ℕ) (hash : Octets 32) (status : Status) (data : List UInt8)
  | transfer (transfer : ℕ) (state : TransferState) (status : Status) (sent_parts total_parts : ℕ)
  | packet (context : UInt8) (data : List UInt8)
  | identified (identity : Identity)
  /-- The callback of a request handler, with the identity that it is given. -/
  | handled (handler : RequestHandler) (request : Request.View) (remote : Option Identity)
deriving DecidableEq

/-- What the code asks of its surroundings, by the number of the question. -/
structure Environment where
  /-- `runtime_clock`. -/
  clock : ℕ → ℚ
  /-- `send_internal`. -/
  send : ℕ → Status
  /-- Whether an allocation succeeds. -/
  memory : ℕ → Bool
  /-- `resource_accept_callback`. -/
  accept : ℕ → Bool
  /-- The callback of a request handler, with its response. -/
  respond : ℕ → Status × List UInt8
  /-- The initialisation vector of a token. -/
  iv : ℕ → Octets 16
  /-- What the attempts to prepare a segment draw. -/
  draw : ℕ → ℕ → Draw
  /-- `rns_hal_wallclock_ms`, in seconds. -/
  wallclock : ℕ → Option ℚ

/-- `rns_runtime_link`. -/
structure RuntimeLink where
  protocol : Link
  options : LinkOptions
  /-- The request handlers of `inbound_destination`. -/
  handlers : List RequestHandler
  last_inbound : ℚ
  last_outbound : ℚ
  keepalive_seconds : ℚ
  requests : List (Option ℕ)
  /-- Every receipt that was made for the link. -/
  receipts : List RequestReceipt
  /-- The receipts that were destroyed. -/
  freed : List ℕ
  incoming : Incoming
  outgoing_resource : Option ℕ
  /-- Every transfer that was made for the link. -/
  transfers : List ResourceTransfer
  remote_identified : Bool
  /-- How many resources were taken on for the application. -/
  taken : ℕ
  /-- Whether a receipt was used after it was destroyed. -/
  dangling : Bool
  /-- How many questions were asked. -/
  asked : ℕ
  log : List Observation
deriving DecidableEq

namespace RuntimeLink

/-! ## Questions and answers -/

section

variable (s : RuntimeLink) (receipt : ℕ)

/-- One question more was asked. -/
def ask : RuntimeLink := { s with asked := s.asked + 1 }

/-- Something is told. -/
def tell (observation : Observation) : RuntimeLink :=
  { s with log := s.log ++ [observation] }

/-- `link_notify`. -/
def linkNotify (state : LinkState) (reason : Status) : RuntimeLink :=
  s.tell (.state state reason)

/-- `link_update_keepalive`. -/
def linkUpdateKeepalive : RuntimeLink :=
  let scaled := s.protocol.rtt * (360 / (7 / 4))
  let scaled := if scaled < 5 then 5 else scaled
  { s with keepalive_seconds := if scaled > 360 then 360 else scaled }

/-! ## Sending -/

/-- The packet of the type for the peer of the link. -/
def packet (packet_type context : UInt8) (data : List UInt8) : Packet :=
  { header_type := 0
    context_flag := 0
    transport_type := 0
    destination_type := 3
    packet_type
    hops := 0
    transport_id := Octets.zero 16
    destination_hash := s.protocol.link_id
    context
    data }

/-- A packet is sent: its truncated hash, or why it could not be sent. -/
def sendPacket (crypto : Crypto) (env : Environment) (s : RuntimeLink)
    (packet_type context : UInt8) (data : List UInt8) : Except Status (Octets 16) × RuntimeLink :=
  match (s.packet packet_type context data).encode mtu with
  | none => (.error .overflow, s)
  | some raw =>
    match Packet.hash crypto raw with
    | none => (.error .crypto, s)
    | some hash =>
      let status := env.send s.asked
      let s := s.ask
      if status = .ok then
        (.ok (truncatedHash hash), { s.ask.tell (.sent raw) with
          last_outbound := env.clock s.asked })
      else (.error status, s)

/-- `link_send_wire`. -/
def linkSendWire (crypto : Crypto) (env : Environment) (s : RuntimeLink) (context : UInt8)
    (data : List UInt8) : Except Status (Octets 16) × RuntimeLink :=
  s.sendPacket crypto env 0 context data

/-- `link_send_proof`. -/
def linkSendProof (crypto : Crypto) (env : Environment) (s : RuntimeLink) (context : UInt8)
    (data : List UInt8) : Except Status (Octets 16) × RuntimeLink :=
  s.sendPacket crypto env 3 context data

/-- `link_send_plain`. -/
def linkSendPlain (p : Primitives) (env : Environment) (s : RuntimeLink) (context : UInt8)
    (plaintext : List UInt8) : Except Status (Octets 16) × RuntimeLink :=
  if s.protocol.state ≠ .active then (.error .invalidState, s)
  else
    match s.protocol.encrypt p (env.iv s.asked) plaintext mtu with
    | none => (.error .overflow, s.ask)
    | some encrypted => s.ask.linkSendWire p.toCrypto env context encrypted

/-! ## Request receipts -/

/-- A receipt is read or written. -/
def touch : RuntimeLink :=
  if receipt ∈ s.freed then { s with dangling := true } else s

/-- The state of a receipt. -/
def requestState : Option RequestState :=
  s.receipts[receipt]?.map RequestReceipt.state

/-- Whether the receipt is pending. -/
def isPending : Bool := s.requestState receipt = some .pending

/-- The receipt gets its last state, and `request_notify` tells it. -/
def conclude (state : RequestState) (status : Status) (response : List UInt8) : RuntimeLink :=
  { s with
    receipts := s.receipts.modify receipt (fun r => { r with state })
    log := s.log ++ [.request receipt state status response] }

/-- The receipt of a slot fails if it is pending. -/
def failSlot (reason : Status) (s : RuntimeLink) (slot : Option ℕ) : RuntimeLink :=
  match slot with
  | none => s
  | some receipt =>
    let s := s.touch receipt
    if s.isPending receipt then s.conclude receipt .failed reason [] else s

/-- `fail_pending_requests`. -/
def failPendingRequests (reason : Status) : RuntimeLink :=
  s.requests.foldl (failSlot reason) s

/-- The first receipt of the slots that is pending and has the id. -/
def scanReceipts (request_id : Octets 16) : List (Option ℕ) → RuntimeLink →
    Option ℕ × RuntimeLink
  | [], s => (none, s)
  | none :: slots, s => scanReceipts request_id slots s
  | some receipt :: slots, s =>
    let s := s.touch receipt
    if s.isPending receipt ∧
        s.receipts[receipt]?.map RequestReceipt.request_id = some request_id then
      (some receipt, s)
    else scanReceipts request_id slots s

/-- `find_receipt`. -/
def findReceipt (request_id : Octets 16) : Option ℕ × RuntimeLink :=
  scanReceipts request_id s.requests s

/-- The largest response that the request of a receipt takes. -/
def maxResponseSize : ℕ :=
  (s.receipts[receipt]?.map RequestReceipt.max_response_size).getD 0

/-- `handle_response`. -/
def handleResponse (plaintext : List UInt8) : RuntimeLink :=
  match Request.decodeResponse plaintext with
  | .error _ => s
  | .ok response =>
    match s.findReceipt response.request_id with
    | (none, s) => s
    | (some receipt, s) =>
      if response.response.length > s.maxResponseSize receipt then
        s.conclude receipt .failed .overflow []
      else s.conclude receipt .complete .ok response.response

end

end RuntimeLink

end Reticulum.Runtime
