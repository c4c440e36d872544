import Reticulum.Runtime.Resources

/-!
# Packets, polls and calls of a link of the runtime

The rest of `rns_runtime_link` of `src/runtime/runtime.c`: `link_ingress`, what `rns_runtime_poll`
does for a link, and the calls of the application.
-/

namespace Reticulum.Runtime.RuntimeLink

open Octets
open Resource (Bzip2)

/-! ## Requests that come in -/

section

variable (crypto : Crypto) (p : Primitives) (bzip2 : Option Bzip2) (env : Environment)
  (s : RuntimeLink) (now : ℚ)

/-- `request_handler_authorized`. -/
def requestHandlerAuthorized (handler : RequestHandler) : Bool :=
  match handler.access with
  | .allowAll => true
  | .allowNone => false
  | .allowIdentified => s.remote_identified
  | .allowList =>
    s.remote_identified && decide (truncatedHash (crypto.sha256
      (s.protocol.remote_identity.encryption_public.bytes ++
        s.protocol.remote_identity.signing_public.bytes)) ∈ handler.allow_identity_hashes)

/-- `handle_request`. A response that does not fit a packet goes out as a resource. -/
def handleRequest (raw plaintext : List UInt8) : RuntimeLink :=
  match Request.decode p plaintext with
  | .error _ => s
  | .ok request =>
    match s.handlers.find? (fun handler => handler.path_hash = request.path_hash) with
    | none => s
    | some handler =>
      if !s.requestHandlerAuthorized p.toCrypto handler then s
      else if !env.memory s.asked then s.ask
      else
        let remote := if s.remote_identified then some s.protocol.remote_identity else none
        let (status, response) := env.respond s.ask.asked
        let s := s.ask.ask.tell (.handled handler request remote)
        if status ≠ .ok ∨ response.length = 0 ∨ response.length > handler.max_response_size then s
        else
          match Packet.hash p.toCrypto raw with
          | none => s
          | some hash =>
            if !env.memory s.asked then s.ask
            else
              match Request.encodeResponse (truncatedHash hash) response (response.length + 19) with
              | .error _ => s.ask
              | .ok wire =>
                match s.ask.linkSendPlain p env Context.response wire with
                | (.error .overflow, s) =>
                  (s.linkSendResource p bzip2 env wire
                    ⟨s.options.timeout_seconds, true, true, some (truncatedHash hash)⟩ true).2
                | (_, s) => s

/-! ## Packets -/

/-- A packet that the link is open for but not active, and proofs of resources. -/
def protocolIngress (packet : Packet) : Option RuntimeLink :=
  let close (s : RuntimeLink) (reason : Status) : RuntimeLink :=
    (({ s with protocol := { s.protocol with state := .closed } } : RuntimeLink).failPendingRequests
      reason).linkNotify .closed reason
  if s.protocol.state = .pending ∧ packet.packet_type = 3 ∧ packet.context = Context.proof then
    match s.protocol.initiatorAcceptProof p packet.data (env.clock s.asked) with
    | (false, protocol) => some (close { s.ask with protocol } .crypto)
    | (true, protocol) =>
      let s := { s.ask with protocol }
      match s.protocol.buildRttConfirm p (env.iv s.asked) 128 with
      | none => some (close s.ask .io)
      | some rtt =>
        match s.ask.linkSendWire p.toCrypto env Context.rtt rtt with
        | (.error _, s) => some (close s .io)
        | (.ok _, s) =>
          some (({ s.ask with last_inbound := env.clock s.asked } :
            RuntimeLink).linkUpdateKeepalive.linkNotify .active .ok)
  else if s.protocol.state = .handshake ∧ s.protocol.role = .responder ∧ packet.packet_type = 0 ∧
      packet.context = Context.rtt then
    match s.protocol.responderAcceptRtt p packet.data (env.clock s.asked) with
    | (false, protocol) =>
      some (({ s.ask with protocol }.failPendingRequests .crypto).linkNotify .closed .crypto)
    | (true, protocol) =>
      let s := { s.ask with protocol }
      some (({ s.ask with last_inbound := env.clock s.asked } :
        RuntimeLink).linkUpdateKeepalive.linkNotify .active .ok)
  else if s.protocol.state = .active ∧ packet.packet_type = 3 ∧
      packet.context = Context.resourcePrf then
    some (s.outgoingResourceProof p bzip2 env packet.data)
  else if s.protocol.state ≠ .active ∨ packet.packet_type ≠ 0 then some s
  else none

/-- A keepalive of the peer, which a responder answers when it has been silent itself. -/
def keepaliveIngress (data : List UInt8) : RuntimeLink :=
  let expected : UInt8 := if s.protocol.role = .initiator then 0xfe else 0xff
  if data ≠ [expected] then s
  else
    let s : RuntimeLink := { s.ask with last_inbound := env.clock s.asked }
    if s.protocol.role = .responder ∧ s.last_inbound - s.last_outbound ≥ s.keepalive_seconds then
      (s.linkSendWire crypto env Context.keepalive [0xfe]).2
    else s

/-- An identification of the peer, which counts the first time. -/
def identifyIngress (payload : List UInt8) : RuntimeLink :=
  if s.protocol.role ≠ .responder ∨ payload.length ≠ 128 then s
  else
    let identified := identityFromPublic crypto (ofList 64 payload)
    if !identityVerify crypto identified (s.protocol.link_id.bytes ++ payload.take 64)
        (ofList 64 (payload.drop 64)) then s
    else if s.remote_identified then s
    else
      ({ s with
        protocol := { s.protocol with remote_identity := identified }
        remote_identified := true }).tell (.identified identified)

/-- `rns_runtime_link_prove_current_packet`, for the packet of the callback. -/
def proveCurrentPacket (packet_hash : Octets 32) : RuntimeLink :=
  if s.protocol.state ≠ .active then s
  else
    (s.linkSendProof p.toCrypto env 0 (packet_hash.bytes ++
      (p.ed25519Sign s.protocol.signing_private packet_hash.bytes).bytes)).2

/-- The dispatch of a packet of an active link by its context, on the payload that it carries. -/
def dispatch (raw : List UInt8) (context : UInt8) (link_encrypted : Bool) (payload : List UInt8) :
    RuntimeLink :=
  if context = Context.close then
    ((({ s with protocol := { s.protocol with state := .closed } } :
      RuntimeLink).failPendingRequests .invalidState).failLinkResources .invalidState).linkNotify
        .closed .ok
  else if context = Context.identify then s.identifyIngress p.toCrypto payload
  else if context = Context.request then s.handleRequest p bzip2 env raw payload
  else if context = Context.response then s.handleResponse payload
  else if context = Context.resourceAdv then s.resourceAdvertised p env payload
  else if context = Context.resourceReq then s.outgoingResourceRequest p env payload
  else if context = Context.resourceHmu then s.resourceHashmapUpdate p env payload
  else if context = Context.resource ∧ s.incoming.resource.isSome then
    s.resourcePart p bzip2 env payload
  else if context = Context.resourceIcl then
    if s.incoming.resource.isSome ∧ payload = s.incoming.hash.bytes then
      s.incomingResourceAbort .invalidState
    else s
  else if context = Context.resourceRcl then
    match s.outgoing_resource.bind (fun transfer => s.transfers[transfer]?.map (transfer, ·)) with
    | none => s
    | some (transfer, value) =>
      if payload = value.sender.hash.bytes then
        s.outgoingResourceFinish transfer .rejected .invalidState
      else s
  else if link_encrypted then
    match Packet.hash p.toCrypto raw with
    | none => s
    | some packet_hash =>
      (if context = 0 ∧ s.options.prove_data_packets then s.proveCurrentPacket p env packet_hash
        else s).tell (.packet context payload)
  else s

/-- `link_ingress`, for a packet of the link that came in on its interface or another one. -/
def linkIngress (own_interface : Bool) (raw : List UInt8) : RuntimeLink :=
  match Packet.decode raw with
  | none => s
  | some packet =>
    if packet.destination_hash ≠ s.protocol.link_id then s
    else if !own_interface then
      ({ s with protocol := { s.protocol with state := .closed } } : RuntimeLink).linkNotify .closed
        .protocol
    else
      match s.protocolIngress p bzip2 env packet with
      | some s => s
      | none =>
        if packet.context = Context.keepalive then
          s.keepaliveIngress p.toCrypto env packet.data
        else if packet.context ≠ Context.resource ∧ packet.context ≠ Context.cacheRequest then
          match s.protocol.decrypt p packet.data mtu with
          | none => s.linkNotify .active .crypto
          | some plaintext =>
            ({ s.ask with last_inbound := env.clock s.asked } : RuntimeLink).dispatch p bzip2 env
              raw packet.context true plaintext
        else s.dispatch p bzip2 env raw packet.context false packet.data

/-! ## Polls -/

/-- A receipt of a slot fails when its deadline has passed. -/
def expireSlot (s : RuntimeLink) (slot : Option ℕ) : RuntimeLink :=
  match slot with
  | none => s
  | some receipt =>
    let s := s.touch receipt
    if s.isPending receipt ∧ (s.receipts[receipt]?.map RequestReceipt.deadline).any (now ≥ ·) then
      s.conclude receipt .failed .timeout []
    else s

/-- The requests and the transfer whose deadlines have passed. -/
def pollRequests : RuntimeLink :=
  let s := s.requests.foldl (expireSlot now) s
  match s.outgoing_resource.bind (fun transfer => s.transfers[transfer]?.map (transfer, ·)) with
  | none => s
  | some (transfer, value) =>
    if now ≥ value.deadline then s.outgoingResourceFinish transfer .failed .timeout else s

/-- The resource that comes in: it ends at its deadline, and asks again before. -/
def pollResource : RuntimeLink :=
  if (s.incoming.resource.isSome ∨ s.incoming.assembled.isSome) ∧ s.incoming.deadline > 0 ∧
      now ≥ s.incoming.deadline then s.incomingResourceAbort .timeout
  else if s.incoming.resource.isSome ∧ s.incoming.request_retry_at > 0 ∧
      now ≥ s.incoming.request_retry_at then
    match s.resourceRequestParts p env true with
    | (.ok, s) => s
    | (.timeout, s) => s.incomingResourceAbort .timeout
    | (_, s) => s.incomingResourceAbort .io
  else s

/-- How long the link may hear nothing. -/
def inactivityLimit : ℚ := 2 * s.keepalive_seconds + s.protocol.rtt * 4 + 5

/-- The link itself: it closes when it has heard nothing for too long, and an initiator that has
said nothing for a while sends a keepalive. -/
def pollProtocol : RuntimeLink :=
  let close (s : RuntimeLink) : RuntimeLink :=
    ((s.failPendingRequests .timeout).failLinkResources .timeout).linkNotify .closed .timeout
  match s.protocol.checkTimeout (env.clock s.asked) with
  | (true, protocol) => close { s.ask with protocol }
  | (false, _) =>
    if s.protocol.state = .active ∧ now - s.last_inbound ≥ s.inactivityLimit then
      close { s.ask with protocol := { s.protocol with state := .closed } }
    else if s.protocol.state = .active ∧ now - s.last_outbound ≥ s.keepalive_seconds ∧
        s.protocol.role = .initiator then
      (s.ask.linkSendWire crypto env Context.keepalive [0xff]).2
    else s.ask

/-- What `rns_runtime_poll` does for the link. -/
def poll : RuntimeLink :=
  let now := env.clock s.asked
  ((s.ask.pollRequests now).pollResource p env now).pollProtocol p.toCrypto env now

/-! ## Calls of the application -/

/-- `rns_runtime_link_send`. -/
def linkSend (context : UInt8) (plaintext : List UInt8) : Except Status (Octets 16) × RuntimeLink :=
  if context = Context.keepalive then
    let expected : UInt8 := if s.protocol.role = .initiator then 0xff else 0xfe
    if s.protocol.state ≠ .active ∨ plaintext ≠ [expected] then (.error .invalidArgument, s)
    else s.linkSendWire p.toCrypto env context plaintext
  else s.linkSendPlain p env context plaintext

end

/-- `rns_request_options`. -/
structure RequestOptions where
  timeout_seconds : ℚ
  max_response_size : ℕ
deriving DecidableEq

section

variable (p : Primitives) (env : Environment) (s : RuntimeLink)

/-- `rns_runtime_link_request`: the receipt. -/
def linkRequest (path data : List UInt8)
    (options : RequestOptions) : Except Status ℕ × RuntimeLink :=
  if s.protocol.state ≠ .active then (.error .invalidState, s)
  else
    match s.requests.findIdx? Option.isNone with
    | none => (.error .overflow, s)
    | some slot =>
      match env.wallclock s.asked with
      | none => (.error .invalidState, s.ask)
      | some wallclock =>
        let s := s.ask
        match Request.encode p path wallclock data mtu with
        | .error status => (.error status, s)
        | .ok request =>
          if !env.memory s.asked then (.error .noMemory, s.ask)
          else
            let s := s.ask
            let timeout :=
              if options.timeout_seconds ≤ 0 then max (s.protocol.rtt * 6 + 5) 10
              else options.timeout_seconds
            let deadline := env.clock s.asked + timeout
            match s.ask.linkSendPlain p env Context.request request with
            | (.error status, s) => (.error status, s)
            | (.ok request_id, s) =>
              (.ok s.receipts.length, { s with
                receipts := s.receipts ++ [
                  { state := .pending
                    request_id
                    deadline
                    max_response_size :=
                      if options.max_response_size = 0 then Resource.maxSize
                      else options.max_response_size }]
                requests := s.requests.set slot (some s.receipts.length) })

/-- `rns_request_receipt_cancel`. -/
def requestReceiptCancel (receipt : ℕ) : RuntimeLink :=
  let s := s.touch receipt
  if !s.isPending receipt then s else s.conclude receipt .cancelled .ok []

/-- `rns_request_receipt_destroy`. -/
def requestReceiptDestroy (receipt : ℕ) : RuntimeLink :=
  { s.touch receipt with
    requests := s.requests.map (fun slot => if slot = some receipt then none else slot)
    freed := receipt :: s.freed }

/-- `rns_runtime_resource_transfer_cancel`. -/
def resourceTransferCancel (transfer : ℕ) : RuntimeLink :=
  match s.transfers[transfer]? with
  | none => s
  | some value =>
    if !value.linked then s
    else
      (s.linkSendPlain p env Context.resourceIcl value.sender.hash.bytes).2.outgoingResourceFinish
        transfer .cancelled .ok

/-- `rns_runtime_resource_transfer_destroy`. -/
def resourceTransferDestroy (transfer : ℕ) : RuntimeLink :=
  match s.transfers[transfer]? with
  | none => s
  | some value =>
    if !value.linked then s
    else
      let s :=
        if s.protocol.state = .active then
          (s.linkSendPlain p env Context.resourceIcl value.sender.hash.bytes).2
        else s
      { s.setTransfer transfer { value with linked := false } with
        outgoing_resource :=
          if s.outgoing_resource = some transfer then none else s.outgoing_resource }

/-- `rns_runtime_link_destroy`, which frees the receipts that are registered. -/
def linkDestroy : RuntimeLink :=
  let s :=
    if s.protocol.state = .active then
      (s.linkSend p env Context.close s.protocol.link_id.bytes).2
    else s
  let s := { s with protocol := { s.protocol with state := .closed } }
  let s := ((s.failLinkResources .invalidState).failPendingRequests .invalidState).linkNotify
    .closed .ok
  { s with
    requests := s.requests.map (fun _ => none)
    freed := s.requests.reduceOption ++ s.freed }

end

/-- A link as `rns_runtime_link_open` and `accept_inbound_link` leave it. -/
def opened (protocol : Link) (options : LinkOptions) (handlers : List RequestHandler) :
    RuntimeLink :=
  { protocol
    options
    handlers
    last_inbound := protocol.request_time
    last_outbound := protocol.request_time
    keepalive_seconds := if protocol.role = .responder then 360 else 0
    requests := List.replicate maxRequests none
    receipts := []
    freed := []
    incoming := Incoming.empty
    outgoing_resource := none
    transfers := []
    remote_identified := protocol.role = .initiator
    taken := 0
    dangling := false
    asked := 0
    log := [] }

/-! ## Runs -/

/-- What happens to a link between its opening and its destruction. -/
inductive Call
  | ingress (own_interface : Bool) (raw : List UInt8)
  | poll
  | send (context : UInt8) (plaintext : List UInt8)
  | request (path data : List UInt8) (options : RequestOptions)
  | cancelReceipt (receipt : ℕ)
  | destroyReceipt (receipt : ℕ)
  | sendResource (data : List UInt8) (options : ResourceOptions)
  | cancelTransfer (transfer : ℕ)
  | destroyTransfer (transfer : ℕ)
deriving DecidableEq

/-- The link after a call. -/
def step (p : Primitives) (bzip2 : Option Bzip2) (env : Environment) (s : RuntimeLink) :
    Call → RuntimeLink
  | .ingress own_interface raw => s.linkIngress p bzip2 env own_interface raw
  | .poll => s.poll p env
  | .send context plaintext => (s.linkSend p env context plaintext).2
  | .request path data options => (s.linkRequest p env path data options).2
  | .cancelReceipt receipt => s.requestReceiptCancel receipt
  | .destroyReceipt receipt => s.requestReceiptDestroy receipt
  | .sendResource data options => (s.linkSendResource p bzip2 env data options false).2
  | .cancelTransfer transfer => s.resourceTransferCancel p env transfer
  | .destroyTransfer transfer => s.resourceTransferDestroy p env transfer

/-- The application uses a receipt that it was given and has not destroyed. -/
def Owned (s : RuntimeLink) : Call → Prop
  | .cancelReceipt receipt => receipt < s.receipts.length ∧ receipt ∉ s.freed
  | .destroyReceipt receipt => receipt < s.receipts.length ∧ receipt ∉ s.freed
  | _ => True

instance (s : RuntimeLink) : (call : Call) → Decidable (s.Owned call)
  | .cancelReceipt receipt | .destroyReceipt receipt =>
    inferInstanceAs (Decidable (receipt < s.receipts.length ∧ receipt ∉ s.freed))
  | .ingress .. | .poll | .send .. | .request .. | .sendResource .. | .cancelTransfer _
  | .destroyTransfer _ => inferInstanceAs (Decidable True)

/-- Surroundings in which everything succeeds and no time passes. -/
def plainEnvironment : Environment :=
  { clock := fun _ => 0
    send := fun _ => .ok
    memory := fun _ => true
    accept := fun _ => true
    respond := fun _ => (.ok, [])
    iv := fun _ => Octets.zero 16
    draw := fun _ _ => ⟨some (ofList 4 [3]), some (ofList 16 [1])⟩
    wallclock := fun _ => some 0 }

end Reticulum.Runtime.RuntimeLink
