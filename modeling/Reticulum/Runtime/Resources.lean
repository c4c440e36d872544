import Reticulum.Runtime.Model

/-!
# Resources over a link of the runtime

The resources of `src/runtime/runtime.c`. One resource comes in at a time, for the application or as
the response of a request, and its segments come one after the other: between two of them there is
no resource, only what is assembled so far. One resource goes out at a time, and each of its
segments is advertised when the proof of the one before has come.
-/

namespace Reticulum.Runtime.RuntimeLink

open Resource (Bzip2 Advertisement)

/-! ## Resources that come in -/

section

variable (p : Primitives) (bzip2 : Option Bzip2) (env : Environment) (s : RuntimeLink)
  (transfer : ℕ) (value : ResourceTransfer) (advertisement : Advertisement) (receipt : Option ℕ)
  (application : Bool) (resource : Resource)

/-- `resource_release`. -/
def resourceRelease : RuntimeLink := { s with incoming := Incoming.empty }

/-- `resource_release_segment`. -/
def resourceReleaseSegment : RuntimeLink :=
  { s with incoming := { s.incoming with resource := none, hash := Octets.zero 32 } }

/-- `incoming_resource_abort`. -/
def incomingResourceAbort (status : Status) : RuntimeLink :=
  let incoming := s.incoming
  let hash := if incoming.resource.isSome then incoming.hash else incoming.original_hash
  let s := s.resourceRelease
  let fallback (s : RuntimeLink) : RuntimeLink :=
    if incoming.application then s.tell (.received (some incoming.serial) hash status []) else s
  match incoming.receipt with
  | none => fallback s
  | some receipt =>
    let s := s.touch receipt
    if s.isPending receipt then s.conclude receipt .failed status [] else fallback s

/-- `resource_retry_delay`. -/
def resourceRetryDelay : ℚ :=
  Resource.retryTimeout s.protocol.rtt s.options.resource_part_airtime_seconds
    ((s.incoming.resource.map Resource.outstandingParts).getD 0)
    ((s.incoming.resource.map Resource.retries_used).getD 0)

/-- `resource_refresh_deadlines`. -/
def resourceRefreshDeadlines (now : ℚ) : RuntimeLink :=
  let retry_delay := s.resourceRetryDelay
  let inactivity := if s.options.timeout_seconds > 0 then s.options.timeout_seconds else 30
  let inactivity := if inactivity < retry_delay + 1 then retry_delay + 1 else inactivity
  { s with incoming := { s.incoming with
    request_retry_at := now + retry_delay
    deadline := now + inactivity } }

/-- `resource_request_parts`: the next request, or with `retry` the last one again. -/
def resourceRequestParts (retry : Bool) : Status × RuntimeLink :=
  match s.incoming.resource with
  | none => (.invalidArgument, s)
  | some resource =>
    let (result, resource) :=
      if retry then resource.buildRetryRequest mtu else resource.buildRequest mtu
    let s := { s with incoming := { s.incoming with resource := some resource } }
    match result with
    | .error status => (if status = .invalidState ∧ !retry then .ok else status, s)
    | .ok body =>
      match s.linkSendPlain p env Context.resourceReq body with
      | (.error status, s) => (status, s)
      | (.ok _, s) => (.ok, s.ask.resourceRefreshDeadlines (env.clock s.asked))

/-- A rejection of an advertised resource. -/
def rejectResource (hash : Octets 32) : RuntimeLink :=
  (s.linkSendPlain p env Context.resourceRcl hash.bytes).2

/-- Whether the link is between two segments of a resource. -/
def continuation : Bool :=
  s.incoming.assembled.isSome && s.incoming.resource.isNone

/-- Whether an advertisement is not the next segment of the resource that is being received. -/
def wrongSegment : Bool :=
  advertisement.segment_index ≠ s.incoming.next_segment ||
    advertisement.total_segments ≠ s.incoming.total_segments ||
    advertisement.original_hash ≠ s.incoming.original_hash ||
    advertisement.data_size ≠ s.incoming.assembled_capacity ||
    s.incoming.receipt.any (fun receipt => advertisement.request_id = none ||
      advertisement.request_id ≠ s.receipts[receipt]?.map RequestReceipt.request_id)

/-- The receipt and the use of an advertised resource: those of the resource that is being received,
or of a pending request, or of the application. -/
def resourceOwner : (Option ℕ × Bool) × RuntimeLink :=
  if s.continuation then
    ((s.incoming.receipt, s.incoming.application),
      (s.incoming.receipt.map s.touch).getD s)
  else
    let (receipt, s) :=
      match advertisement.request_id with
      | none => (none, s)
      | some request_id => s.findReceipt request_id
    ((receipt, receipt.isNone && !advertisement.is_response), s)

/-- `rns_resource_accept` of an advertisement, which needs memory too. -/
def acceptResource : Except Status Resource :=
  let maximum := if application then s.options.max_incoming_resource_size
    else (receipt.map s.maxResponseSize).getD 0
  let maximum := if maximum = 0 then Resource.maxSize else maximum
  match Resource.accept advertisement maximum with
  | .error status => .error status
  | .ok resource => if env.memory s.asked then .ok resource else .error .noMemory

/-- An advertisement that could not be accepted. -/
def acceptFailed (status : Status) : RuntimeLink :=
  let serial := if s.continuation then some s.incoming.serial else none
  let s := { s with incoming := { s.incoming with resource := none } }
  let s := s.rejectResource p env advertisement.hash
  match receipt with
  | some receipt => s.conclude receipt .failed status []
  | none =>
    if application then s.tell (.received serial advertisement.hash status []) else s

/-- The link gets the resource of an advertisement. -/
def attachResource : RuntimeLink :=
  let first := !s.continuation
  { s with
    incoming := { s.incoming with
      resource := some resource
      receipt
      application
      hash := advertisement.hash
      serial := if first then s.taken else s.incoming.serial }
    taken := if first && application then s.taken + 1 else s.taken }

/-- What is being received: with the first segment, nothing of what the advertisement says. -/
def beginSegment (first : Bool) : RuntimeLink :=
  let incoming :=
    if first then
      { s.incoming with
        assembled := some []
        assembled_capacity := advertisement.data_size
        total_segments := advertisement.total_segments
        original_hash := advertisement.original_hash }
    else s.incoming
  { s with incoming := { incoming with next_segment := advertisement.segment_index } }

/-- An advertisement that was accepted: the first segment of a resource, or the next one. -/
def takeResource : RuntimeLink :=
  let first := !s.continuation
  let s := s.attachResource advertisement receipt application resource
  if first && !env.memory s.asked then s.ask.incomingResourceAbort .noMemory
  else
    match (s.ask.beginSegment advertisement first).resourceRequestParts p env false with
    | (.ok, s) => s
    | (_, s) => s.incomingResourceAbort .io

/-- `resource_advertised`. -/
def resourceAdvertised (plaintext : List UInt8) : RuntimeLink :=
  match Resource.advertisementParse plaintext with
  | .error _ => s
  | .ok advertisement =>
    let continuation := s.continuation
    if !continuation && advertisement.segment_index ≠ 1 then
      s.rejectResource p env advertisement.hash
    else
      let ((receipt, application), s) := s.resourceOwner advertisement
      if continuation && s.wrongSegment advertisement then
        (s.rejectResource p env advertisement.hash).incomingResourceAbort .protocol
      else if !application && receipt.isNone then s.rejectResource p env advertisement.hash
      else if s.incoming.resource.isSome then
        if s.incoming.hash = advertisement.hash then (s.resourceRequestParts p env false).2
        else s.rejectResource p env advertisement.hash
      else if !continuation && application && !env.accept s.asked then
        s.ask.rejectResource p env advertisement.hash
      else
        let s := s.ask
        match s.acceptResource env advertisement receipt application with
        | .error status => s.ask.acceptFailed p env advertisement receipt application status
        | .ok resource => s.ask.takeResource p env advertisement receipt application resource

/-- The proof of a resource that was assembled is sent. -/
def sendResourceProof : RuntimeLink :=
  match resource.buildProof with
  | .error _ => s
  | .ok proof => (s.linkSendProof p.toCrypto env Context.resourcePrf proof).2

/-- A request ends with the response that came as a resource. -/
def concludeResponse (receipt : ℕ) (assembled : List UInt8) : RuntimeLink :=
  match Request.decodeResponse assembled with
  | .ok response => s.conclude receipt .complete .ok response.response
  | .error _ => s.conclude receipt .failed .protocol []

/-- The end of `resource_complete`, with the segment in what is assembled. -/
def finishSegment (assembled : List UInt8) : RuntimeLink :=
  let s : RuntimeLink := { s with incoming := { s.incoming with assembled := some assembled } }
  if s.incoming.next_segment < s.incoming.total_segments then
    let s := { s.resourceReleaseSegment with incoming := { s.resourceReleaseSegment.incoming with
      next_segment := s.incoming.next_segment + 1 } }
    s.ask.resourceRefreshDeadlines (env.clock s.asked)
  else if assembled.length ≠ s.incoming.assembled_capacity then s.incomingResourceAbort .protocol
  else if s.incoming.application then
    (s.tell (.received (some s.incoming.serial) s.incoming.hash .ok assembled)).resourceRelease
  else
    match s.incoming.receipt with
    | none => s.resourceRelease
    | some receipt => ((s.touch receipt).concludeResponse receipt assembled).resourceRelease

/-- `resource_complete`, of the resource and what is assembled so far. -/
def resourceComplete (assembled : List UInt8) : RuntimeLink :=
  if !env.memory s.asked then s.ask.incomingResourceAbort .noMemory
  else
    let s := s.ask
    match resource.assemble p bzip2 (some s.protocol)
        (s.incoming.assembled_capacity - assembled.length) with
    | (.error status, _) => s.incomingResourceAbort status
    | (.ok bytes, resource) =>
      (s.sendResourceProof p env resource).finishSegment env (assembled ++ bytes)

/-- The part of `resource_part` for a request that is still pending, or the application. -/
def takePart (part : List UInt8) : RuntimeLink :=
  let received_before := resource.received
  let (status, resource) := resource.receivePart p.toCrypto part
  -- A part that is new is copied.
  if status ≠ .ok ∨ (resource.received ≠ received_before ∧ !env.memory s.asked) then s.ask
  else
    let s := s.ask
    let s := { s.ask with
      incoming := { s.incoming with resource := some resource }
      last_inbound := env.clock s.asked }
    if resource.received = received_before then s
    else
      let s := s.resourceRefreshDeadlines s.last_inbound
      if resource.partsComplete then
        s.resourceComplete p bzip2 env resource (s.incoming.assembled.getD [])
      else
        match s.resourceRequestParts p env false with
        | (.ok, s) => s
        | (_, s) => s.incomingResourceAbort .io

/-- `resource_part`. -/
def resourcePart (part : List UInt8) : RuntimeLink :=
  match s.incoming.resource with
  | none => s
  | some resource =>
    match s.incoming.receipt with
    | none => s.takePart p bzip2 env resource part
    | some receipt =>
      let s := s.touch receipt
      if !s.isPending receipt then s.resourceRelease
      else s.takePart p bzip2 env resource part

/-- `resource_hashmap_update`. -/
def resourceHashmapUpdate (plaintext : List UInt8) : RuntimeLink :=
  match s.incoming.resource with
  | none => s
  | some resource =>
    if !resource.waiting then s
    else
      match resource.applyHashmapUpdate plaintext with
      | (.ok, resource) =>
        let now := env.clock s.asked
        let s := { s.ask with incoming := { s.incoming with resource := some resource } }
        match (s.resourceRefreshDeadlines now).resourceRequestParts p env false with
        | (.ok, s) => s
        | (_, s) => s.incomingResourceAbort .io
      | _ => s.incomingResourceAbort .protocol

/-! ## Resources that go out -/

/-- A transfer changes. -/
def setTransfer : RuntimeLink :=
  { s with transfers := s.transfers.set transfer value }

/-- `outgoing_resource_finish`. -/
def outgoingResourceFinish (state : TransferState) (status : Status) : RuntimeLink :=
  match s.transfers[transfer]? with
  | none => s
  | some value =>
    if !value.linked then s
    else
      let s := { s with
        outgoing_resource :=
          if s.outgoing_resource = some transfer then none else s.outgoing_resource }
      (s.setTransfer transfer { value with linked := false, state }).tell
        (.transfer transfer state status value.sent_parts value.sender.total_data_parts)

/-- The deadline of a transfer that moves on. -/
def transferDeadline (now : ℚ) : ℚ :=
  now + (if value.timeout_seconds > 0 then value.timeout_seconds else 30)

/-- The loop of `outgoing_resource_request` over the parts that were asked for: whether all were
sent, and the transfer. -/
def sendParts (crypto : Crypto) (env : Environment) : List ℕ → ResourceTransfer → RuntimeLink →
    Bool × ResourceTransfer × RuntimeLink
  | [], value, s => (true, value, s)
  | index :: indexes, value, s =>
    match value.sender.part index with
    | .error _ => (false, value, s)
    | .ok part =>
      match s.linkSendWire crypto env Context.resource part with
      | (.error _, s) => (false, value, s)
      | (.ok _, s) =>
        let value :=
          if index ∈ value.part_sent then value
          else { value with
            part_sent := index :: value.part_sent
            sent_parts := value.sent_parts + 1
            sent_segment_bytes := value.sent_segment_bytes + part.length }
        sendParts crypto env indexes value s

/-- The end of `outgoing_resource_request`, after the parts: the page that was asked for, and the
progress. -/
def sendUpdate (request : List UInt8) (count : ℕ) : RuntimeLink :=
  let progress (s : RuntimeLink) : RuntimeLink :=
    if count = 0 then s
    else
      let value :=
        if value.state = .advertised then { value with state := .transferring } else value
      (s.setTransfer transfer value).tell
        (.transfer transfer value.state .ok value.sent_parts value.sender.total_data_parts)
  match value.sender.hashmapUpdate request mtu with
  | .ok update =>
    match s.linkSendPlain p env Context.resourceHmu update with
    | (.error _, s) => s.outgoingResourceFinish transfer .failed .io
    | (.ok _, s) => progress s
  | .error .notFound => progress s
  | .error status => s.outgoingResourceFinish transfer .failed status

/-- `outgoing_resource_request`. -/
def outgoingResourceRequest (request : List UInt8) : RuntimeLink :=
  match s.outgoing_resource.bind (fun transfer => s.transfers[transfer]?.map (transfer, ·)) with
  | none => s
  | some (transfer, value) =>
    match value.sender.requestedParts request Resource.maxParts with
    | .error _ => s
    | .ok indexes =>
      let value := { value with deadline := transferDeadline value (env.clock s.asked) }
      match sendParts p.toCrypto env indexes value s.ask with
      | (false, value, s) => (s.setTransfer transfer value).outgoingResourceFinish transfer .failed .io
      | (true, value, s) =>
        (s.setTransfer transfer value).sendUpdate p env transfer value request indexes.length

/-- The sender goes on to the next segment and advertises it. -/
def nextSegment : RuntimeLink :=
  match value.sender.advanceSegment p bzip2 s.protocol (env.draw s.asked) with
  | .error _ => s.ask.outgoingResourceFinish transfer .failed .crypto
  | .ok sender =>
    let value := { value with sender, part_sent := [], sent_segment_bytes := 0 }
    let s := s.ask.setTransfer transfer value
    match sender.advertisement mtu with
    | .error _ => s.outgoingResourceFinish transfer .failed .io
    | .ok advertisement =>
      match s.linkSendPlain p env Context.resourceAdv advertisement with
      | (.error _, s) => s.outgoingResourceFinish transfer .failed .io
      | (.ok _, s) =>
        s.ask.setTransfer transfer { value with
          state := .advertised
          deadline := transferDeadline value (env.clock s.asked) }

/-- `outgoing_resource_proof`. -/
def outgoingResourceProof (proof : List UInt8) : RuntimeLink :=
  match s.outgoing_resource.bind (fun transfer => s.transfers[transfer]?.map (transfer, ·)) with
  | none => s
  | some (transfer, value) =>
    if value.sender.validateProof p.toCrypto proof ≠ .ok then s
    else if value.sender.segment_index < value.sender.total_segments then
      s.nextSegment p bzip2 env transfer value
    else s.outgoingResourceFinish transfer .complete .ok

/-- `fail_link_resources`. -/
def failLinkResources (status : Status) : RuntimeLink :=
  let s :=
    if s.incoming.resource.isSome ∨ s.incoming.assembled.isSome then s.incomingResourceAbort status
    else s
  match s.outgoing_resource with
  | none => s
  | some transfer => s.outgoingResourceFinish transfer .failed status

end

/-- `rns_runtime_resource_options`, with nothing for a request id that is not given. -/
structure ResourceOptions where
  timeout_seconds : ℚ
  auto_compress : Bool
  is_response : Bool
  request_id : Option (Octets 16)
deriving DecidableEq

/-- `rns_runtime_link_send_resource`: the transfer. -/
def linkSendResource (p : Primitives) (bzip2 : Option Bzip2) (env : Environment) (s : RuntimeLink)
    (data : List UInt8) (options : ResourceOptions) (runtime_owned : Bool) :
    Except Status ℕ × RuntimeLink :=
  if s.protocol.state ≠ .active then (.error .invalidState, s)
  else if s.outgoing_resource.isSome then (.error .overflow, s)
  else if !env.memory s.asked then (.error .noMemory, s.ask)
  else
    let s := s.ask
    match ResourceSender.create p bzip2 s.protocol data
        ⟨options.auto_compress, options.is_response, options.request_id⟩ (env.draw s.asked) with
    | .error status => (.error status, s.ask)
    | .ok sender =>
      let s := s.ask
      match sender.advertisement mtu with
      | .error status => (.error status, s)
      | .ok advertisement =>
        let value : ResourceTransfer :=
          { linked := true
            sender
            timeout_seconds := options.timeout_seconds
            state := .advertised
            deadline := env.clock s.asked +
              (if options.timeout_seconds ≤ 0 then 30 else options.timeout_seconds)
            sent_parts := 0
            sent_segment_bytes := 0
            part_sent := []
            runtime_owned }
        match s.ask.linkSendPlain p env Context.resourceAdv advertisement with
        | (.error status, s) => (.error status, s)
        | (.ok _, s) =>
          (.ok s.transfers.length, { s with
            transfers := s.transfers ++ [value]
            outgoing_resource := some s.transfers.length })

end Reticulum.Runtime.RuntimeLink
