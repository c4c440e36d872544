import Reticulum.Lxmf.Router
import Reticulum.Packet

/-!
# The router: messages that come in

The receiving half of `src/lxmf/router_send.c`. Six entry points (an opportunistic packet, a packet
and a resource of a link, a message of a propagation node, a paper message and a paper message as a
link text) decrypt what they are given and hand the packed message to `receive_representation`,
which checks it and stores it. A message whose signer is not known yet is stored as unverified, and
`lxmf_router_verify_pending` checks it again later.

Allocation succeeds, and the destination hash of the local identity can be computed.
-/

namespace Reticulum.Lxmf

open Octets

/-- `inbound_message_limit`. -/
def Config.inboundMessageLimit (config : Config) : ℕ :=
  if config.max_incoming_message_size ≠ 0 then config.max_incoming_message_size else maxPacked

namespace Core

section

variable (p : Provider) (config : Config) (env : Environment) (s : Core) (id : Octets 32)
  (m : Message) (packed : List UInt8) (method : DeliveryMethod)

/-- `source_blocked`. -/
def sourceBlocked (source : Octets 16) : Bool × Core :=
  let blocked := env.blocked s.asked source
  (blocked, s.ask.observe (.policy source blocked))

/-- `lxmf_unpack` with the resolver of the router, which is asked once. -/
def unpackInbound : Except Status (Message × Status) × Core :=
  (unpackVerified p.toCrypto (env.resolve s.asked) packed, s.ask)

/-- The ticket check of `validate_inbound_stamp`. -/
def validateTicketStamp (stamp : List UInt8) : Status × Core :=
  match s.tickets with
  | none => (.stamp, s)
  | some tickets =>
    let (now, s) := s.wallTime env
    (tickets.validateInbound p.toCrypto m.source now m.message_id stamp, s)

/-- `validate_inbound_stamp`. -/
def validateInboundStamp : Status × Core :=
  if config.inbound_stamp_cost = 0 then (.ok, s)
  else
    match m.stamp with
    | none => (.stamp, s)
    | some stamp =>
      let (status, s) :=
        if stamp.length = stampLength then s.validateTicketStamp p env m stamp
        else if stamp.length = powStampLength then
          (powStampValidate p m.message_id config.inbound_stamp_cost (ofList 32 stamp), s)
        else (.stamp, s)
      (if status = .format ∨ status = .pending then .stamp else status, s)

/-- The end of `remember_verified_ticket`, for a ticket in the fields of a message of the peer. -/
def rememberTicket (tickets : TicketStore) (peer : Octets 16) (ticket : TicketEntry) : Core :=
  let (now, s) := s.wallTime env
  if ticket.expires_at ≤ now then s
  else
    match tickets.rememberOutbound peer ticket now (env.save s.asked) with
    | (.ok, tickets) => { s.ask with tickets := some tickets }.observe (.learned peer ticket)
    | (_, tickets) => { s.ask with tickets := some tickets }

/-- `remember_verified_ticket`. -/
def rememberVerifiedTicket : Core :=
  match s.tickets, fieldsParseTicket m.fields_msgpack with
  | some tickets, some (some ticket) => s.rememberTicket env tickets m.source ticket
  | _, _ => s

/-- The record that `receive_representation` stores of a message. -/
def received (unverified : Bool) : StoreMessage :=
  { message_id := m.message_id
    destination := m.destination
    source := m.source
    timestamp := m.timestamp
    status := .delivered
    content := m.content
    signature_state := if unverified then .unverified else .verified
    packed
    delivery := { actual_method := method, progress := progressComplete } }

/-- The event of a message that is refused. -/
def refusal (reason : QueueReason) (result : Status) : Event :=
  { message_id := id, method, state := .failed, queue_reason := reason, result, attempt := 0 }

/-- The end of `receive_representation`, for a message that every check admitted. -/
def storeReceived (m : StoreMessage) (method : DeliveryMethod) : (Status × Bool) × Core :=
  match s.write (Store.put env.disk · m) with
  | ((.ok, inserted), s) =>
    let s :=
      if inserted then
        (s.observe (.message m)).reportEvent
          { message_id := m.message_id, method, state := .delivered, queue_reason := .none,
            result := .ok, attempt := 0 }
      else s
    ((.ok, inserted), s.observe (.answered m.packed))
  | ((status, _), s) => ((status, false), s)

/-- The part of `receive_representation` after the block policy admitted the source. -/
def admitRepresentation (exempt_stamp unverified : Bool) : (Status × Bool) × Core :=
  let (status, s) :=
    if exempt_stamp then (Status.ok, s) else s.validateInboundStamp p config env m
  if status ≠ .ok then
    ((status, false), s.reportEvent (refusal m.message_id method .stamp status))
  else
    let s := if unverified then s else s.rememberVerifiedTicket env m
    s.storeReceived env (received m packed method unverified) method

/-- `receive_representation`: the status, and whether the message was new. -/
def receiveRepresentation (exempt_stamp : Bool) : (Status × Bool) × Core :=
  if packed = [] ∨ packed.length > maxPacked then ((.argument, false), s)
  else if packed.length > config.inboundMessageLimit then ((.bounds, false), s)
  else
    match s.unpackInbound p env packed with
    | (.error status, s) => ((status, false), s)
    | (.ok (m, signer), s) =>
      if m.destination ≠ config.local_destination then ((.format, false), s)
      else
        let (blocked, s) := s.sourceBlocked env m.source
        if blocked then
          ((.blocked, false), s.reportEvent (refusal m.message_id method .none .blocked))
        else
          s.admitRepresentation p config env m packed method exempt_stamp
            (signer = .unknownSigner)

/-! ## Packets and resources -/

/-- `router_private_ratchets`, or the copy of the ratchets in `lxmf_router_receive_packet`. -/
def privateRatchets : Status × Core := (env.ratchets s.asked, s.ask)

/-- `rns_identity_decrypt_with_ratchets` into a buffer of the capacity. -/
def decryptInbound (ciphertext : List UInt8) (capacity : ℕ) : Option (List UInt8) × Core :=
  ((env.decrypt s.asked ciphertext).filter fun plaintext => plaintext.length ≤ capacity, s.ask)

/-- `lxmf_opportunistic_packet_unpack_ratchets`: the packed message, and what its check says. -/
def opportunisticUnpack (packet : List UInt8) : Except Status (List UInt8) × Core :=
  match Packet.decode packet with
  | none => (.error .format, s)
  | some outer =>
    if outer.header_type ≠ 0 ∨ outer.destination_type ≠ 0 ∨ outer.packet_type ≠ 0 ∨
        outer.context ≠ 0 ∨ outer.destination_hash ≠ config.local_destination then
      (.error .format, s)
    else
      match s.decryptInbound env outer.data (mtu - 16) with
      | (none, s) => (.error .crypto, s)
      | (some plaintext, s) =>
        let packed := outer.destination_hash.bytes ++ plaintext
        -- A message whose signer is not known is passed on, and every other failure ends here.
        match s.unpackInbound p env packed with
        | (.error status, s) => (.error status, s)
        | (.ok _, s) => (.ok packed, s)

/-- `lxmf_router_receive_packet`. -/
def receivePacket (packet : List UInt8) : Status × Core :=
  if packet = [] ∨ packet.length > mtu then (.argument, s)
  else
    match s.privateRatchets env with
    | (.ok, s) =>
      match s.opportunisticUnpack p config env packet with
      | (.error status, s) => (status, s)
      | (.ok packed, s) =>
        let ((status, _), s) := s.receiveRepresentation p config env packed .opportunistic false
        (status, s)
    | (status, s) => (status, s)

/-- `direct_link_packet_received`. -/
def directLinkPacketReceived (packet_context : UInt8) (plaintext : List UInt8) : Core :=
  if packet_context ≠ 0 then s
  else
    match s.receiveRepresentation p config env plaintext .direct false with
    | ((.ok, _), s) => s.observe (.proved plaintext)
    | (_, s) => s

/-- `direct_resource_received`. -/
def directResourceReceived (status : Reticulum.Status) (data : List UInt8) : Core :=
  if status ≠ .ok ∨ data = [] then s
  else (s.receiveRepresentation p config env data .direct false).2

/-! ## Late verification -/

/-- A retained message that passed the checks of `lxmf_router_verify_pending` is marked. -/
def passPending : Status × Core :=
  let s := s.rememberVerifiedTicket env m
  match s.write (Store.updateSignature env.disk · id .verified) with
  | (.ok, s) => (.ok, s.reportSignature id .verified)
  | (_, s) => (.crypto, s)

/-- A retained message that failed a check of `lxmf_router_verify_pending` is removed. -/
def failPending (status : Status) : Status × Core :=
  match s.write (Store.remove env.disk · id) with
  | (.ok, s) =>
    (.ok, (s.reportSignature id .failed).reportEvent
      (refusal id .unknown (if status = .stamp then .stamp else .none) status))
  | (_, s) => (.crypto, s)

/-- The part of `lxmf_router_verify_pending` for a retained message whose signer is known, with what
unpacking it gave. -/
def settlePending (checked : Except Status Message) : Status × Core :=
  match checked with
  | .error status => s.failPending env id status
  | .ok m =>
    match s.validateInboundStamp p config env m with
    | (.ok, s) => s.passPending env id m
    | (status, s) => s.failPending env id status

/-- A retained message that the policy does not admit any more is removed. -/
def dropPending (result : Status) : Status × Core :=
  match s.write (Store.remove env.disk · id) with
  | (.ok, s) => (.ok, s.reportEvent (refusal id .unknown .none result))
  | (_, s) => (.crypto, s)

/-- One round of `lxmf_router_verify_pending`. -/
def verifyOne : Status × Core :=
  match s.store.readPacked id with
  | .error _ => (.ok, s)
  | .ok retained =>
    if retained.length > config.inboundMessageLimit then s.dropPending env id .bounds
    else
      match s.unpackInbound p env retained with
      | (.error status, s) => s.settlePending p config env id (.error status)
      | (.ok (m, signer), s) =>
        if m.message_id = id then
          let (blocked, s) := s.sourceBlocked env m.source
          if blocked then s.dropPending env id .blocked
          else if signer = .unknownSigner then (.ok, s)
          else s.settlePending p config env id (.ok m)
        else if signer = .unknownSigner then (.ok, s)
        else s.settlePending p config env id (.error .format)

/-- The loop of `lxmf_router_verify_pending`, which ends at the first write that fails. -/
def verifyAll (p : Provider) (config : Config) (env : Environment) :
    Core → List (Octets 32) → Status × Core
  | s, [] => (.ok, s)
  | s, id :: ids =>
    match s.verifyOne p config env id with
    | (.ok, s) => verifyAll p config env s ids
    | (status, s) => (status, s)

/-- `collect_unverified`. -/
def collectUnverified (source : Option (Octets 16)) (e : StoreMessage) : Bool :=
  e.signature_state = .unverified ∧ ∀ peer ∈ source, e.source = peer

/-- The messages that `lxmf_router_verify_pending` collects. -/
def pending (source : Option (Octets 16)) : List StoreMessage :=
  (s.store.index.filter (collectUnverified source)).take maxUnverified

/-- `lxmf_router_verify_pending`. -/
def verifyPending (source : Option (Octets 16)) : Status × Core :=
  s.verifyAll p config env ((s.pending source).map StoreMessage.message_id)

end

end Core

/-! ## Paper messages and propagation nodes -/

/-- `LXMF_PAPER_MAX_SIZE`. -/
def paperMaxSize : ℕ := 2210

/-- `LXMF_ROUTER_MAX_PAPER_TRANSIENTS`. -/
def maxPaperTransients : ℕ := 32

/-- `LXMF_PN_MAX_WIRE`. -/
def pnMaxWire : ℕ := 8 * 1024 * 1024

/-- A paper message that was imported: its digest and the id of the message on it. `packed` is what
was on it, which the router does not keep. -/
structure PaperTransient where
  transient_id : Octets 32
  message_id : Octets 32
  packed : List UInt8
deriving DecidableEq

/-- `lxmf_router_propagation_sync_status_t`, the counts of the messages received, and the first
rejection. -/
structure SyncCounts where
  accepted : ℕ := 0
  duplicates : ℕ := 0
  rejected : ℕ := 0
  first_rejection : Status := .ok
deriving DecidableEq

/-- The receiving half of `lxmf_router_t`. -/
structure Inbox extends Core where
  /-- `paper_transient_ids` and `paper_message_ids`, the part in use. -/
  paper : List PaperTransient := []
  next_paper_transient : ℕ := 0
  sync : SyncCounts := {}
deriving DecidableEq

namespace Inbox

section

variable (p : Provider) (config : Config) (env : Environment) (s : Inbox)

/-- `propagation_sync_reject`. -/
def syncReject (result : Status) : Inbox :=
  { s with sync :=
    { s.sync with
      rejected := s.sync.rejected + 1
      first_rejection := if s.sync.first_rejection = .ok then result else s.sync.first_rejection } }

/-- `propagation_sync_receive`, the message callback of a sync: whether the node is told that the
message was stored. -/
def propagationSyncReceive (transient_id : Octets 32) (message : List UInt8) : Bool × Inbox :=
  if message.length ≤ 16 + 32 + 48 ∨ message.length > pnMaxWire ∨
      p.sha256 message ≠ transient_id ∨
      ofList 16 message ≠ config.local_destination then
    (false, s.syncReject .format)
  else
    match s.toCore.privateRatchets env with
    | (.ok, core) =>
      match core.decryptInbound env (message.drop 16) (message.length - 16) with
      | (none, core) => (false, { s with toCore := core }.syncReject .crypto)
      | (some plaintext, core) =>
        match core.receiveRepresentation p config env (message.take 16 ++ plaintext) .propagated
            false with
        | ((.ok, inserted), core) =>
          let sync :=
            if inserted then { s.sync with accepted := s.sync.accepted + 1 }
            else { s.sync with duplicates := s.sync.duplicates + 1 }
          (true, { s with toCore := core, sync })
        | ((status, _), core) => (false, { s with toCore := core }.syncReject status)
    | (status, core) => (false, { s with toCore := core }.syncReject status)

/-- `paper_transient_seen`. -/
def paperTransientSeen (transient_id : Octets 32) : Option PaperTransient :=
  s.paper.find? fun t => t.transient_id = transient_id

/-- `remember_paper_transient`. -/
def rememberPaperTransient (t : PaperTransient) : Inbox :=
  if s.paper.length < maxPaperTransients then { s with paper := s.paper ++ [t] }
  else
    { s with
      paper := s.paper.set s.next_paper_transient t
      next_paper_transient := (s.next_paper_transient + 1) % maxPaperTransients }

/-- `lxmf_paper_unpack` without a verifier, for a paper message of an admissible length. -/
def paperUnpack (s : Core) (paper : List UInt8) : Except Status (Message × List UInt8) × Core :=
  if ofList 16 paper ≠ config.local_destination then (.error .format, s)
  else
    match s.decryptInbound env (paper.drop 16) (paperMaxSize - 16) with
    | (none, s) => (.error .crypto, s)
    | (some plaintext, s) =>
      let packed := paper.take 16 ++ plaintext
      ((unpack p.toCrypto packed).map (·, packed), s)

/-- `lxmf_router_receive_paper`: the status, and whether the message was there already. -/
def receivePaper (paper : List UInt8) : (Status × Bool) × Inbox :=
  if paper.length ≤ 16 ∨ paper.length > paperMaxSize then ((.bounds, false), s)
  else
    let transient_id := p.sha256 paper
    match s.paperTransientSeen transient_id with
    | some t => ((.ok, true), { s with toCore := s.toCore.observe (.repeated t.packed) })
    | none =>
      match s.toCore.privateRatchets env with
      | (.ok, core) =>
        match paperUnpack p config env core paper with
        | (.error status, core) => ((status, false), { s with toCore := core })
        | (.ok (parsed, packed), core) =>
          match core.receiveRepresentation p config env packed .propagated true with
          | ((.ok, inserted), core) =>
            ((.ok, !inserted), { s with toCore := core }.rememberPaperTransient
              { transient_id, message_id := parsed.message_id, packed })
          | ((status, _), core) => ((status, false), { s with toCore := core })
      | (status, core) => ((status, false), { s with toCore := core })

/-! ### The text form of a paper message -/

/-- `b64_value`. -/
def b64Value (c : UInt8) : Option ℕ :=
  if 65 ≤ c ∧ c ≤ 90 then some (c.toNat - 65)
  else if 97 ≤ c ∧ c ≤ 122 then some (c.toNat - 97 + 26)
  else if 48 ≤ c ∧ c ≤ 57 then some (c.toNat - 48 + 52)
  else if c = 45 then some 62
  else if c = 95 then some 63
  else none

/-- `LXMF_URI_SCHEME`: `lxm://`. -/
def uriScheme : List UInt8 := [108, 120, 109, 58, 47, 47]

/-- `LXMF_URI_MAX_CANONICAL_LENGTH`. -/
def uriMaxCanonicalLength : ℕ := 2953

/-- `LXMF_URI_MAX_INPUT_LENGTH`. -/
def uriMaxInputLength : ℕ := 4096

/-- `tolower` in the C locale. -/
def lower (c : UInt8) : UInt8 := if 65 ≤ c ∧ c ≤ 90 then c + 32 else c

/-- The loop of `lxmf_uri_decode` over the characters that are left: the symbols of the group that
is not full, how many symbols there were, and the bytes so far. -/
def uriDecodeLoop : List UInt8 → List ℕ → ℕ → List UInt8 → Except Status (List ℕ × ℕ × List UInt8)
  | [], group, symbols, out => .ok (group, symbols, out)
  | c :: uri, group, symbols, out =>
    if c = 47 then uriDecodeLoop uri group symbols out
    else
      match b64Value c with
      | none => .error .format
      | some value =>
        if symbols + 1 > uriMaxCanonicalLength - uriScheme.length then .error .bounds
        else
          match group ++ [value] with
          | [a, b, c, d] =>
            if out.length > paperMaxSize - 3 then .error .bounds
            else
              uriDecodeLoop uri [] (symbols + 1)
                (out ++ [UInt8.ofNat (a * 4 + b / 16), UInt8.ofNat (b * 16 + c / 4),
                  UInt8.ofNat (c * 64 + d)])
          | group => uriDecodeLoop uri group (symbols + 1) out

/-- `lxmf_uri_decode` into a buffer of `LXMF_PAPER_MAX_SIZE` bytes. -/
def uriDecode (uri : List UInt8) : Except Status (List UInt8) :=
  if uri.length < uriScheme.length + 2 ∨ uri.length > uriMaxInputLength ∨
      (uri.take uriScheme.length).map lower ≠ uriScheme then .error .format
  else
    match uriDecodeLoop (uri.drop uriScheme.length) [] 0 [] with
    | .error status => .error status
    | .ok (group, symbols, out) =>
      if group.length = 1 ∨ symbols = 0 then .error .format
      else if group.length - 1 > paperMaxSize - out.length then .error .bounds
      else
        let tail := match group with
          | [a, b] => [UInt8.ofNat (a * 4 + b / 16)]
          | [a, b, c] => [UInt8.ofNat (a * 4 + b / 16), UInt8.ofNat (b * 16 + c / 4)]
          | _ => []
        if out ++ tail = [] then .error .format else .ok (out ++ tail)

/-- `lxmf_router_receive_uri`. -/
def receiveUri (uri : List UInt8) : (Status × Bool) × Inbox :=
  match uriDecode uri with
  | .error status => ((status, false), s)
  | .ok paper => s.receivePaper p config env paper

end

/-! ### Runs -/

/-- What can happen to the receiving half. -/
inductive Call
  /-- An opportunistic packet. -/
  | packet (packet : List UInt8)
  /-- A packet of a link. -/
  | linkPacket (packet_context : UInt8) (plaintext : List UInt8)
  /-- A resource of a link. -/
  | resource (status : Reticulum.Status) (data : List UInt8)
  /-- A message of the propagation node, in a sync. -/
  | sync (transient_id : Octets 32) (message : List UInt8)
  /-- A paper message. -/
  | paper (paper : List UInt8)
  /-- A paper message as a text. -/
  | uri (uri : List UInt8)
  /-- `lxmf_router_verify_pending`. -/
  | verify (source : Option (Octets 16))
  /-- The application removes a message. -/
  | remove (id : Octets 32)
  /-- The application issues a ticket to a peer, given the random bytes. -/
  | issue (peer : Octets 16) (random : Option (Octets 16))
  /-- The application clears expired tickets. -/
  | cleanup
deriving DecidableEq

/-- The application issues a ticket. -/
def issue (env : Environment) (s : Core) (peer : Octets 16) (random : Option (Octets 16)) : Core :=
  match s.tickets with
  | none => s
  | some tickets =>
    let (now, s) := s.wallTime env
    { s.ask with tickets := some (tickets.issue peer now random (env.save s.asked)).2 }

/-- The application clears expired tickets. -/
def cleanup (env : Environment) (s : Core) : Core :=
  match s.tickets with
  | none => s
  | some tickets =>
    let (now, s) := s.wallTime env
    { s.ask with tickets := some (tickets.cleanup now (env.save s.asked)).2 }

/-- One call of the receiving half. -/
def step (p : Provider) (config : Config) (env : Environment) (s : Inbox) : Call → Inbox
  | .packet packet => { s with toCore := (s.receivePacket p config env packet).2 }
  | .linkPacket context plaintext =>
    { s with toCore := s.directLinkPacketReceived p config env context plaintext }
  | .resource status data =>
    { s with toCore := s.directResourceReceived p config env status data }
  | .sync transient_id message => (s.propagationSyncReceive p config env transient_id message).2
  | .paper paper => (s.receivePaper p config env paper).2
  | .uri uri => (s.receiveUri p config env uri).2
  | .verify source => { s with toCore := (s.verifyPending p config env source).2 }
  | .remove id => { s with toCore := (s.write (Store.remove env.disk · id)).2 }
  | .issue peer random => { s with toCore := issue env s.toCore peer random }
  | .cleanup => { s with toCore := cleanup env s.toCore }

end Inbox

/-! ### A router to run -/

/-- Primitives to run a router with: a digest is the end of the message, and a signature is the key
before the message. -/
def plainProvider : Provider :=
  { sha256 := fun message => ofList 32 message.reverse
    ed25519Verify := fun key message signature =>
      decide (ofList 64 (key.bytes ++ message) = signature)
    sign := fun message => some (ofList 64 message)
    stampDigest := fun _ _ => none }

/-- The peer that sends the messages. -/
def plainPeer : Identity :=
  { encryption_public := Octets.zero 32
    signing_public := ofList 32 [7]
    hash := Octets.zero 16 }

/-- A router that asks no stamp. -/
def plainConfig : Config := { local_destination := Octets.zero 16 }

/-- Surroundings in which every write succeeds, nobody is blocked, and the peer is known from some
question on. -/
def plainEnvironment (known : ℕ) : Environment :=
  { disk := fun _ => .ok
    save := fun _ => .ok
    wall := fun _ => 1000
    halWall := fun _ => some 1000000
    monotonic := fun n => n
    resolve := fun n _ => if known ≤ n then some plainPeer else none
    blocked := fun _ _ => false
    ratchets := fun _ => .ok
    decrypt := fun _ ciphertext => some ciphertext }

/-- What the peer signs for a message. -/
def plainSignature : Octets 64 :=
  ofList 64 ((ofList 32 [7]).bytes ++ (Octets.zero 16).bytes ++
    (ofList 16 [9]).bytes)

/-- A message of the peer with empty strings and no fields, under a signature. -/
def plainPacked (signature : Octets 64) : List UInt8 :=
  (Octets.zero 16).bytes ++ (ofList 16 [9]).bytes ++ signature.bytes ++
    [0x94, 0xcb, 0, 0, 0, 0, 0, 0, 0, 0, 0xc4, 0, 0xc4, 0, 0x80]

/-- A router without messages. -/
def plainInbox : Inbox := { store := .empty, tickets := none, asked := 0, log := [] }

end Reticulum.Lxmf
