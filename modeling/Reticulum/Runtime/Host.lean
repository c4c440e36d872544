import Reticulum.Base.Slots
import Reticulum.Link.Handshake
import Reticulum.Runtime.Calls
import Reticulum.Transport.Node

/-!
# The runtime with its destinations and links

The part of `rns_runtime` of `src/runtime/runtime.c` that owns destinations, request handlers and
links: the calls that register and remove them, and `ingress`, which gives a packet to the node and
what the node delivers to a link, or takes it as the request for a new one.

Objects that the application holds by a pointer have a number here, which no other object gets. What
one link asks of its surroundings is answered for that link, so that two links may be told different
things. Left out are packet receipts and the announces that answer path requests, which touch
neither the registry nor a link.
-/

namespace Reticulum.Runtime

open Octets Slots
open Reticulum.Transport (Node NodeConfig NodeResult PathEntry)
open Resource (Bzip2)

/-! ## Types -/

/-- `RNS_RUNTIME_MAX_LINKS`. -/
def maxLinks : ℕ := 16

/-- `RNS_RUNTIME_MAX_DESTINATIONS`. -/
def maxDestinations : ℕ := 32

/-- `RNS_RUNTIME_MAX_REQUEST_HANDLERS`. -/
def maxRequestHandlers : ℕ := 16

/-- `RNS_RUNTIME_MAX_REQUEST_ALLOWLIST`. -/
def maxRequestAllowlist : ℕ := 32

/-- `RNS_REQUEST_DEFAULT_MAX_RESPONSE`. -/
def defaultMaxResponse : ℕ := 8 * 1024 * 1024

/-- `RNS_REQUEST_HANDLER_DEFAULT_MAX_RESPONSE`. -/
def handlerDefaultMaxResponse : ℕ := 32 * 1024

/-- `rns_runtime_request_handler` with its number and the path it was registered under. -/
structure RegisteredHandler where
  number : ℕ
  path : List UInt8
  handler : RequestHandler
deriving DecidableEq

/-- `rns_runtime_request_handler_options`, without the callback. -/
structure RequestHandlerOptions where
  access : RequestAccess
  allow_identity_hashes : List (Octets 16)
  max_response_size : ℕ
deriving DecidableEq

/-- `rns_runtime_destination`. -/
structure Destination where
  number : ℕ
  hash : Octets 16
  identity : LocalIdentity
  link_options : LinkOptions
  request_handlers : List (Option RegisteredHandler)
deriving DecidableEq

/-- `rns_runtime_link` in the table of the runtime. -/
structure HostLink where
  number : ℕ
  interface_index : ℕ
  /-- The destination that the link came in for, by its number. -/
  inbound_destination : Option ℕ
  registered : Bool
  link : RuntimeLink
deriving DecidableEq

/-- The id of a link. -/
def HostLink.id (link : HostLink) : Octets 16 := link.link.protocol.link_id

/-- What the runtime reads of an interface when it opens a link. -/
structure Interface where
  id : UInt64
  up : Bool
deriving DecidableEq

/-- `rns_runtime`. -/
structure Host where
  node : Node
  interfaces : List Interface
  /-- `config.enable_transport` or `shared_server`. -/
  transporting : Bool
  plain_destinations : List (Octets 16)
  plain_destination_capacity : ℕ
  destinations : List (Option Destination)
  links : List (Option HostLink)
  /-- How many objects were made. -/
  made : ℕ
  /-- How many questions were asked. -/
  asked : ℕ
deriving DecidableEq

/-- What the runtime asks of its surroundings, by the number of the question. -/
structure HostEnvironment where
  /-- What each link is told. -/
  link : ℕ → Environment
  /-- `runtime_clock`. -/
  clock : ℕ → ℚ
  /-- The readings of the clock of the transport during one call. -/
  transport_clock : ℕ → ℕ → Option ℚ
  /-- `send_internal`. -/
  send : ℕ → Status
  /-- Whether an allocation succeeds. -/
  memory : ℕ → Bool
  /-- The private keys that are drawn. -/
  private_key : ℕ → Octets 32

namespace Host

/-- One question more was asked. -/
def ask (s : Host) : Host := { s with asked := s.asked + 1 }

section

variable (p : Primitives) (env : HostEnvironment) (s : Host) (number : ℕ)
  (destination_hash : Octets 16)

/-- The configuration that `rns_runtime_create` gives the node when no option is set. -/
def defaultConfig (transport_id path_request_destination : Octets 16) : NodeConfig :=
  { transport :=
      { path_capacity := 128
        dedupe_capacity := 256
        reverse_capacity := 256
        link_capacity := 64
        random_blob_history := 8
        path_lifetime := 604800
        dedupe_lifetime := 60
        reverse_lifetime := 480
        link_lifetime := 900
        link_proof_timeout_per_hop := 6 }
    transport_id
    path_request_destination
    max_hops := 128
    local_destination_capacity := 32 }

/-- The runtime as it starts, with what `rns_node_init` makes of the configuration. -/
def start (config : NodeConfig) (interfaces : List Interface) (transporting : Bool) :
    Option Host :=
  (Node.init config).map fun node =>
    { node
      interfaces
      transporting
      plain_destinations := []
      plain_destination_capacity := config.local_destination_capacity
      destinations := List.replicate maxDestinations none
      links := List.replicate maxLinks none
      made := 0
      asked := 0 }

/-! ## Destinations -/

/-- `find_link_destination`. -/
def findLinkDestination (hash : Octets 16) : Option (ℕ × Destination) :=
  find (fun destination => decide (destination.hash = hash)) s.destinations

/-- `rns_runtime_register_destination`. -/
def registerDestination (s : Host) (hash : Octets 16) : Status × Host :=
  if hash ∈ s.plain_destinations then (.ok, s)
  else if s.plain_destinations.length = s.plain_destination_capacity then (.overflow, s)
  else
    match s.node.registerDestination hash with
    | (false, _) => (.overflow, s)
    | (true, node) => (.ok, { s with node, plain_destinations := s.plain_destinations ++ [hash] })

/-- `rns_runtime_unregister_destination`: a link destination keeps the hash registered. -/
def unregisterDestination (s : Host) (hash : Octets 16) : Status × Host :=
  if hash ∉ s.plain_destinations then (.notFound, s)
  else
    let s := { s with plain_destinations := s.plain_destinations.erase hash }
    if (s.findLinkDestination hash).isNone then
      (.ok, { s with node := (s.node.unregisterDestination hash).2 })
    else (.ok, s)

/-- `rns_runtime_register_link_destination`. -/
def registerLinkDestination (hash : Octets 16)
    (identity : LocalIdentity) (link_options : LinkOptions) : Status × Host :=
  if identity.signing_private = none then (.invalidArgument, s)
  else if (s.findLinkDestination hash).isSome then (.invalidState, s)
  else
    match firstFree s.destinations with
    | none => (.overflow, s)
    | some slot =>
      if !env.memory s.asked then (.noMemory, s.ask)
      else
        let s := s.ask
        match s.node.registerDestination hash with
        | (false, _) => (.overflow, s)
        | (true, node) =>
          (.ok, { s with
            node
            destinations := s.destinations.set slot (some
              { number := s.made
                hash
                identity
                link_options
                request_handlers := List.replicate maxRequestHandlers none })
            made := s.made + 1 })

/-- The destination with the number. -/
def findDestination : Option (ℕ × Destination) :=
  find (fun destination => decide (destination.number = number)) s.destinations

/-- `rns_runtime_destination_destroy`: a plain destination keeps the hash registered, and the links
that came in for the destination go on without it. -/
def destinationDestroy : Host :=
  match s.findDestination number with
  | none => s
  | some (slot, destination) =>
    let s := { s with
      links := s.links.map (Option.map fun link =>
        if link.inbound_destination = some number then { link with inbound_destination := none }
        else link)
      destinations := s.destinations.set slot none }
    if destination.hash ∈ s.plain_destinations then s
    else { s with node := (s.node.unregisterDestination destination.hash).2 }

/-! ## Request handlers -/

/-- `rns_runtime_destination_register_request_handler`, with the bytes of the path. -/
def registerRequestHandler (crypto : Crypto) (env : HostEnvironment) (s : Host) (number : ℕ)
    (path : List UInt8) (options : RequestHandlerOptions) : Status × Host :=
  match s.findDestination number with
  | none => (.invalidArgument, s)
  | some (slot, destination) =>
    if options.allow_identity_hashes.length > maxRequestAllowlist then (.invalidArgument, s)
    else if path.length = 0 ∨ path.length > Request.pathMax then (.invalidArgument, s)
    else
      let response_size :=
        if options.max_response_size ≠ 0 then options.max_response_size
        else handlerDefaultMaxResponse
      if response_size > defaultMaxResponse ∨ response_size > Resource.maxSize - 19 then
        (.overflow, s)
      else
        let path_hash := truncatedHash (crypto.sha256 path)
        if (find (fun existing => decide (existing.handler.path_hash = path_hash))
            destination.request_handlers).isSome then (.invalidState, s)
        else
          match firstFree destination.request_handlers with
          | none => (.overflow, s)
          | some place =>
            if !env.memory s.asked then (.noMemory, s.ask)
            else
              let handler : RegisteredHandler :=
                { number := s.made
                  path
                  handler :=
                    { path_hash
                      access := options.access
                      allow_identity_hashes := options.allow_identity_hashes
                      max_response_size := response_size } }
              (.ok, { s.ask with
                destinations := s.destinations.set slot (some { destination with
                  request_handlers := destination.request_handlers.set place (some handler) })
                made := s.made + 1 })

/-- `rns_runtime_request_handler_destroy`. -/
def requestHandlerDestroy : Host :=
  { s with destinations := s.destinations.map (Option.map fun destination =>
      { destination with
        request_handlers := sweep (fun handler => decide (handler.number = number))
          destination.request_handlers }) }

/-- The request handlers that `find_request_handler` goes through for a link. -/
def requestHandlers (inbound_destination : Option ℕ) : List RequestHandler :=
  match inbound_destination.bind s.findDestination with
  | none => []
  | some (_, destination) =>
    (entries destination.request_handlers).map RegisteredHandler.handler

/-! ## Links -/

/-- What `rns_runtime_link_open` and `accept_inbound_link` share: the link is registered and takes
its slot, and is taken back when its first packet cannot be sent. -/
def admitLink (slot : ℕ) (link : HostLink) (sent : Except Status RuntimeLink) : Status × Host :=
  match s.node.registerDestination link.id with
  | (false, _) => (.protocol, s)
  | (true, node) =>
    let s := { s with node, made := s.made + 1 }
    match sent with
    | .error status =>
      (status, { s with
        node := (s.node.unregisterDestination link.id).2
        links := s.links.set slot none })
    | .ok sent => (.ok, { s with links := s.links.set slot (some { link with link := sent }) })

/-- The packet of a link request. -/
def requestPacket (path : PathEntry) (payload : List UInt8) : Packet :=
  { header_type := if path.hops > 1 then 1 else 0
    context_flag := 0
    transport_type := if path.hops > 1 then 1 else 0
    destination_type := 0
    packet_type := 2
    hops := 0
    transport_id := if path.hops > 1 then path.next_hop else Octets.zero 16
    destination_hash
    context := 0
    data := payload }

/-- The protocol of a link that is opened, with its id. -/
def openProtocol (identity : Identity) (path : PathEntry) (x_private s_private : Octets 32)
    (link_mtu : ℕ) (timeout now : ℚ) : Except Status Link :=
  match Link.initiatorInit p identity x_private s_private link_mtu timeout now with
  | none => .error .crypto
  | some protocol =>
    match protocol.buildRequestPayload with
    | none => .error .crypto
    | some payload =>
      match ((requestPacket destination_hash path payload).encode mtu).bind
          (protocol.initiatorSetRequestPacket p) with
      | none => .error .protocol
      | some protocol => .ok protocol

/-- `rns_runtime_link_open` up to the registration: the slot, the link and what sending its request
comes to. -/
def prepareOpen (identity : Identity) (options : LinkOptions) (link_mtu : ℕ) : Except Status (ℕ ×
    HostLink × Except Status RuntimeLink) × Host :=
  let (path, transport) :=
    Transport.lookup s.node.transport (env.transport_clock s.asked 0) destination_hash
  let s := { s.ask with node := { s.node with transport } }
  match path with
  | none => (.error .notFound, s)
  | some (_, path) =>
    match firstFree s.links with
    | none => (.error .overflow, s)
    | some slot =>
      match s.interfaces.findIdx? (fun interface => interface.id = path.interface_id) with
      | none => (.error .invalidState, s)
      | some interface_index =>
        if !(s.interfaces[interface_index]?.any Interface.up) then (.error .invalidState, s)
        else if !env.memory s.asked then (.error .noMemory, s.ask)
        else
          let s := s.ask
          let timeout :=
            if options.timeout_seconds > 0 then options.timeout_seconds
            else 10 + 6 * (if path.hops ≠ 0 then (path.hops.toNat : ℚ) else 1)
          match openProtocol p destination_hash identity path (env.private_key s.asked)
              (env.private_key (s.asked + 1)) (if link_mtu ≠ 0 then link_mtu else mtu) timeout
              (env.clock s.asked) with
          | .error status => (.error status, s.ask)
          | .ok protocol =>
            let s := s.ask.ask
            let link := RuntimeLink.opened protocol options []
            let sent :=
              match env.send s.asked with
              | .ok => .ok (link.linkNotify .pending .ok)
              | status => .error status
            (.ok (slot,
              { number := s.made
                interface_index
                inbound_destination := none
                registered := true
                link }, sent), s.ask)

/-- `rns_runtime_link_open`. -/
def linkOpen (identity : Identity) (options : LinkOptions) (link_mtu : ℕ) : Status × Host :=
  match s.prepareOpen p env destination_hash identity options link_mtu with
  | (.error status, s) => (status, s)
  | (.ok (slot, link, sent), s) => s.admitLink slot link sent

/-- The proof that answers the request for a link. -/
def sendLinkProof (env : Environment) (link : RuntimeLink) : Except Status RuntimeLink :=
  match link.protocol.buildProof p with
  | none => .error .crypto
  | some proof =>
    match link.linkSendProof p.toCrypto env Context.proof proof with
    | (.error status, _) => .error status
    | (.ok _, link) => .ok link

/-- `accept_inbound_link` up to the registration, for a packet that is not of a link. -/
def prepareAccept (interface_index : ℕ) (raw : List UInt8) (packet : Packet) (received_hops : UInt8)
    : Option (ℕ × HostLink × Except Status RuntimeLink) × Host :=
  if packet.packet_type ≠ 2 ∨ packet.destination_type ≠ 0 then (none, s)
  else
    match s.findLinkDestination packet.destination_hash, firstFree s.links with
    | some (_, destination), some slot =>
      if !env.memory s.asked then (none, s.ask)
      else
        let s := s.ask
        let timeout :=
          if destination.link_options.timeout_seconds > 0 then
            destination.link_options.timeout_seconds
          else 360 + 6 * (if received_hops ≠ 0 then (received_hops.toNat : ℚ) else 1)
        match Link.responderAccept p destination.identity (env.private_key s.asked) raw timeout
            (env.clock s.asked) with
        | none => (none, s.ask)
        | some protocol =>
          let link := RuntimeLink.opened protocol destination.link_options []
          (some (slot,
            { number := s.made
              interface_index
              inbound_destination := some destination.number
              registered := true
              link }, sendLinkProof p (env.link s.made) link), s.ask)
    | _, _ => (none, s)

/-- `accept_inbound_link`. -/
def acceptInboundLink (interface_index : ℕ)
    (raw : List UInt8) (packet : Packet) (received_hops : UInt8) : Host :=
  match s.prepareAccept p env interface_index raw packet received_hops with
  | (none, s) => s
  | (some (slot, link, sent), s) => (s.admitLink slot link sent).2

/-- The link that gets the packets for a destination hash. -/
def findLink : Option (ℕ × HostLink) :=
  find (fun link => decide (link.id = destination_hash)) s.links

/-- The link with the number. -/
def findNumber : Option (ℕ × HostLink) :=
  find (fun link => decide (link.number = number)) s.links

/-- `link_ingress`. -/
def linkIngress (p : Primitives) (bzip2 : Option Bzip2) (env : HostEnvironment) (s : Host)
    (interface_index : ℕ) (raw : List UInt8) (received_hops : UInt8) : Host :=
  match Packet.decode raw with
  | none => s
  | some packet =>
    match s.findLink packet.destination_hash with
    | none => s.acceptInboundLink p env interface_index raw packet received_hops
    | some (slot, entry) =>
      let link := { entry.link with handlers := s.requestHandlers entry.inbound_destination }
      { s with links := s.links.set slot (some { entry with
          link := link.linkIngress p bzip2 (env.link entry.number)
            (interface_index = entry.interface_index) raw }) }

/-- `rns_runtime_link_destroy`. -/
def linkDestroy : Host :=
  match s.findNumber number with
  | none => s
  | some (slot, entry) =>
    { s with
      node := if entry.registered then (s.node.unregisterDestination entry.id).2 else s.node
      links := s.links.set slot none }

/-- A call of the application on one of its links. -/
def linkCall (bzip2 : Option Bzip2) (env : HostEnvironment) (s : Host)
    (number : ℕ) (call : RuntimeLink.Call) : Host :=
  match s.findNumber number with
  | none => s
  | some (slot, entry) =>
    { s with links := s.links.set slot (some { entry with
        link := entry.link.step p bzip2 (env.link entry.number) call }) }

/-! ## Packets and polls -/

/-- What `ingress` does with what the node says of a packet. -/
def handleResult (bzip2 : Option Bzip2) (env : HostEnvironment) (s : Host)
    (interface_index : ℕ) (raw : List UInt8) (result : NodeResult) : Host :=
  match result.action with
  | .deliver => s.linkIngress p bzip2 env interface_index raw result.hops
  | .forward =>
    let forwarded := s.transporting &&
      s.interfaces.any (fun interface => interface.id = result.forward_interface_id) &&
      decide (env.send s.asked = .ok)
    { s.ask with node := (s.node.completeForward result forwarded).2.1 }
  | _ => s

end

/-- `ingress`. -/
def ingress (p : Primitives) (bzip2 : Option Bzip2) (env : HostEnvironment) (s : Host)
    (interface_index : ℕ) (raw : List UInt8) : Host :=
  match s.interfaces[interface_index]? with
  | none => s
  | some source =>
    let (result, node) :=
      s.node.ingress p.toCrypto raw source.id 0 (some mtu) (env.transport_clock s.asked)
    { s.ask with node }.handleResult p bzip2 env interface_index raw result

/-- What `rns_runtime_poll` does for the links. -/
def poll (p : Primitives) (env : HostEnvironment) (s : Host) : Host :=
  { s with links := s.links.map (Option.map fun entry =>
      { entry with link := entry.link.poll p (env.link entry.number) }) }

/-! ## Runs -/

/-- What happens to the runtime. -/
inductive Call
  | registerDestination (hash : Octets 16)
  | unregisterDestination (hash : Octets 16)
  | registerLinkDestination (hash : Octets 16) (identity : LocalIdentity) (options : LinkOptions)
  | destinationDestroy (destination : ℕ)
  | registerRequestHandler (destination : ℕ) (path : List UInt8) (options : RequestHandlerOptions)
  | requestHandlerDestroy (handler : ℕ)
  | linkOpen (destination_hash : Octets 16) (identity : Identity) (options : LinkOptions)
      (link_mtu : ℕ)
  | linkDestroy (link : ℕ)
  | link (link : ℕ) (call : RuntimeLink.Call)
  | ingress (interface_index : ℕ) (raw : List UInt8)
  | poll
  | interface (interface_index : ℕ) (up : Bool)
deriving DecidableEq

/-- The runtime after a call. Packets come by `ingress` and time by `poll`, not as calls on a
link. -/
def step (p : Primitives) (bzip2 : Option Bzip2) (env : HostEnvironment) (s : Host) : Call → Host
  | .registerDestination hash => (s.registerDestination hash).2
  | .unregisterDestination hash => (s.unregisterDestination hash).2
  | .registerLinkDestination hash identity options =>
    (s.registerLinkDestination env hash identity options).2
  | .destinationDestroy destination => s.destinationDestroy destination
  | .registerRequestHandler destination path options =>
    (s.registerRequestHandler p.toCrypto env destination path options).2
  | .requestHandlerDestroy handler => s.requestHandlerDestroy handler
  | .linkOpen destination_hash identity options link_mtu =>
    (s.linkOpen p env destination_hash identity options link_mtu).2
  | .linkDestroy link => s.linkDestroy link
  | .link _ (.ingress _ _) => s
  | .link _ .poll => s
  | .link link call => s.linkCall p bzip2 env link call
  | .ingress interface_index raw => s.ingress p bzip2 env interface_index raw
  | .poll => s.poll p env
  | .interface interface_index up =>
    { s with interfaces := s.interfaces.modify interface_index (fun i => { i with up }) }

/-! ## A runtime to try things on -/

/-- Surroundings in which everything succeeds and the calls come 61 seconds after one another. -/
def plainEnvironment : HostEnvironment :=
  { link := fun _ => RuntimeLink.plainEnvironment
    clock := fun k => 61 * k
    transport_clock := fun k _ => some (61 * k)
    send := fun _ => .ok
    memory := fun _ => true
    private_key := fun _ => ofList 32 [5] }

/-- The configuration of a runtime. -/
def plainConfig : NodeConfig := defaultConfig (ofList 16 [1]) (ofList 16 [2])

/-- The interface of the runtime. -/
def plainInterfaces : List Interface := [⟨7, true⟩]

/-- A link destination for which a link comes in. -/
def plainInbound : List Call :=
  [.registerLinkDestination (ofList 16 [9]) Link.plainIdentity ⟨0, false, 0, 0⟩,
   .ingress 0 Link.plainRequest]

end Host

end Reticulum.Runtime
