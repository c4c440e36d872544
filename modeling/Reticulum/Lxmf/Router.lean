import Reticulum.Lxmf.Store
import Reticulum.Lxmf.Tickets
import Reticulum.Status

/-!
# The router: what its two halves share

`lxmf_router_t` of `src/lxmf/router_send.c` takes messages in and sends messages out. Both halves
work on the message store and the ticket store; `Core` is these two, with the number of questions
that the router has asked its surroundings and the log of what it did. Every answer that the router
depends on is in `Environment`, as a function of the number of the question, so a clock or a
resolver may answer differently each time.

The log is for the properties: it keeps what reached the disk and the callbacks that were made, in
the order in which they happened.
-/

namespace Reticulum.Lxmf

/-- `lxmf_router_config_t`, the part that is data. A limit or a base of zero selects the default. -/
structure Config where
  /-- The `lxmf.delivery` destination of the local identity. -/
  local_destination : Octets 16
  inbound_stamp_cost : UInt8 := 0
  max_incoming_message_size : ℕ := 0
  max_incoming_resource_size : ℕ := 0
  preferred_delivery_method : DeliveryMethod := .unknown
  identity_discovery_timeout_seconds : ℕ := 0
  direct_retry_limit : ℕ := 0
  direct_retry_base_ms : ℕ := 0
  propagation_retry_limit : ℕ := 0
  propagation_retry_base_ms : ℕ := 0
  /-- Whether `wall_clock` is set. -/
  has_wall_clock : Bool := false
  /-- Whether `runtime` is set. -/
  has_runtime : Bool := true
  /-- Whether `propagation_node_identity` is set. -/
  has_propagation_node : Bool := false
deriving DecidableEq

/-- The answers that the router gets, by the number of the question. -/
structure Environment where
  /-- What an append to the journal returns, by the number of the append. -/
  disk : ℕ → Status
  /-- What saving the ticket file returns. -/
  save : ℕ → Status
  /-- `wall_clock`, in seconds. -/
  wall : ℕ → ℕ
  /-- `rns_hal_wallclock_ms`. -/
  halWall : ℕ → Option ℕ
  /-- `router_monotonic_ms`. -/
  monotonic : ℕ → ℕ
  /-- `resolve_identity`. -/
  resolve : ℕ → Octets 16 → Option Identity
  /-- `is_source_blocked`, always false where none is set. -/
  blocked : ℕ → Octets 16 → Bool
  /-- `router_private_ratchets`. -/
  ratchets : ℕ → Status
  /-- `rns_identity_decrypt_with_ratchets`. -/
  decrypt : ℕ → List UInt8 → Option (List UInt8)

/-- `lxmf_router_event_t`. -/
structure Event where
  message_id : Octets 32
  method : DeliveryMethod
  state : DeliveryStatus
  queue_reason : QueueReason
  result : Status
  attempt : ℕ
deriving DecidableEq

/-- What the router did, as seen from outside. -/
inductive Observation
  /-- A record reached the disk. -/
  | wrote (record : Record)
  /-- `is_source_blocked` was asked about a source and answered. -/
  | policy (source : Octets 16) (blocked : Bool)
  /-- A ticket of a peer was remembered. -/
  | learned (peer : Octets 16) (ticket : TicketEntry)
  /-- `message_callback`. -/
  | message (message : StoreMessage)
  /-- `signature_callback`. -/
  | signature (id : Octets 32) (state : SignatureState)
  /-- `delivery_callback`. -/
  | delivery (id : Octets 32) (status : DeliveryStatus) (result : Status)
  /-- `event_callback`. -/
  | event (event : Event)
  /-- A received representation was answered with `LXMF_OK`. -/
  | answered (packed : List UInt8)
  /-- A paper message that was imported before was answered with `LXMF_OK`. -/
  | repeated (packed : List UInt8)
  /-- A link packet was proved to its sender. -/
  | proved (packed : List UInt8)
  /-- The runtime took a packet, a resource or an upload of a message, at a time. -/
  | handed (id : Octets 32) (method : DeliveryMethod) (time : ℕ)
  /-- The upload of a message to the propagation node was completed. -/
  | uploaded (id : Octets 32)
  /-- `lxmf_router_cancel_message` returned `LXMF_OK`. -/
  | cancelled (id : Octets 32)
deriving DecidableEq

/-- What both halves of the router work on. -/
structure Core where
  store : Store
  /-- `ticket_store`, where one is configured. -/
  tickets : Option TicketStore
  /-- Questions asked so far. -/
  asked : ℕ
  log : List Observation
deriving DecidableEq

namespace Core

/-- One more question was asked. -/
def ask (s : Core) : Core := { s with asked := s.asked + 1 }

/-- Something was done. -/
def observe (s : Core) (x : Observation) : Core := { s with log := s.log ++ [x] }

/-- The records that an operation on the store added. -/
def newRecords (before after : Store) : List Record := after.journal.drop before.journal.length

/-- An operation on the store, with the records that it put on disk in the log. -/
def write {α : Type} (s : Core) (operation : Store → α × Store) : α × Core :=
  let (result, store) := operation s.store
  (result, { s with store, log := s.log ++ (newRecords s.store store).map .wrote })

/-- `router_wall_time`. -/
def wallTime (env : Environment) (s : Core) : ℕ × Core := (env.wall s.asked, s.ask)

/-- `report_event`. -/
def reportEvent (s : Core) (event : Event) : Core := s.observe (.event event)

/-- `report_signature`. -/
def reportSignature (s : Core) (id : Octets 32) (state : SignatureState) : Core :=
  s.observe (.signature id state)

end Core

end Reticulum.Lxmf
