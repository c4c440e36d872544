import Reticulum.Crypto
import Reticulum.Transport.Model

/-!
# Reverse paths, link routes and transactions

The rest of `src/transport/transport.c`: the reverse table, the link table, the transaction with
which a caller undoes the one slot that a forwarding decision wrote, and path requests.
-/

namespace Reticulum.Transport

open Slots

/-- `rns_transport_transaction`: the slot that was written and what it held, with nothing for a slot
that was free. -/
inductive Transaction
  | none
  | reverse (slot : ℕ) (previous : Option ReverseEntry)
  | link (slot : ℕ) (previous : Option LinkEntry)
deriving DecidableEq

/-! ## Reverse paths -/

/-- `oldest_reverse_slot`. -/
def oldestReverseSlot (reverse_paths : List (Option ReverseEntry)) (now : ℚ) : ℕ :=
  victim (fun e => decide (now ≥ e.expires_at)) ReverseEntry.created_at reverse_paths

/-- `rns_transport_record_reverse_transaction`: the transport after it and the transaction, or
`none` when it returns zero. -/
def recordReverseTransaction (t : State) (now : Option ℚ) (packet_hash : Octets 32)
    (received_interface_id outbound_interface_id : UInt64) : Option (State × Transaction) :=
  match now with
  | none => none
  | some now =>
    let slot := oldestReverseSlot t.reverse_paths now
    let entry : ReverseEntry :=
      { packet_hash := truncatedHash packet_hash
        received_interface_id
        outbound_interface_id
        created_at := now
        expires_at := now + t.config.reverse_lifetime }
    some ({ t with reverse_paths := t.reverse_paths.set slot (some entry) },
      .reverse slot (t.reverse_paths[slot]?.join))

/-- `rns_reverse_result`, with the interface to forward to for a match. -/
inductive ReverseResult
  | missing
  | matched (forward_interface_id : UInt64)
  | wrongInterface
deriving DecidableEq

/-- `rns_transport_consume_reverse`: an entry with the hash is consumed, whatever the outcome. -/
def consumeReverse (t : State) (now : Option ℚ) (packet_hash : Octets 16)
    (ingress_interface_id : UInt64) : ReverseResult × State :=
  match now with
  | none => (.missing, t)
  | some now =>
    match find (fun e => decide (e.packet_hash = packet_hash)) t.reverse_paths with
    | none => (.missing, t)
    | some (i, entry) =>
      let t' := { t with reverse_paths := t.reverse_paths.set i none }
      if now ≥ entry.expires_at then (.missing, t')
      else if ingress_interface_id = entry.outbound_interface_id then
        (.matched entry.received_interface_id, t')
      else (.wrongInterface, t')

/-! ## Links -/

/-- `oldest_link_slot`. -/
def oldestLinkSlot (links : List (Option LinkEntry)) (now : ℚ) : ℕ :=
  victim (fun e => decide (now ≥ e.deadline)) LinkEntry.created_at links

/-- `rns_transport_record_link_request_transaction`, along a path that is occupied. -/
def recordLinkRequestTransaction (t : State) (now : Option ℚ) (link_id : Octets 16)
    (path : PathEntry) (received_interface_id : UInt64) (taken_hops : UInt8) :
    Option (State × Transaction) :=
  match path.identity_public_key, now with
  | some destination_public_key, some now =>
    let interval : ℚ := path.hops.toNat * t.config.link_proof_timeout_per_hop
    let slot := oldestLinkSlot t.links now
    let entry : LinkEntry :=
      { link_id
        next_hop := path.next_hop
        destination_hash := path.destination_hash
        destination_public_key
        next_hop_interface_id := path.interface_id
        received_interface_id
        remaining_hops := path.hops
        taken_hops
        validated := false
        created_at := now
        updated_at := some now
        proof_deadline := now + interval
        expires_at := 0 }
    some ({ t with links := t.links.set slot (some entry) }, .link slot (t.links[slot]?.join))
  | _, _ => none

/-- `rns_transport_link_lookup`: the entry of the link with its slot, and the transport after it. An
entry past its deadline is removed. -/
def linkLookup (t : State) (now : Option ℚ) (link_id : Octets 16) :
    Option (ℕ × LinkEntry) × State :=
  match now with
  | none => (none, t)
  | some now =>
    match find (fun e => decide (e.link_id = link_id)) t.links with
    | none => (none, t)
    | some (i, entry) =>
      if now ≥ entry.deadline then (none, { t with links := t.links.set i none })
      else (some (i, entry), t)

/-- `rns_link_route_result`, with the interface to forward to for a match. -/
inductive LinkRouteResult
  | missing
  | matched (forward_interface_id : UInt64)
  | wrongInterface
  | wrongHops
  | notValidated
  | invalidProof
deriving DecidableEq

/-- The message that a link proof signs. -/
def linkProofPreimage (entry : LinkEntry) (proof : List UInt8) : List UInt8 :=
  entry.link_id.bytes ++ (proof.drop 64).take 32 ++ entry.destination_public_key.bytes.drop 32 ++
    (proof.drop 96).take 3

/-- `rns_transport_accept_link_proof_transaction`, with the readings of the clock at the lookup and
after the proof is verified. -/
def acceptLinkProofTransaction (crypto : Crypto) (t : State) (now now' : Option ℚ)
    (link_id : Octets 16) (proof : List UInt8) (ingress_interface_id : UInt64)
    (proof_hops : UInt8) : LinkRouteResult × State × Transaction :=
  match linkLookup t now link_id with
  | (none, t) => (.missing, t, .none)
  | (some (i, entry), t) =>
    if entry.validated then (.invalidProof, t, .none)
    else if ingress_interface_id ≠ entry.next_hop_interface_id then (.wrongInterface, t, .none)
    else if proof_hops ≠ entry.remaining_hops then (.wrongHops, t, .none)
    else if proof.length ≠ 99 then (.invalidProof, t, .none)
    else if !identityVerify crypto (identityFromPublic crypto entry.destination_public_key)
        (linkProofPreimage entry proof) (Octets.ofList 64 proof) then (.invalidProof, t, .none)
    else
      match now' with
      | none => (.invalidProof, t, .none)
      | some now' =>
        let validated : LinkEntry :=
          { entry with
            validated := true
            updated_at := some now'
            expires_at := now' + t.config.link_lifetime }
        (.matched entry.received_interface_id, { t with links := t.links.set i (some validated) },
          .link i (some entry))

/-- The interface on the other side of a validated link and the hops that a packet must have taken,
for a packet that comes in on one of its two interfaces. -/
def linkDirection (entry : LinkEntry) (ingress_interface_id : UInt64) : Option (UInt8 × UInt64) :=
  if ingress_interface_id = entry.received_interface_id then
    some (entry.taken_hops, entry.next_hop_interface_id)
  else if ingress_interface_id = entry.next_hop_interface_id then
    some (entry.remaining_hops, entry.received_interface_id)
  else none

/-- `rns_transport_route_link_transaction`, with the readings of the clock at the lookup and at the
update. -/
def routeLinkTransaction (t : State) (now now' : Option ℚ) (link_id : Octets 16)
    (ingress_interface_id : UInt64) (packet_hops : UInt8) :
    LinkRouteResult × State × Transaction :=
  match linkLookup t now link_id with
  | (none, t) => (.missing, t, .none)
  | (some (i, entry), t) =>
    if !entry.validated then (.notValidated, t, .none)
    else
      match linkDirection entry ingress_interface_id with
      | none => (.wrongInterface, t, .none)
      | some (expected, forward_interface_id) =>
        if packet_hops ≠ expected then (.wrongHops, t, .none)
        else
          (.matched forward_interface_id,
            { t with links := t.links.set i (some { entry with updated_at := now' }) },
            .link i (some entry))

/-- `rns_transport_forget_link`. -/
def forgetLink (t : State) (now : Option ℚ) (link_id : Octets 16) : Bool × State :=
  match linkLookup t now link_id with
  | (none, t) => (false, t)
  | (some (i, _), t) => (true, { t with links := t.links.set i none })

/-! ## Transactions -/

/-- `rns_transport_transaction_rollback`: whether it succeeds, the transport, and the transaction,
which a slot that was put back clears. -/
def transactionRollback (t : State) (transaction : Transaction) : Bool × State × Transaction :=
  match transaction with
  | .none => (true, t, .none)
  | .reverse slot previous =>
    if slot ≥ t.config.reverse_capacity then (false, t, transaction)
    else (true, { t with reverse_paths := t.reverse_paths.set slot previous }, .none)
  | .link slot previous =>
    if slot ≥ t.config.link_capacity then (false, t, transaction)
    else (true, { t with links := t.links.set slot previous }, .none)

/-- `rns_transport_transaction_commit`. -/
def transactionCommit (_ : Transaction) : Transaction := .none

/-! ## Path requests -/

/-- `rns_path_request`. -/
structure PathRequest where
  destination_hash : Octets 16
  requesting_transport : Option (Octets 16)
  tag : List UInt8
deriving DecidableEq

/-- `rns_path_request_parse`. -/
def pathRequestParse (input : List UInt8) : Option PathRequest :=
  if input.length < 17 ∨ input.length > 48 then none
  else
    let offset := if input.length ≥ 33 then 32 else 16
    let tag := input.drop offset
    if tag.length = 0 ∨ tag.length > 16 then none
    else
      some
        { destination_hash := Octets.ofList 16 input
          requesting_transport :=
            if input.length ≥ 33 then some (Octets.ofList 16 (input.drop 16)) else none
          tag }

end Reticulum.Transport
