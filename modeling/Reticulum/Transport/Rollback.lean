import Reticulum.Transport.Handling

/-!
# Undoing a forwarding decision

When a node decides to forward a packet and the packet cannot be sent, `rns_node_complete_forward`
undoes the decision. The transaction saves one slot of the reverse or the link table, so what is
undone depends on what the handler wrote. `ingress_forward` says it for the three handlers that
forward: a packet on a link writes the saved slot of the link table and nothing else, while every
other packet has entered its hash in the duplicate table, which no transaction covers.
-/

namespace Reticulum.Transport

open Octets List Slots Option

variable (t : State)

/-! ## Transactions -/

/-- What a transport keeps from its start: tables as large as their capacities, none of them empty,
and a positive lifetime of a packet hash. -/
structure Sized (t : State) : Prop where
  shape_eq : t.shape =
    (t.config, t.config.dedupe_capacity, t.config.reverse_capacity, t.config.link_capacity)
  dedupe_pos : 0 < t.config.dedupe_capacity
  reverse_pos : 0 < t.config.reverse_capacity
  link_pos : 0 < t.config.link_capacity
  lifetime_pos : 0 < t.config.dedupe_lifetime

/-- A transport of the same shape is as large. -/
theorem Sized.of_shape {t t' : State} (h : Sized t) (hshape : t'.shape = t.shape) : Sized t' := by
  have hconfig : t'.config = t.config := congrArg Prod.fst hshape
  exact ⟨by rw [hshape, h.shape_eq, hconfig], by rw [hconfig]; exact h.dedupe_pos,
    by rw [hconfig]; exact h.reverse_pos, by rw [hconfig]; exact h.link_pos,
    by rw [hconfig]; exact h.lifetime_pos⟩

section

variable {t : State} (h : Sized t)
include h

theorem Sized.dedupe_length : t.dedupe.length = t.config.dedupe_capacity :=
  congrArg (fun x => x.2.1) h.shape_eq

theorem Sized.reverse_length : t.reverse_paths.length = t.config.reverse_capacity :=
  congrArg (fun x => x.2.2.1) h.shape_eq

theorem Sized.links_length : t.links.length = t.config.link_capacity :=
  congrArg (fun x => x.2.2.2) h.shape_eq

theorem Sized.reverse_ne_nil : t.reverse_paths ≠ [] :=
  ne_nil_of_length_pos (h.reverse_length ▸ h.reverse_pos)

theorem Sized.links_ne_nil : t.links ≠ [] :=
  ne_nil_of_length_pos (h.links_length ▸ h.link_pos)

end

/-- A rollback does not touch the duplicate table. -/
theorem dedupe_transactionRollback (tr : Transaction) :
    (transactionRollback t tr).2.1.dedupe = t.dedupe := by
  cases tr <;> simp only [transactionRollback] <;> split_ifs <;> rfl

/-- Putting back what a slot of the link table held undoes a write to it. -/
theorem transactionRollback_link {t : State} {i : ℕ} {e : LinkEntry} (x : Option LinkEntry)
    (h : Sized t) (hi : Holds t.links i e) :
    transactionRollback { t with links := t.links.set i x } (.link i (some e)) =
      (true, t, .none) := by
  have hlt : i < t.config.link_capacity := h.links_length ▸ hi.lt
  have hback : (t.links.set i x).set i (some e) = t.links := by
    rw [set_set]
    refine ext_getElem? fun j => ?_
    by_cases hj : i = j
    · subst hj
      rw [getElem?_set_self hi.lt, hi]
    · rw [getElem?_set_ne hj]
  simp [transactionRollback, not_le.2 hlt, hback]

namespace Node

variable {crypto : Crypto} {node : Node} {packet : Packet} {received_interface_id : UInt64}
  {interface_gravity : Int32} {output : Option ℕ} {clock : ℕ → Option ℚ} {result : NodeResult}

/-! ## What the handlers forward -/

/-- A packet forwarded over a link rewrites one slot of the link table, which the transaction saves
with what it held. -/
theorem handleLinkPacket_forward {r : NodeResult × Node}
    (hr : handleLinkPacket crypto node packet received_interface_id output clock result = r)
    (h : r.1.action = .forward) : ∃ i e e', Holds node.transport.links i e ∧
      r.2 = { node with transport :=
        { node.transport with links := node.transport.links.set i (some e') } } ∧
      r.1.transport_transaction = .link i (some e) := by
  subst hr
  unfold handleLinkPacket at h ⊢
  split_ifs at h ⊢
  · cases h
  cases hencoded : encodeBuffered { packet with hops := packet.hops + 1 } output with
  | none => simp [hencoded, drop] at h
  | some encoded =>
    have hrouted := linkRoute_routed crypto node.transport packet received_interface_id clock
    simp only [hencoded] at h ⊢
    rcases hroute : linkRoute crypto node.transport packet received_interface_id clock with
      ⟨r, t', tr⟩
    rw [hroute] at hrouted
    simp only [hroute] at h ⊢
    rcases hrouted with ⟨f, i, e, e', hf, hi, heq⟩ | ⟨hno, -⟩
    · obtain rfl : r = .matched f := hf
      obtain ⟨rfl, rfl⟩ := Prod.mk.inj heq
      exact ⟨i, e, e', hi, rfl, rfl⟩
    · cases r with
      | matched f => exact absurd rfl (hno f)
      | _ => simp [drop] at h

/-- A proof is forwarded after its hash entered the duplicate table, and nothing is saved. -/
theorem handleOrdinaryProof_forward {r : NodeResult × Node}
    (hr : handleOrdinaryProof node packet received_interface_id output clock result = r)
    (h : r.1.action = .forward) (hnone : result.transport_transaction = .none) :
    (acceptPacketHash node.transport (clock 1) result.packet_hash).1 = true ∧
    r.2.transport.dedupe = (acceptPacketHash node.transport (clock 1) result.packet_hash).2.dedupe ∧
    r.1.transport_transaction = .none ∧
    ∀ (t : State) (clock' : ℕ → Option ℚ) (result' : NodeResult),
      (acceptPacketHash t (clock' 1) result'.packet_hash).1 = false →
      (handleOrdinaryProof { node with transport := t } packet received_interface_id output clock'
        result').1 = drop result' .duplicate := by
  subst hr
  unfold handleOrdinaryProof at h ⊢
  split_ifs at h ⊢
  · cases h
  cases hencoded : encodeBuffered { packet with hops := packet.hops + 1 } output with
  | none => simp [hencoded, drop] at h
  | some encoded =>
    simp only [hencoded] at h ⊢
    rcases haccept : acceptPacketHash node.transport (clock 1) result.packet_hash with ⟨_ | _, t₁⟩
    · simp [haccept, drop] at h
    simp only [haccept] at h ⊢
    have hkeep : (consumeReverse t₁ (clock 2) packet.destination_hash
        received_interface_id).2.dedupe = t₁.dedupe := by
      rcases consumeReverse_eq t₁ (clock 2) packet.destination_hash received_interface_id with
        heq | ⟨i, heq⟩ <;> rw [heq]
    rcases hreverse : consumeReverse t₁ (clock 2) packet.destination_hash received_interface_id with
      ⟨_ | f | _, t₂⟩
    · simp [hreverse, drop] at h
    · rw [hreverse] at hkeep
      refine ⟨trivial, hkeep, hnone, fun t clock' result' hdup => ?_⟩
      rcases hagain : acceptPacketHash t (clock' 1) result'.packet_hash with ⟨_ | _, t'⟩
      · rfl
      · rw [hagain] at hdup
        cases hdup
    · simp [hreverse, drop] at h

/-- A packet forwarded along a path leaves the duplicate table as it is. -/
theorem handleRouted_forward (hsized : Sized node.transport) {r : NodeResult × Node}
    (hr : handleRouted crypto node packet received_interface_id output clock result = r)
    (h : r.1.action = .forward) : r.2.transport.dedupe = node.transport.dedupe ∧
      r.1.transport_transaction.Fits r.2.transport := by
  subst hr
  unfold handleRouted at h ⊢
  rcases lookup_cases node.transport (clock 2) packet.destination_hash with
    ⟨i, path, -, hl⟩ | hl | ⟨i, hl⟩
  · simp only [hl] at h ⊢
    split_ifs at h ⊢
    · cases h
    rcases hencoded : encodeForward (routedPacket packet path) output result with r | r
    · simp [hencoded, encodeForward_error hencoded] at h
    simp only [hencoded] at h ⊢
    split at h
    · cases h
    · rename_i t' tr hrecord
      obtain ⟨hdedupe, -, hfits⟩ := recordRouted_eq_some hrecord
      exact ⟨hdedupe, hfits hsized.reverse_ne_nil hsized.links_ne_nil⟩
  · simp [hl, drop] at h
  · simp [hl, drop] at h

/-- A packet forwarded for the network was accepted as new, and what it recorded can be undone. -/
theorem handleNetwork_forward (hsized : Sized node.transport) {r : NodeResult × Node}
    (hr : handleNetwork crypto node packet received_interface_id output clock result = r)
    (h : r.1.action = .forward) :
    (acceptPacketHash node.transport (clock 1) result.packet_hash).1 = true ∧
    r.2.transport.dedupe = (acceptPacketHash node.transport (clock 1) result.packet_hash).2.dedupe ∧
    r.1.transport_transaction.Fits r.2.transport := by
  subst hr
  have hshape := shape_acceptPacketHash node.transport (clock 1) result.packet_hash
  unfold handleNetwork at h ⊢
  rcases hA : acceptPacketHash node.transport (clock 1) result.packet_hash with ⟨_ | _, t₁⟩
  · simp [hA, drop] at h
  rw [hA] at hshape
  simp only [hA] at h ⊢
  split_ifs at h ⊢
  · exact absurd h handlePathRequest_handled.not_forward
  · exact ⟨trivial, handleRouted_forward (hsized.of_shape hshape) rfl h⟩

/-! ## What a forwarded packet did -/

/-- The two kinds of forwarding. A packet on a link changed the one slot that the transaction saves;
any other packet was accepted as new, so its hash is in the duplicate table, and as long as it is a
copy that comes in is dropped. -/
theorem ingress_forward (hsized : Sized node.transport) {raw : List UInt8} {r : NodeResult × Node}
    (hr : node.ingress crypto raw received_interface_id interface_gravity output clock = r)
    (h : r.1.action = .forward) : ∃ packet packet_hash, Packet.decode raw = some packet ∧
      ((packet.destination_type = 3 ∧ ∃ i e e', Holds node.transport.links i e ∧
        r.2 = { node with transport :=
          { node.transport with links := node.transport.links.set i (some e') } } ∧
        r.1.transport_transaction = .link i (some e)) ∨
      (packet.destination_type ≠ 3 ∧
        (acceptPacketHash node.transport (clock 1) packet_hash).1 = true ∧
        r.2.transport.dedupe = (acceptPacketHash node.transport (clock 1) packet_hash).2.dedupe ∧
        r.1.transport_transaction.Fits r.2.transport ∧
        ∀ (t : State) (clock' : ℕ → Option ℚ),
          (acceptPacketHash t (clock' 1) packet_hash).1 = false →
          let again := (ingress crypto { node with transport := t } raw received_interface_id
            interface_gravity output clock').1
          again.action = .drop ∧ again.reason = .duplicate)) := by
  subst hr
  have hlocal_eq : ∀ t, localDestination { node with transport := t } = node.localDestination :=
    fun _ => rfl
  cases hdecode : Packet.decode raw with
  | none => simp [ingress, hdecode, drop] at h
  | some packet =>
  cases hhash : Packet.hash crypto raw with
  | none => simp [ingress, hhash, drop] at h
  | some packet_hash =>
  refine ⟨packet, packet_hash, rfl, ?_⟩
  -- Which handler a packet comes to does not depend on the transport.
  simp only [ingress, hdecode, hhash, hlocal_eq] at h ⊢
  split_ifs at h ⊢ with hhops hproof hannounce hlocal hlink hother
  · cases h
  · obtain ⟨haccept, hdedupe, htr, hagain⟩ := handleOrdinaryProof_forward rfl h rfl
    refine .inr ⟨by rw [hproof.2]; decide, haccept, hdedupe, by rw [htr]; trivial, ?_⟩
    intro t clock' hdup
    rw [hagain t clock' _ hdup]
    exact ⟨rfl, rfl⟩
  · exact absurd h handleAnnounce_handled.not_forward
  · split at h <;> cases h
  · exact .inl ⟨hlink, handleLinkPacket_forward rfl h⟩
  · cases h
  · obtain ⟨haccept, hdedupe, hfits⟩ := handleNetwork_forward hsized rfl h
    refine .inr ⟨hlink, haccept, hdedupe, hfits, fun t clock' hdup => ?_⟩
    unfold handleNetwork
    dsimp only [NodeResult.decoded]
    rcases hA : acceptPacketHash t (clock' 1) packet_hash with ⟨_ | _, t₁⟩
    · exact ⟨rfl, rfl⟩
    · rw [hA] at hdup
      cases hdup

end Node

/-! ## Runs of a node -/

/-- A call on the transport of a node that is not on its path table. -/
inductive RouteCall
  | acceptPacketHash (now : Option ℚ) (packet_hash : Octets 32)
  | consumeReverse (now : Option ℚ) (packet_hash : Octets 16) (ingress_interface_id : UInt64)
  | linkLookup (now : Option ℚ) (link_id : Octets 16)
  | forgetLink (now : Option ℚ) (link_id : Octets 16)

/-- The transport after a call. -/
def routeStep (t : State) : RouteCall → State
  | .acceptPacketHash now packet_hash => (acceptPacketHash t now packet_hash).2
  | .consumeReverse now packet_hash ingress_interface_id =>
    (consumeReverse t now packet_hash ingress_interface_id).2
  | .linkLookup now link_id => (linkLookup t now link_id).2
  | .forgetLink now link_id => (forgetLink t now link_id).2

/-- A call on a node or on its transport. A forwarding decision may be completed at any time, or
never. -/
inductive NodeCall
  | registerDestination (destination_hash : Octets 16)
  | unregisterDestination (destination_hash : Octets 16)
  | ingress (raw : List UInt8) (received_interface_id : UInt64) (interface_gravity : Int32)
    (output : Option ℕ) (clock : ℕ → Option ℚ)
  | completeForward (result : NodeResult) (sent : Bool)
  | path (call : PathCall)
  | route (call : RouteCall)

/-- The node after a call. -/
def nodeStep (crypto : Crypto) (node : Node) : NodeCall → Node
  | .registerDestination d => (node.registerDestination d).2
  | .unregisterDestination d => (node.unregisterDestination d).2
  | .ingress raw received_interface_id interface_gravity output clock =>
    (node.ingress crypto raw received_interface_id interface_gravity output clock).2
  | .completeForward result sent => (node.completeForward result sent).2.1
  | .path call => { node with transport := pathStep node.transport call }
  | .route call => { node with transport := routeStep node.transport call }

theorem shape_routeStep (call : RouteCall) : (routeStep t call).shape = t.shape := by
  cases call with
  | acceptPacketHash now packet_hash => exact shape_acceptPacketHash ..
  | consumeReverse now packet_hash ingress_interface_id => exact shape_consumeReverse ..
  | linkLookup now link_id => exact shape_linkLookup ..
  | forgetLink now link_id =>
    rcases linkLookup_cases t now link_id with ⟨i, e, -, h⟩ | h | ⟨n, i, e, -, -, -, h⟩ <;>
      simp [routeStep, forgetLink, h, State.shape]

theorem init_sized {config : Config} {t : State} (h : init config = some t) : Sized t := by
  obtain ⟨⟨-, hdedupe, -, -, -, hlifetime, hreverse, hlink⟩, rfl⟩ := init_ok h
  exact ⟨by simp [State.shape, Config.withDefaults], hdedupe, hreverse, hlink, hlifetime⟩

/-- Every call on a node keeps the shape of its transport. -/
theorem nodeStep_sized (crypto : Crypto) (node : Node) (call : NodeCall)
    (h : Sized node.transport) : Sized (nodeStep crypto node call).transport := by
  refine h.of_shape ?_
  cases call with
  | registerDestination d =>
    simp only [nodeStep, Node.registerDestination]
    split_ifs <;> rfl
  | unregisterDestination d =>
    simp only [nodeStep, Node.unregisterDestination]
    split <;> rfl
  | ingress raw received_interface_id interface_gravity output clock =>
    obtain ⟨⟨t, ht, heq⟩, -⟩ := Node.ingress_handled crypto node raw received_interface_id
      interface_gravity output clock
    simp only [nodeStep, heq]
    exact ht
  | completeForward result sent =>
    obtain ⟨t, ht, heq⟩ := Node.completeForward_moved node result sent
    simp only [nodeStep, heq]
    exact ht
  | path call => exact shape_pathStep ..
  | route call => exact shape_routeStep ..

/-! ## The rollback -/

/-- A hash just accepted is in the duplicate table, in an entry that was not there. -/
theorem holds_acceptPacketHash {t : State} {now : Option ℚ} {packet_hash : Octets 32}
    (hsized : Sized t) (h : (acceptPacketHash t now packet_hash).1 = true) : ∃ n i, now = some n ∧
      Holds (acceptPacketHash t now packet_hash).2.dedupe i
        ⟨packet_hash, n, n + t.config.dedupe_lifetime⟩ ∧
      ∀ j, ¬ Holds t.dedupe j ⟨packet_hash, n, n + t.config.dedupe_lifetime⟩ := by
  rcases now with _ | n
  · cases h
  rcases acceptPacketHash_cases t n packet_hash with ⟨-, heq⟩ | ⟨hnew, heq⟩
  · rw [heq] at h
    cases h
  have hne : sweep (fun e : DedupeEntry => decide (n ≥ e.expires_at)) t.dedupe ≠ [] := by
    apply ne_nil_of_length_pos
    rw [length_sweep, hsized.dedupe_length]
    exact hsized.dedupe_pos
  refine ⟨n, oldestDedupeSlot (sweep (fun e => decide (n ≥ e.expires_at)) t.dedupe), rfl, ?_,
    fun j hj => hnew j _ hj ?_ rfl⟩
  · rw [heq]
    exact holds_set_self (victim_spec _ _ hne).1
  · exact lt_add_of_pos_right n hsized.lifetime_pos

/-- What `rns_transport_expire` leaves in the duplicate table. -/
theorem holds_dedupe_expire {t : State} {now : Option ℚ} {i : ℕ} {e : DedupeEntry} :
    Holds (expire t now).2.dedupe i e ↔
      Holds t.dedupe i e ∧ ∀ n, now = some n → n < e.expires_at := by
  rcases now with _ | n
  · simp [expire]
  · simp [expire, holds_sweep]

namespace Node

theorem init_transport {config : NodeConfig} {node : Node} (h : Node.init config = some node) :
    Transport.init config.transport = some node.transport := by
  unfold Node.init at h
  split_ifs at h
  cases ht : Transport.init config.transport with
  | none => simp [ht] at h
  | some t =>
    simp only [ht, some.injEq] at h
    rw [← h]

/-- A forwarding decision that was not sent is rolled back. -/
theorem completeForward_false (node : Node) {result : NodeResult} (h : result.action = .forward) :
    (node.completeForward result false).1 =
      (transactionRollback node.transport result.transport_transaction).1 ∧
    (node.completeForward result false).2.1 =
      { node with transport :=
          (transactionRollback node.transport result.transport_transaction).2.1 } := by
  simp [completeForward, h]

end Node

/-- In every reachable state, undoing a forwarding decision succeeds; it restores the tables, apart
from entries that had expired when the packet came in, so that a retransmission is decided as the
packet was, if and only if the packet is addressed to a link. A retransmission of any other packet
is dropped as a duplicate for as long as packet hashes are remembered. -/
theorem rollback_exact_iff (crypto : Crypto) {config : NodeConfig} {node₀ : Node}
    (h : Node.init config = some node₀) (calls : List NodeCall) (raw : List UInt8)
    (received_interface_id : UInt64) (interface_gravity : Int32) (output : Option ℕ)
    (clock : ℕ → Option ℚ)
    (hforward : ((Run.final (nodeStep crypto) node₀ calls).ingress crypto raw received_interface_id
      interface_gravity output clock).1.action = .forward)
    (hclock : ∀ m n, clock 0 = some m → clock 1 = some n → m ≤ n) :
    let node := Run.final (nodeStep crypto) node₀ calls
    let decided := node.ingress crypto raw received_interface_id interface_gravity output clock
    let undone := decided.2.completeForward decided.1 false
    undone.1 = true ∧
    (((expire undone.2.1.transport (clock 0)).2 = (expire node.transport (clock 0)).2 ∧
      ∀ clock', undone.2.1.ingress crypto raw received_interface_id interface_gravity output clock' =
        node.ingress crypto raw received_interface_id interface_gravity output clock') ↔
      (Packet.decode raw).map Packet.destination_type = some 3) ∧
    ((Packet.decode raw).map Packet.destination_type ≠ some 3 → ∀ n m clock', clock 1 = some n →
      clock' 1 = some m → m < n + node.transport.config.dedupe_lifetime →
      (undone.2.1.ingress crypto raw received_interface_id interface_gravity output
        clock').1.action = .drop ∧
      (undone.2.1.ingress crypto raw received_interface_id interface_gravity output
        clock').1.reason = .duplicate) := by
  intro node decided undone
  have hsized : Sized node.transport :=
    Run.invariant (fun node call hs _ => nodeStep_sized crypto node call hs)
      (init_sized (Node.init_transport h)) (Run.each_true calls)
  obtain ⟨hok, hback⟩ := decided.2.completeForward_false hforward
  obtain ⟨packet, packet_hash, hdecode, ⟨hlink, i, e, e', hi, hnode, htr⟩ |
    ⟨hother, haccept, hdedupe, hfits, hagain⟩⟩ := Node.ingress_forward hsized rfl hforward
  · -- The transaction saved the one slot that was written, so the node is the one before.
    have hroll : transactionRollback decided.2.transport decided.1.transport_transaction =
        (true, node.transport, .none) := by
      rw [show decided.2 = _ from hnode, show decided.1.transport_transaction = _ from htr]
      exact transactionRollback_link _ hsized hi
    have hsame : undone.2.1 = node := by
      rw [show undone.2.1 = _ from hback, hroll, show decided.2 = _ from hnode]
    have htype : (Packet.decode raw).map Packet.destination_type = some 3 := by
      rw [hdecode, map_some, hlink]
    refine ⟨by rw [show undone.1 = _ from hok, hroll], ?_, fun hne => absurd htype hne⟩
    rw [hsame]
    exact iff_of_true ⟨rfl, fun _ => rfl⟩ htype
  · -- The entry of the hash stays, and it was not in the table before.
    have htype : (Packet.decode raw).map Packet.destination_type ≠ some 3 := by
      rw [hdecode, map_some]
      exact fun heq => hother (some.inj heq)
    obtain ⟨⟨t', ht', hmoved⟩, -⟩ := Node.ingress_handled crypto node raw received_interface_id
      interface_gravity output clock
    have hsized' : Sized decided.2.transport := by
      rw [show decided.2 = _ from hmoved]
      exact hsized.of_shape ht'
    obtain ⟨n, i, hn, hin, hout⟩ := holds_acceptPacketHash hsized haccept
    have hstays : Holds undone.2.1.transport.dedupe i
        ⟨packet_hash, n, n + node.transport.config.dedupe_lifetime⟩ := by
      rw [show undone.2.1 = _ from hback]
      rw [dedupe_transactionRollback, show decided.2.transport.dedupe = _ from hdedupe]
      exact hin
    refine ⟨(show undone.1 = _ from hok).trans ?_, ?_, ?_⟩
    · -- The rollback of a transaction that fits succeeds.
      generalize decided.1.transport_transaction = tr at hfits
      cases tr with
      | none => rfl
      | reverse slot previous =>
        have hlt : slot < _ := hfits.trans_eq hsized'.reverse_length
        simp [transactionRollback, not_le.2 hlt]
      | link slot previous =>
        have hlt : slot < _ := hfits.trans_eq hsized'.links_length
        simp [transactionRollback, not_le.2 hlt]
    · refine iff_of_false (fun hboth => ?_) htype
      have hlive : Holds (expire undone.2.1.transport (clock 0)).2.dedupe i
          ⟨packet_hash, n, n + node.transport.config.dedupe_lifetime⟩ :=
        holds_dedupe_expire.2 ⟨hstays, fun m hm =>
          (hclock m n hm hn).trans_lt (lt_add_of_pos_right n hsized.lifetime_pos)⟩
      rw [hboth.1] at hlive
      exact hout i (holds_dedupe_expire.1 hlive).1
    · intro _ n' m clock' hn' hm hlt
      obtain rfl : n' = n := some.inj (hn'.symm.trans hn)
      have hrefused : (acceptPacketHash undone.2.1.transport (clock' 1) packet_hash).1 = false := by
        rw [hm]
        rcases acceptPacketHash_cases undone.2.1.transport m packet_hash with ⟨-, heq⟩ | ⟨hnew, -⟩
        · rw [heq]
        · exact absurd rfl (hnew i _ hstays hlt)
      have hundone : undone.2.1 = { node with transport := undone.2.1.transport } := by
        rw [show undone.2.1 = _ from hback, show decided.2 = _ from hmoved]
      rw [hundone]
      exact hagain undone.2.1.transport clock' hrefused

/-- Primitives to run a node with: a digest that keeps the first 32 bytes, and signatures that are
all valid. -/
def plainCrypto : Crypto :=
  { sha256 := ofList 32
    ed25519Verify := fun _ _ _ => true }

/-- A node with a small transport. -/
def smallNodeConfig : NodeConfig :=
  { transport := smallConfig
    transport_id := ofList 16 [1]
    path_request_destination := ofList 16 [2]
    max_hops := 128
    local_destination_capacity := 1 }

/-- The node that `rns_node_init` makes of `smallNodeConfig`. -/
def smallNode : Node :=
  { transport := smallTransport
    transport_id := ofList 16 [1]
    path_request_destination := ofList 16 [2]
    max_hops := 128
    local_destinations := []
    local_destination_capacity := 1 }

theorem init_smallNodeConfig : Node.init smallNodeConfig = some smallNode := by
  rfl

/-- A path over interface 7, one hop long, to the destination of the packets below. -/
def pathToSeven : Announced :=
  { destination_hash := ofList 16 [9]
    next_hop := ofList 16 [9]
    interface_id := 7
    interface_gravity := 0
    hops := 1
    random_blob := zero 10
    packet_hash := zero 32 }

/-- A data packet of one byte for that destination. -/
def dataPacket : List UInt8 := [0, 0] ++ (ofList 16 [9]).bytes ++ [0, 1]

/-- A link request for that destination. -/
def linkRequestPacket : List UInt8 :=
  [2, 0] ++ (ofList 16 [9]).bytes ++ [0] ++ replicate 67 0

/-- The proof that answers the link request: its link id is what `plainCrypto` makes of it. -/
def linkProofPacket : List UInt8 :=
  [0x0f, 0] ++ (ofList 16 [2, 9]).bytes ++ [0xff] ++ replicate 99 0

/-- A link proof that could not be sent is undone, and a retransmission is decided as it was. -/
theorem rollback_exact_iff_linkProof :
    let node := Run.final (nodeStep plainCrypto) smallNode
      [.path (.considerAnnounce (some 0) pathToSeven),
       .path (.setPathIdentity (some 0) (ofList 16 [9]) (zero 64)),
       .ingress linkRequestPacket 5 0 (some 500) fun _ => some 1]
    let decided := node.ingress plainCrypto linkProofPacket 7 0 (some 500) fun _ => some 2
    let undone := decided.2.completeForward decided.1 false
    decided.1.action = .forward ∧ undone.1 = true ∧
      ∀ clock, undone.2.1.ingress plainCrypto linkProofPacket 7 0 (some 500) clock =
        node.ingress plainCrypto linkProofPacket 7 0 (some 500) clock := by
  intro node decided undone
  have hforward : decided.1.action = .forward := by decide +kernel
  obtain ⟨hok, hiff, -⟩ := rollback_exact_iff plainCrypto init_smallNodeConfig
    [.path (.considerAnnounce (some 0) pathToSeven),
     .path (.setPathIdentity (some 0) (ofList 16 [9]) (zero 64)),
     .ingress linkRequestPacket 5 0 (some 500) fun _ => some 1]
    linkProofPacket 7 0 (some 500) (fun _ => some 2) hforward
    (fun m n hm hn => (some.inj (hm.symm.trans hn)).le)
  exact ⟨hforward, hok, (hiff.2 (by decide +kernel)).2⟩

/-- A data packet that could not be sent is not undone: its hash stays in the duplicate table, which
was empty, and the retransmission a second later is dropped. -/
theorem retransmission_dropped :
    let node := Run.final (nodeStep plainCrypto) smallNode
      [.path (.considerAnnounce (some 0) pathToSeven)]
    let decided := node.ingress plainCrypto dataPacket 5 0 (some 500) fun _ => some 1
    let undone := decided.2.completeForward decided.1 false
    let again := undone.2.1.ingress plainCrypto dataPacket 5 0 (some 500) fun _ => some 2
    Node.init smallNodeConfig = some smallNode ∧ decided.1.action = .forward ∧ undone.1 = true ∧
      node.transport.dedupe = [none, none] ∧
      undone.2.1.transport.dedupe = [some ⟨decided.1.packet_hash, 1, 101⟩, none] ∧
      again.1.action = .drop ∧ again.1.reason = .duplicate := by
  refine ⟨init_smallNodeConfig, ?_⟩
  decide +kernel

end Reticulum.Transport
