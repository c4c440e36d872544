import Reticulum.PacketIdentity
import Reticulum.Transport.Dedupe
import Reticulum.Transport.Node
import Reticulum.Transport.Paths

/-!
# What a node does with a packet

A packet changes nothing of a node but the contents of the tables of its transport (`Moved`), and
what the node sends on, if anything, is a copy of the packet with one hop more (`SendsCopy`). One
lemma per handler says both, and `ingress_handled` says it of `rns_node_ingress`.
-/

namespace Reticulum.Transport

open Slots

/-! ## The shape of a transport

No call changes the configuration or the number of slots of a table. -/

/-- The configuration of a transport and the sizes of the tables that forwarding writes. -/
def State.shape (t : State) : Config × ℕ × ℕ × ℕ :=
  (t.config, t.dedupe.length, t.reverse_paths.length, t.links.length)

variable (t : State) (now : Option ℚ)

/-- A hash is accepted or refused in tables of the same size. -/
theorem shape_acceptPacketHash (packet_hash : Octets 32) :
    (acceptPacketHash t now packet_hash).2.shape = t.shape := by
  rcases now with _ | now
  · rfl
  rcases acceptPacketHash_cases t now packet_hash with ⟨-, h⟩ | ⟨-, h⟩
  · simp [h, State.shape, length_dedupeScan]
  · simp [h, State.shape]

/-- A lookup of a path frees a slot at most. -/
theorem shape_lookup (d : Octets 16) : (lookup t now d).2.shape = t.shape := by
  rcases lookup_cases t now d with ⟨i, e, -, h⟩ | h | ⟨i, h⟩ <;>
    simp [h, State.shape]

/-- A change of a path is in its slot. -/
theorem shape_updatePath (d : Octets 16) (change : PathEntry → PathEntry) :
    (updatePath t now d change).2.shape = t.shape := by
  rcases updatePath_cases t now d change with ⟨i, e, -, h⟩ | h
  · rw [h]; rfl
  · rw [h]; exact shape_lookup t now d

/-- An announce is written to a slot. -/
theorem shape_considerAnnounce (a : Announced) : (considerAnnounce t now a).2.shape = t.shape := by
  rcases considerAnnounce_cases t now a with h | ⟨n, i, e, old, -, -, -, -, h⟩ | ⟨n, -, -, h⟩ <;>
    simp [h, State.shape]

/-- Every call on the path table keeps the shape. -/
theorem shape_pathStep (call : PathCall) : (pathStep t call).shape = t.shape := by
  cases call with
  | considerAnnounce now a => exact shape_considerAnnounce t now a
  | markUnresponsive now d => exact shape_updatePath t now d _
  | setPathIdentity now d key => exact shape_updatePath t now d _
  | lookup now d => exact shape_lookup t now d
  | expire now => cases now <;> simp [pathStep, expire, State.shape]

/-! ## What the calls on routes do -/

/-- A reverse path is recorded as a new entry in the slot that the transaction saves, a slot of the
table. -/
theorem recordReverseTransaction_eq_some {t t' : State} {now : Option ℚ} {packet_hash : Octets 32}
    {received outbound : UInt64} {tr : Transaction}
    (h : recordReverseTransaction t now packet_hash received outbound = some (t', tr)) :
    ∃ i n, now = some n ∧ (t.reverse_paths ≠ [] → i < t.reverse_paths.length) ∧
      t' = { t with reverse_paths := t.reverse_paths.set i (some ⟨truncatedHash packet_hash,
        received, outbound, n, n + t.config.reverse_lifetime⟩) } ∧
      tr = .reverse i (t.reverse_paths[i]?.join) := by
  rcases now with _ | now
  · cases h
  · cases h
    exact ⟨_, now, rfl, fun hne => (victim_spec _ _ hne).1, rfl, rfl⟩

/-- A link request is recorded as an entry of its link that lives until the deadline of its proof,
in the slot that the transaction saves, a slot of the table. -/
theorem recordLinkRequestTransaction_eq_some {t t' : State} {now : Option ℚ} {link_id : Octets 16}
    {path : PathEntry} {received : UInt64} {hops : UInt8} {tr : Transaction}
    (h : recordLinkRequestTransaction t now link_id path received hops = some (t', tr)) :
    ∃ i e n, now = some n ∧ (t.links ≠ [] → i < t.links.length) ∧
      t' = { t with links := t.links.set i (some e) } ∧ tr = .link i (t.links[i]?.join) ∧
      e.link_id = link_id ∧
      e.deadline = n + path.hops.toNat * t.config.link_proof_timeout_per_hop := by
  unfold recordLinkRequestTransaction at h
  split at h
  · rename_i key n hkey
    cases h
    exact ⟨_, _, n, rfl, fun hne => (victim_spec _ _ hne).1, rfl, rfl, rfl,
      by simp [LinkEntry.deadline]⟩
  · cases h

/-- The outcomes of `rns_transport_link_lookup`: an entry of the table, which stays as it is, or
nothing, and then at most one slot is freed, that of a dead entry. -/
theorem linkLookup_cases (link_id : Octets 16) :
    (∃ i e, Holds t.links i e ∧ linkLookup t now link_id = (some (i, e), t)) ∨
    linkLookup t now link_id = (none, t) ∨
    ∃ n i e, now = some n ∧ Holds t.links i e ∧ e.deadline ≤ n ∧
      linkLookup t now link_id = (none, { t with links := t.links.set i none }) := by
  rcases now with _ | now
  · exact .inr (.inl rfl)
  cases hf : find (fun e : LinkEntry => decide (e.link_id = link_id)) t.links with
  | none => exact .inr (.inl (by simp [linkLookup, hf]))
  | some x =>
    obtain ⟨i, e⟩ := x
    by_cases hdead : now ≥ e.deadline
    · exact .inr (.inr ⟨now, i, e, rfl, (find_eq_some hf).1, hdead,
        by simp [linkLookup, hf, hdead]⟩)
    · exact .inl ⟨i, e, (find_eq_some hf).1, by simp [linkLookup, hf, hdead]⟩

/-- What a route over a link does: a match rewrites the slot of the link, which the transaction
saves with what it held; otherwise nothing is saved and the transport is as the lookup left it. -/
def LinkRouted (t : State) (now : Option ℚ) (link_id : Octets 16)
    (outcome : LinkRouteResult × State × Transaction) : Prop :=
  (∃ f i e e', outcome.1 = .matched f ∧ Holds t.links i e ∧
    outcome.2 = ({ t with links := t.links.set i (some e') }, .link i (some e))) ∨
  ((∀ f, outcome.1 ≠ .matched f) ∧ outcome.2 = ((linkLookup t now link_id).2, .none))

section

variable (crypto : Crypto) (t : State) (now now' : Option ℚ)
    (link_id : Octets 16) (proof : List UInt8)

/-- The outcomes of `rns_transport_accept_link_proof`: the entry that the lookup returns is
validated, or the transport is as the lookup left it. -/
theorem acceptLinkProofTransaction_cases (ingress_interface_id : UInt64) (hops : UInt8) :
    let outcome :=
      acceptLinkProofTransaction crypto t now now' link_id proof ingress_interface_id hops
    (∃ i e n, linkLookup t now link_id = (some (i, e), t) ∧ Holds t.links i e ∧
      e.validated = false ∧ now' = some n ∧
      outcome = (.matched e.received_interface_id,
        { t with
          links := t.links.set i (some { e with
            validated := true
            updated_at := some n
            expires_at := n + t.config.link_lifetime }) },
        .link i (some e))) ∨
    ((∀ f, outcome.1 ≠ .matched f) ∧ outcome.2 = ((linkLookup t now link_id).2, .none)) := by
  unfold acceptLinkProofTransaction
  rcases linkLookup_cases t now link_id with ⟨i, e, hi, hl⟩ | hl | ⟨n, i, e, -, -, -, hl⟩
  · simp only [hl]
    split_ifs with hvalidated
    iterate 5
      · exact .inr ⟨nofun, rfl⟩
    · rcases now' with _ | n
      · exact .inr ⟨nofun, rfl⟩
      · exact .inl ⟨i, e, n, rfl, hi, by simpa using hvalidated, rfl, rfl⟩
  all_goals
    simp only [hl]
    exact .inr ⟨nofun, trivial⟩

/-- A proof that is accepted routes over its link. -/
theorem acceptLinkProofTransaction_routed (ingress_interface_id : UInt64) (hops : UInt8) :
    LinkRouted t now link_id
      (acceptLinkProofTransaction crypto t now now' link_id proof ingress_interface_id hops) := by
  obtain ⟨i, e, n, -, hi, -, -, heq⟩ | h := acceptLinkProofTransaction_cases crypto t now now'
    link_id proof ingress_interface_id hops
  · rw [heq]
    exact .inl ⟨_, i, e, _, rfl, hi, rfl⟩
  · exact .inr h

end

/-- The outcomes of `rns_transport_route_link`: the entry that the lookup returns gets a new time of
its last packet, or the transport is as the lookup left it. -/
theorem routeLinkTransaction_cases (t : State) (now now' : Option ℚ) (link_id : Octets 16)
    (ingress_interface_id : UInt64) (hops : UInt8) :
    let outcome := routeLinkTransaction t now now' link_id ingress_interface_id hops
    (∃ i e f, Holds t.links i e ∧ outcome = (.matched f, { t with
      links := t.links.set i (some { e with updated_at := now' }) }, .link i (some e))) ∨
    ((∀ f, outcome.1 ≠ .matched f) ∧ outcome.2 = ((linkLookup t now link_id).2, .none)) := by
  unfold routeLinkTransaction
  rcases linkLookup_cases t now link_id with ⟨i, e, hi, hl⟩ | hl | ⟨n, i, e, -, -, -, hl⟩
  · simp only [hl]
    split_ifs
    · exact .inr ⟨nofun, rfl⟩
    rcases linkDirection e ingress_interface_id with _ | ⟨expected, forward⟩
    · exact .inr ⟨nofun, rfl⟩
    · dsimp only
      split_ifs
      · exact .inr ⟨nofun, rfl⟩
      · exact .inl ⟨i, e, forward, hi, rfl⟩
  all_goals
    simp only [hl]
    exact .inr ⟨nofun, trivial⟩

/-- So does a packet on a link. -/
theorem routeLinkTransaction_routed (now' : Option ℚ) (link_id : Octets 16)
    (ingress_interface_id : UInt64) (hops : UInt8) : LinkRouted t now link_id
      (routeLinkTransaction t now now' link_id ingress_interface_id hops) := by
  obtain ⟨i, e, f, hi, heq⟩ | h := routeLinkTransaction_cases t now now' link_id
    ingress_interface_id hops
  · rw [heq]
    exact .inl ⟨f, i, e, _, rfl, hi, rfl⟩
  · exact .inr h

/-- Consuming a reverse entry frees at most one slot of the reverse table. -/
theorem consumeReverse_eq (packet_hash : Octets 16) (ingress_interface_id : UInt64) :
    (consumeReverse t now packet_hash ingress_interface_id).2 = t ∨
    ∃ i, (consumeReverse t now packet_hash ingress_interface_id).2 =
      { t with reverse_paths := t.reverse_paths.set i none } := by
  unfold consumeReverse
  rcases now with _ | now
  · exact .inl rfl
  · dsimp only
    split
    · exact .inl rfl
    · split_ifs <;> exact .inr ⟨_, rfl⟩

/-- A reverse path is consumed in its slot. -/
theorem shape_consumeReverse (packet_hash : Octets 16) (ingress_interface_id : UInt64) :
    (consumeReverse t now packet_hash ingress_interface_id).2.shape = t.shape := by
  rcases consumeReverse_eq t now packet_hash ingress_interface_id with h | ⟨i, h⟩ <;>
    simp [h, State.shape]

/-- A lookup of a link frees a slot at most. -/
theorem shape_linkLookup (link_id : Octets 16) : (linkLookup t now link_id).2.shape = t.shape := by
  rcases linkLookup_cases t now link_id with ⟨i, e, -, h⟩ | h | ⟨n, i, e, -, -, -, h⟩ <;>
    simp [h, State.shape]

/-- A route over a link keeps the shape. -/
theorem LinkRouted.shape_eq {t : State} {now : Option ℚ} {link_id : Octets 16}
    {outcome : LinkRouteResult × State × Transaction} (h : LinkRouted t now link_id outcome) :
    outcome.2.1.shape = t.shape := by
  rcases h with ⟨f, i, e, e', -, -, h⟩ | ⟨-, h⟩
  · simp [h, State.shape]
  · rw [h]
    exact shape_linkLookup t now link_id

/-- A rollback writes one slot. -/
theorem shape_transactionRollback (tr : Transaction) :
    (transactionRollback t tr).2.1.shape = t.shape := by
  cases tr with
  | none => rfl
  | reverse slot previous | link slot previous =>
    simp only [transactionRollback]
    split_ifs <;> simp [State.shape]

/-- The slot that a transaction saves is a slot of its table. -/
def Transaction.Fits (t : State) : Transaction → Prop
  | .none => True
  | .reverse slot _ => slot < t.reverse_paths.length
  | .link slot _ => slot < t.links.length

/-! ## Copies -/

/-- A copy of the packet, one hop further on. -/
structure Copy (packet copy : Packet) : Prop extends Packet.Same packet copy where
  hops : copy.hops = packet.hops + 1

/-- The node sends the output on. -/
def NodeAction.sendsOn : NodeAction → Bool
  | .forward | .rebroadcast => true
  | .drop | .deliver | .pathResponse => false

namespace Node

variable {crypto : Crypto} {node : Node} {packet : Packet} {received_interface_id : UInt64}
  {interface_gravity : Int32} {output : Option ℕ} {clock : ℕ → Option ℚ} {result : NodeResult}

/-- What is sent on, if anything, is a copy of the packet, encoded. -/
def SendsCopy (packet : Packet) (result : NodeResult) : Prop :=
  result.action.sendsOn = true →
    ∃ copy capacity, Copy packet copy ∧ copy.encode capacity = some result.output

/-- What `encode_forward` wrote is the encoding. -/
theorem encodeForward_ok {r : NodeResult} (h : encodeForward packet output result = .ok r) :
    ∃ capacity, packet.encode capacity = some r.output := by
  unfold encodeForward at h
  rcases output with _ | capacity
  · cases h
  · rcases hencoded : packet.encode capacity with _ | bytes
    · simp [hencoded] at h
    · simp only [hencoded] at h
      cases h
      exact ⟨capacity, hencoded⟩

/-- What is copied to the output buffer is the encoding. -/
theorem encodeBuffered_eq_some {bytes : List UInt8}
    (h : encodeBuffered packet output = some bytes) : packet.encode mtu = some bytes := by
  unfold encodeBuffered at h
  rcases output with _ | capacity
  · cases h
  · rcases hencoded : packet.encode mtu with _ | encoded
    · simp [hencoded] at h
    · simp only [hencoded] at h
      split_ifs at h
      exact h

/-- The packet with one hop more, whatever its header says, is a copy. -/
theorem copy_of_hops (packet : Packet) : Copy packet { packet with hops := packet.hops + 1 } :=
  ⟨⟨rfl, rfl, rfl, rfl, rfl, rfl⟩, rfl⟩

/-- A packet that does not fit the output buffer is dropped. -/
theorem encodeForward_error {r : NodeResult} (h : encodeForward packet output result = .error r) :
    r.action = .drop := by
  unfold encodeForward at h
  split at h
  · cases h; rfl
  · split at h
    · cases h; rfl
    · cases h

/-! ## What the handlers do -/

/-- The second node is the first with a transport of the same shape. -/
def Moved (node node' : Node) : Prop :=
  ∃ t : State, t.shape = node.transport.shape ∧ node' = { node with transport := t }

/-- A node that nothing happened to. -/
theorem Moved.refl (node : Node) : Moved node node := ⟨node.transport, rfl, rfl⟩

/-- One change of the tables after another. -/
theorem Moved.trans {a b c : Node} (hab : Moved a b) (hbc : Moved b c) : Moved a c := by
  obtain ⟨t, ht, rfl⟩ := hab
  obtain ⟨t', ht', rfl⟩ := hbc
  exact ⟨t', ht'.trans ht, rfl⟩

/-- A node with the transport that a call left. -/
theorem Moved.of_eq (node : Node) {α : Type} {x : α × State} {a : α} {t : State} (h : x = (a, t))
    (hshape : x.2.shape = node.transport.shape) : Moved node { node with transport := t } := by
  subst h
  exact ⟨t, hshape, rfl⟩

/-- A handler changes nothing of the node but the contents of its transport's tables, and what it
sends on is a copy of the packet; its action is then always the same. -/
structure Handled (sends : NodeAction) (packet : Packet) (node : Node)
    (outcome : NodeResult × Node) : Prop where
  moved : Moved node outcome.2
  action : outcome.1.action.sendsOn = true → outcome.1.action = sends
  copy : SendsCopy packet outcome.1

section Handled

variable {sends : NodeAction} {node' : Node} {r : NodeResult}

section

variable (hmoved : Moved node node')
include hmoved

/-- The handler sends nothing on. -/
theorem Handled.quiet (h : r.action.sendsOn = false) : Handled sends packet node (r, node') :=
  ⟨hmoved, fun hsent => by simp [h] at hsent, fun hsent => by simp [h] at hsent⟩

/-- The handler drops the packet. -/
theorem Handled.drop {reason : NodeReason} :
    Handled sends packet node (Node.drop r reason, node') :=
  .quiet hmoved rfl

/-- The handler sends a copy on. -/
theorem Handled.sent {copy : Packet} {capacity : ℕ}
    (haction : r.action = sends) (hencoded : copy.encode capacity = some r.output)
    (hcopy : Copy packet copy) : Handled sends packet node (r, node') :=
  ⟨hmoved, fun _ => haction, fun _ => ⟨copy, capacity, hcopy, hencoded⟩⟩

/-- What a handler does after a call on the transport. -/
theorem Handled.after {outcome : NodeResult × Node}
    (h : Handled sends packet node' outcome) : Handled sends packet node outcome :=
  ⟨hmoved.trans h.moved, h.action, h.copy⟩

end

/-- A handler that sends packets on otherwise never forwards. -/
theorem Handled.not_forward {outcome : NodeResult × Node}
    (h : Handled .rebroadcast packet node outcome) : outcome.1.action ≠ .forward := fun hforward => by
  have haction := h.action (by rw [hforward]; rfl)
  rw [hforward] at haction
  cases haction

end Handled

/-- An announce is at most rebroadcast. -/
theorem admitAnnounce_handled {announce : Announce} {new_packet_hash : Bool} :
    Handled .rebroadcast packet node (admitAnnounce crypto node packet announce new_packet_hash
      received_interface_id interface_gravity output clock result) := by
  unfold admitAnnounce
  dsimp only
  split
  · rename_i t₁ hupdate
    exact .drop (.of_eq _ hupdate (shape_considerAnnounce ..))
  rename_i update t₁ _ hupdate
  have hconsidered := Moved.of_eq node hupdate (shape_considerAnnounce ..)
  split
  · rename_i t₂ hset
    exact .drop (hconsidered.trans (.of_eq _ hset (shape_updatePath ..)))
  rename_i t₂ hset
  have hmoved := hconsidered.trans (.of_eq _ hset (shape_updatePath ..))
  split
  · rename_i r hr
    exact .quiet hmoved (by rw [encodeForward_error hr]; rfl)
  · rename_i r hr
    obtain ⟨capacity, hencoded⟩ := encodeForward_ok hr
    exact .sent hmoved rfl hencoded ⟨⟨rfl, rfl, rfl, rfl, rfl, rfl⟩, rfl⟩

/-- An announce that comes in is at most rebroadcast. -/
theorem handleAnnounce_handled :
    Handled .rebroadcast packet node (handleAnnounce crypto node packet received_interface_id
      interface_gravity output clock result) := by
  unfold handleAnnounce
  split
  · exact .drop (.refl node)
  split_ifs
  · exact .drop (.refl node)
  split
  · rename_i t₁ haccept
    exact .after (.of_eq _ haccept (shape_acceptPacketHash ..)) admitAnnounce_handled
  rename_i t₁ haccept
  have haccepted := Moved.of_eq node haccept (shape_acceptPacketHash ..)
  split
  · rename_i t₂ hlookup
    exact .drop (haccepted.trans (.of_eq _ hlookup (shape_lookup ..)))
  rename_i i current t₂ hlookup
  have hmoved := haccepted.trans (.of_eq _ hlookup (shape_lookup ..))
  split_ifs
  · exact .drop hmoved
  · exact .after hmoved admitAnnounce_handled

/-- A path request is never sent on. -/
theorem handlePathRequest_handled {sends : NodeAction} :
    Handled sends packet node (handlePathRequest node packet clock result) := by
  unfold handlePathRequest
  split
  · exact .drop (.refl node)
  split_ifs
  · exact .quiet (.refl node) rfl
  split
  · rename_i t₁ hlookup
    exact .drop (.of_eq _ hlookup (shape_lookup ..))
  · rename_i t₁ hlookup
    exact .quiet (.of_eq _ hlookup (shape_lookup ..)) rfl

/-- A packet for a link, be it a proof or not, is routed over it. -/
theorem linkRoute_routed (crypto : Crypto) (t : State) (packet : Packet)
    (received_interface_id : UInt64) (clock : ℕ → Option ℚ) :
    LinkRouted t (clock 1) packet.destination_hash
      (linkRoute crypto t packet received_interface_id clock) := by
  unfold linkRoute
  split_ifs
  · exact acceptLinkProofTransaction_routed ..
  · exact routeLinkTransaction_routed ..

/-- A packet for a link is forwarded or dropped. -/
theorem handleLinkPacket_handled :
    Handled .forward packet node (handleLinkPacket crypto node packet received_interface_id output
      clock result) := by
  have hrouted := (linkRoute_routed crypto node.transport packet received_interface_id clock).shape_eq
  unfold handleLinkPacket
  split_ifs
  · exact .drop (.refl node)
  split
  · exact .drop (.refl node)
  rename_i encoded hencoded
  split
  · rename_i f t₁ tr hroute
    rw [hroute] at hrouted
    exact .sent ⟨t₁, hrouted, rfl⟩ rfl (encodeBuffered_eq_some hencoded) (copy_of_hops packet)
  · rename_i other t₁ tr _ hroute
    rw [hroute] at hrouted
    exact .drop ⟨t₁, hrouted, rfl⟩

/-- A proof is forwarded to where its packet came from, or dropped. -/
theorem handleOrdinaryProof_handled :
    Handled .forward packet node (handleOrdinaryProof node packet received_interface_id output clock
      result) := by
  unfold handleOrdinaryProof
  split_ifs
  · exact .drop (.refl node)
  dsimp only
  split
  · exact .drop (.refl node)
  rename_i encoded hencoded
  split
  · rename_i t₁ haccept
    exact .drop (.of_eq _ haccept (shape_acceptPacketHash ..))
  rename_i t₁ haccept
  have haccepted := Moved.of_eq node haccept (shape_acceptPacketHash ..)
  split
  · rename_i t₂ hconsume
    exact .drop (haccepted.trans (.of_eq _ hconsume (shape_consumeReverse ..)))
  · rename_i t₂ hconsume
    exact .drop (haccepted.trans (.of_eq _ hconsume (shape_consumeReverse ..)))
  · rename_i f t₂ hconsume
    exact .sent (haccepted.trans (.of_eq _ hconsume (shape_consumeReverse ..))) rfl
      (encodeBuffered_eq_some hencoded) (copy_of_hops packet)

/-- What `handle_routed` records is in one slot, which the transaction saves, and leaves the
duplicate table alone. -/
theorem recordRouted_eq_some {t t' : State} {path : PathEntry} {tr : Transaction}
    (h : recordRouted crypto t packet path received_interface_id clock result = some (t', tr)) :
    t'.dedupe = t.dedupe ∧ t'.shape = t.shape ∧
      (t.reverse_paths ≠ [] → t.links ≠ [] → tr.Fits t') := by
  unfold recordRouted at h
  split_ifs at h
  · split at h
    · cases h
    · obtain ⟨i, e, -, -, hlt, rfl, rfl, -⟩ := recordLinkRequestTransaction_eq_some h
      exact ⟨rfl, by simp [State.shape],
        fun _ hlinks => by simpa [Transaction.Fits] using hlt hlinks⟩
  · obtain ⟨i, -, -, hlt, rfl, rfl⟩ := recordReverseTransaction_eq_some h
    exact ⟨rfl, by simp [State.shape],
      fun hreverse _ => by simpa [Transaction.Fits] using hlt hreverse⟩

/-- A packet with a path is forwarded along it, or dropped. -/
theorem handleRouted_handled :
    Handled .forward packet node (handleRouted crypto node packet received_interface_id output clock
      result) := by
  unfold handleRouted
  split
  · rename_i t₁ hlookup
    exact .drop (.of_eq _ hlookup (shape_lookup ..))
  rename_i i path t₁ hlookup
  have hmoved := Moved.of_eq node hlookup (shape_lookup ..)
  split_ifs
  · exact .drop hmoved
  split
  · rename_i r hr
    exact .quiet hmoved (by rw [encodeForward_error hr]; rfl)
  rename_i r hr
  dsimp only
  split
  · exact .drop hmoved
  · rename_i t₂ tr hrecord
    obtain ⟨capacity, hencoded⟩ := encodeForward_ok hr
    refine .sent (hmoved.trans ⟨t₂, (recordRouted_eq_some hrecord).2.1, rfl⟩) rfl hencoded ?_
    unfold routedPacket
    split_ifs
    all_goals exact ⟨⟨rfl, rfl, rfl, rfl, rfl, rfl⟩, rfl⟩

/-- A packet for the network is forwarded, dropped or a path request. -/
theorem handleNetwork_handled :
    Handled .forward packet node (handleNetwork crypto node packet received_interface_id output clock
      result) := by
  unfold handleNetwork
  split
  · rename_i t₁ haccept
    exact .drop (.of_eq _ haccept (shape_acceptPacketHash ..))
  · rename_i t₁ haccept
    have hmoved := Moved.of_eq node haccept (shape_acceptPacketHash ..)
    split_ifs
    · exact .after hmoved handlePathRequest_handled
    · exact .after hmoved handleRouted_handled

/-- A packet changes nothing of a node but the contents of its transport's tables, and what is sent
on is a copy of it. -/
theorem ingress_handled (crypto : Crypto) (node : Node) (raw : List UInt8)
    (received_interface_id : UInt64) (interface_gravity : Int32) (output : Option ℕ)
    (clock : ℕ → Option ℚ) :
    let outcome := node.ingress crypto raw received_interface_id interface_gravity output clock
    Moved node outcome.2 ∧ ∀ packet, Packet.decode raw = some packet → SendsCopy packet outcome.1 := by
  unfold ingress
  cases hdecode : Packet.decode raw with
  | none => exact ⟨.refl node, nofun⟩
  | some packet =>
  rw [Packet.hash_of_decode crypto hdecode]
  dsimp only
  suffices h : ∃ sends, Handled sends packet node _ by
    obtain ⟨sends, h⟩ := h
    exact ⟨h.moved, fun _ heq => Option.some.inj heq ▸ h.copy⟩
  split_ifs
  · exact ⟨.forward, .drop (.refl node)⟩
  · exact ⟨_, handleOrdinaryProof_handled⟩
  · exact ⟨_, handleAnnounce_handled⟩
  · refine ⟨.forward, ?_⟩
    split
    · rename_i t₁ haccept
      exact .drop (.of_eq _ haccept (shape_acceptPacketHash ..))
    · rename_i t₁ haccept
      exact .quiet (.of_eq _ haccept (shape_acceptPacketHash ..)) rfl
  · exact ⟨_, handleLinkPacket_handled⟩
  · exact ⟨.forward, .drop (.refl node)⟩
  · exact ⟨_, handleNetwork_handled⟩

/-- Completing a forwarding decision changes at most the contents of the transport's tables. -/
theorem completeForward_moved (node : Node) (result : NodeResult) (sent : Bool) :
    Moved node (node.completeForward result sent).2.1 := by
  unfold completeForward
  split_ifs
  · exact .refl node
  · exact .refl node
  · exact ⟨_, shape_transactionRollback .., rfl⟩

end Node

end Reticulum.Transport
