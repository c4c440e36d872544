import Reticulum.Transport.Rollback

/-!
# Forwarding keeps the identity of a packet

A node that forwards or rebroadcasts a packet writes a copy of it that differs in the hop count, the
header type, the transport type and the transport id (`Copy`). `Packet.hash_of_decode` and
`Packet.linkId_of_decode` then give that the packet hash and the link id of a request are those of
the packet that came in, and by induction those of every copy along a chain of nodes.
-/

namespace Reticulum.Transport

namespace Node

variable {crypto : Crypto} {node : Node} {received_interface_id : UInt64}
  {interface_gravity : Int32} {output : Option ℕ} {clock : ℕ → Option ℚ}

/-- A packet that is sent on decodes and has hops left. -/
theorem ingress_hops_lt {raw : List UInt8}
    (h : (node.ingress crypto raw received_interface_id interface_gravity output
      clock).1.action.sendsOn = true) :
    ∃ packet, Packet.decode raw = some packet ∧ packet.hops < node.max_hops := by
  cases hdecode : Packet.decode raw with
  | none =>
    simp only [ingress, hdecode] at h
    cases h
  | some packet =>
    refine ⟨packet, rfl, ?_⟩
    by_contra hmax
    have hmax' : packet.hops ≥ node.max_hops := UInt8.not_lt.1 hmax
    simp only [ingress, hdecode, Packet.hash_of_decode crypto hdecode, hmax', if_true] at h
    cases h

end Node

/-- One node that a packet passes: its state and what the call of `rns_node_ingress` is given. -/
structure Passage where
  node : Node
  received_interface_id : UInt64
  interface_gravity : Int32
  output : Option ℕ
  clock : ℕ → Option ℚ

/-- What the node decides for a packet. -/
def Passage.result (crypto : Crypto) (passage : Passage) (raw : List UInt8) : NodeResult :=
  (passage.node.ingress crypto raw passage.received_interface_id passage.interface_gravity
    passage.output passage.clock).1

/-- Every node of the chain sends on what the node before it wrote, and the last one writes
`final`. -/
inductive Chain (crypto : Crypto) : List UInt8 → List Passage → List UInt8 → Prop
  | nil (raw : List UInt8) : Chain crypto raw [] raw
  | cons {raw final : List UInt8} {passage : Passage} {chain : List Passage}
    (hsent : (passage.result crypto raw).action.sendsOn = true)
    (hrest : Chain crypto (passage.result crypto raw).output chain final) :
    Chain crypto raw (passage :: chain) final

/-- What is read from the wire is a copy as well. -/
theorem Copy.onWire {packet copy : Packet} (h : Copy packet copy) : Copy packet copy.onWire :=
  { h with }

/-- The hop count of a copy does not wrap, because the node checked it against its limit. -/
theorem Copy.hops_toNat {packet copy : Packet} (h : Copy packet copy) {max_hops : UInt8}
    (hlt : packet.hops < max_hops) :
    copy.hops.toNat = packet.hops.toNat + 1 ∧ copy.hops ≤ max_hops := by
  have hmax := max_hops.toNat_lt
  rw [UInt8.lt_iff_toNat_lt] at hlt
  have hadd : copy.hops.toNat = packet.hops.toNat + 1 := by
    rw [h.hops, UInt8.toNat_add, UInt8.toNat_one, Nat.mod_eq_of_lt (by omega)]
  refine ⟨hadd, ?_⟩
  rw [UInt8.le_iff_toNat_le, hadd]
  omega

/-- One node: the output decodes to a copy of the packet with one hop more, at most `max_hops`, and
with the same packet hash and link id. -/
theorem Passage.keeps_identity {crypto : Crypto} {passage : Passage} {raw : List UInt8}
    (hsent : (passage.result crypto raw).action.sendsOn = true) :
    ∃ packet copy, Packet.decode raw = some packet ∧
      Packet.decode (passage.result crypto raw).output = some copy ∧ Copy packet copy ∧
      copy.hops.toNat = packet.hops.toNat + 1 ∧ copy.hops ≤ passage.node.max_hops ∧
      Packet.hash crypto (passage.result crypto raw).output = Packet.hash crypto raw ∧
      linkIdFromRequestPacket crypto (passage.result crypto raw).output =
        linkIdFromRequestPacket crypto raw := by
  obtain ⟨packet, hdecode, hlt⟩ := Node.ingress_hops_lt hsent
  obtain ⟨copy, capacity, hcopy, hencoded⟩ :=
    (Node.ingress_handled crypto passage.node raw _ _ _ _).2 packet hdecode hsent
  obtain ⟨-, -, -, hdata, -⟩ := Packet.decode_eq_some hdecode
  have hdecode' : Packet.decode (passage.result crypto raw).output = some copy.onWire :=
    Packet.decode_encode hencoded (by rwa [hcopy.data])
  obtain ⟨hhops, hmax⟩ := hcopy.hops_toNat hlt
  refine ⟨packet, copy.onWire, hdecode, hdecode', hcopy.onWire, hhops, hmax, ?_, ?_⟩
  · rw [Packet.hash_of_decode crypto hdecode', Packet.hash_of_decode crypto hdecode,
      hcopy.onWire.identityHash_eq]
  · rw [Packet.linkId_of_decode crypto hdecode', Packet.linkId_of_decode crypto hdecode,
      hcopy.onWire.identityLinkId_eq]

section

variable {crypto : Crypto} {raw final : List UInt8} {chain : List Passage}
    (h : Chain crypto raw chain final)
include h

/-- The packet hash and the link id are those of the packet that entered the chain. -/
theorem Chain.keeps_identity : Packet.hash crypto final = Packet.hash crypto raw ∧
      linkIdFromRequestPacket crypto final = linkIdFromRequestPacket crypto raw := by
  induction h with
  | nil raw => exact ⟨rfl, rfl⟩
  | cons hsent _ ih =>
    obtain ⟨-, -, -, -, -, -, -, hhash, hlink⟩ := Passage.keeps_identity hsent
    exact ⟨ih.1.trans hhash, ih.2.trans hlink⟩

/-- What leaves a chain is the packet that entered it, under another header. -/
theorem Chain.converted {packet : Packet}
    (hdecode : Packet.decode raw = some packet) : Packet.Converted raw final := by
  have hsame : ∃ copy, Packet.decode final = some copy ∧ Packet.Same packet copy := by
    induction h generalizing packet with
    | nil raw => exact ⟨packet, hdecode, rfl, rfl, rfl, rfl, rfl, rfl⟩
    | cons hsent _ ih =>
      obtain ⟨packet', copy, hdecode', hcopied, hcopy, -⟩ := Passage.keeps_identity hsent
      obtain rfl := Option.some.inj (hdecode.symm.trans hdecode')
      obtain ⟨last, hlast, hsame⟩ := ih hcopied
      exact ⟨last, hlast, hsame.packet_type.trans hcopy.packet_type,
        hsame.destination_type.trans hcopy.destination_type,
        hsame.context_flag.trans hcopy.context_flag,
        hsame.destination_hash.trans hcopy.destination_hash, hsame.context.trans hcopy.context,
        hsame.data.trans hcopy.data⟩
  obtain ⟨copy, hcopied, hsame⟩ := hsame
  exact ⟨packet, copy, hdecode, hcopied, hsame⟩

/-- A packet whose hops are within the limit of all nodes has that many forwards left at most. -/
theorem Chain.hops_add_length_le {max_hops : UInt8}
    (hmax : ∀ passage ∈ chain, passage.node.max_hops ≤ max_hops) {packet : Packet}
    (hdecode : Packet.decode raw = some packet) (hhops : packet.hops ≤ max_hops) :
    packet.hops.toNat + chain.length ≤ max_hops.toNat := by
  induction h generalizing packet with
  | nil raw => exact UInt8.le_iff_toNat_le.1 hhops
  | cons hsent _ ih =>
    obtain ⟨packet', copy, hdecode', hcopied, -, hnext, hle, -, -⟩ := Passage.keeps_identity hsent
    obtain rfl := Option.some.inj (hdecode.symm.trans hdecode')
    have hrest := ih (fun p hp => hmax p (List.mem_cons_of_mem _ hp)) hcopied
      (UInt8.le_trans hle (hmax _ List.mem_cons_self))
    rw [List.length_cons]
    omega

end

/-- A node with a path of two hops names the next node in the header, which takes that out again. -/
theorem Chain.converted_dataPacket :
    let node (path : Announced) := Run.final (nodeStep plainCrypto) smallNode
      [.path (.considerAnnounce (some 0) path)]
    let sent (path : Announced) (raw : List UInt8) :=
      ((node path).ingress plainCrypto raw 5 0 (some 500) fun _ => some 1).1.output
    let first := sent { pathToSeven with hops := 2, next_hop := smallNode.transport_id } dataPacket
    (Packet.decode first).map Packet.header_type = some 1 ∧
      (Packet.decode (sent pathToSeven first)).map Packet.header_type = some 0 ∧
      Packet.Converted dataPacket (sent pathToSeven first) := by
  intro node sent first
  have hsome : (Packet.decode dataPacket).isSome := by decide +kernel
  exact ⟨by decide +kernel, by decide +kernel,
    (@Chain.cons _ _ _ ⟨node _, 5, 0, some 500, fun _ => some 1⟩ _ (by decide +kernel)
      (@Chain.cons _ _ _ ⟨node pathToSeven, 5, 0, some 500, fun _ => some 1⟩ _ (by decide +kernel)
        (.nil _))).converted (Option.some_get hsome).symm⟩

/-- Forwarding keeps the identity of a packet. What a node forwards or rebroadcasts decodes to the
packet that came in, apart from the header, with one hop more and at most `max_hops`; its packet
hash and, for a link request, its link id are the same. So they are along any chain of nodes, and a
chain forwards at most as often as the largest `max_hops` of its nodes. -/
theorem forwarding_keeps_identity (crypto : Crypto) :
    (∀ (node : Node) (raw : List UInt8) (received_interface_id : UInt64)
      (interface_gravity : Int32) (output : Option ℕ) (clock : ℕ → Option ℚ),
      let result := (node.ingress crypto raw received_interface_id interface_gravity output
        clock).1
      result.action = .forward ∨ result.action = .rebroadcast →
      ∃ packet copy, Packet.decode raw = some packet ∧ Packet.decode result.output = some copy ∧
        copy.packet_type = packet.packet_type ∧
        copy.destination_type = packet.destination_type ∧
        copy.context_flag = packet.context_flag ∧
        copy.destination_hash = packet.destination_hash ∧ copy.context = packet.context ∧
        copy.data = packet.data ∧ copy.hops.toNat = packet.hops.toNat + 1 ∧
        copy.hops ≤ node.max_hops ∧
        Packet.hash crypto result.output = Packet.hash crypto raw ∧
        linkIdFromRequestPacket crypto result.output = linkIdFromRequestPacket crypto raw) ∧
    (∀ (raw final : List UInt8) (chain : List Passage), Chain crypto raw chain final →
      Packet.hash crypto final = Packet.hash crypto raw ∧
      linkIdFromRequestPacket crypto final = linkIdFromRequestPacket crypto raw ∧
      ∀ max_hops, (∀ passage ∈ chain, passage.node.max_hops ≤ max_hops) →
        chain.length ≤ max_hops.toNat) := by
  constructor
  · intro node raw received_interface_id interface_gravity output clock result haction
    have hsent : result.action.sendsOn = true := by
      rcases haction with haction | haction <;> rw [haction] <;> rfl
    let passage : Passage := ⟨node, received_interface_id, interface_gravity, output, clock⟩
    obtain ⟨packet, copy, hdecode, hdecode', hcopy, hrest⟩ :=
      @Passage.keeps_identity crypto passage raw hsent
    exact ⟨packet, copy, hdecode, hdecode', hcopy.packet_type, hcopy.destination_type,
      hcopy.context_flag, hcopy.destination_hash, hcopy.context, hcopy.data, hrest⟩
  · intro raw final chain hchain
    refine ⟨hchain.keeps_identity.1, hchain.keeps_identity.2, fun max_hops hmax => ?_⟩
    cases hchain with
    | nil => exact Nat.zero_le _
    | @cons raw final passage chain hsent hrest =>
      obtain ⟨packet, hdecode, hlt⟩ := Node.ingress_hops_lt hsent
      have hfirst := UInt8.le_trans (UInt8.le_of_lt hlt) (hmax passage List.mem_cons_self)
      have hall := (Chain.cons hsent hrest).hops_add_length_le hmax hdecode hfirst
      omega

/-- The data packet of the runs above goes on along its path, with its hash. -/
theorem forwarding_keeps_identity_dataPacket :
    let node := Run.final (nodeStep plainCrypto) smallNode
      [.path (.considerAnnounce (some 0) pathToSeven)]
    let result := (node.ingress plainCrypto dataPacket 5 0 (some 500) fun _ => some 1).1
    result.action = .forward ∧
      Packet.hash plainCrypto result.output = Packet.hash plainCrypto dataPacket := by
  intro node result
  have hforward : result.action = .forward := by decide +kernel
  obtain ⟨packet, copy, hall⟩ := (forwarding_keeps_identity plainCrypto).1 node dataPacket 5 0
    (some 500) (fun _ => some 1) (Or.inl hforward)
  exact ⟨hforward, hall.2.2.2.2.2.2.2.2.2.2.1⟩

end Reticulum.Transport
