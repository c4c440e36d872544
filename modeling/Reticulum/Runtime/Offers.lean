import Reticulum.Runtime.Host
import Reticulum.Runtime.Peers

/-!
# Links that are about to be made

`rns_runtime_link_open` and `accept_inbound_link` of `src/runtime/runtime.c` prepare a link, and
then register it and give it a slot. Here is what holds of a link when it is prepared (`Offered`),
and that preparing it touches neither the registry nor the links (`OnlyAsked`).
-/

namespace Reticulum.Runtime.Host

open Resource (Bzip2)

/-- The runtime looked up a path and asked its surroundings, and nothing else. -/
def OnlyAsked (s s' : Host) : Prop :=
  ∃ transport asked, s' = { s with node := { s.node with transport }, asked }

/-- A link that is about to be admitted: its slot is free, it has the next number, nobody is known
to be its peer if it came in, and its first packet changes nothing of that. -/
structure Offered (s : Host) (slot : ℕ) (link : HostLink) (sent : Except Status RuntimeLink) :
    Prop where
  free : s.links[slot]? = some none
  registered : link.registered = true
  number : link.number = s.made
  peer : (link.link.protocol.role = .responder ∧ link.link.remote_identified = false) ∨
    (link.link.protocol.role = .initiator ∧ link.inbound_destination = none)
  log : link.link.log = []
  sent : ∀ made, sent = .ok made → PeerFrame link.link made

variable {p : Primitives} {env : HostEnvironment} {s s' : Host}

variable {destination_hash : Octets 16} {identity : Identity} {link_mtu : ℕ} {timeout now : ℚ}
  {protocol : Link}

/-- The protocol of a link that is opened has the role of an initiator. -/
theorem openProtocol_role {path : Transport.PathEntry} {x_private s_private : Octets 32}
    (h : openProtocol p destination_hash identity path x_private s_private link_mtu timeout now =
      .ok protocol) : protocol.role = .initiator := by
  unfold openProtocol at h
  split at h
  · cases h
  split at h
  · cases h
  split at h
  · cases h
  · rename_i hset
    cases h
    obtain ⟨raw, -, hset⟩ := Option.bind_eq_some_iff.mp hset
    unfold Link.initiatorSetRequestPacket at hset
    split at hset
    · cases hset
    rename_i hrole
    push Not at hrole
    split at hset
    · split at hset
      · cases hset
      split at hset
      · cases hset
      · cases hset
        exact hrole.1
    · cases hset

variable {raw : List UInt8}

/-- The protocol of a link that came in has the role of a responder. -/
theorem responderAccept_role {identity : LocalIdentity} {private_key : Octets 32}
    (h : Link.responderAccept p identity private_key raw timeout now = some protocol) :
    protocol.role = .responder := by
  unfold Link.responderAccept at h
  split at h
  · split at h
    · cases h
    split at h
    · unfold Link.derive at h
      split at h
      · cases h
      · cases h
        rfl
    · cases h
  · cases h

/-- What `rns_runtime_link_open` does before it registers the link. -/
theorem prepareOpen_spec {options : LinkOptions}
    {result : Except Status (ℕ × HostLink × Except Status RuntimeLink)}
    (h : s.prepareOpen p env destination_hash identity options link_mtu = (result, s')) :
    OnlyAsked s s' ∧ ∀ slot link sent, result = .ok (slot, link, sent) → s.Offered slot link sent := by
  have hfailed : ∀ {status : Status} {s₁ : Host}, (.error status, s₁) = (result, s') →
      OnlyAsked s s₁ → OnlyAsked s s' ∧
        ∀ slot link sent, result = .ok (slot, link, sent) → s.Offered slot link sent := by
    intro status s₁ heq hasked
    obtain ⟨rfl, rfl⟩ := Prod.mk.inj heq
    exact ⟨hasked, by simp⟩
  unfold prepareOpen at h
  dsimp only at h
  iterate 2
    split at h
    · exact hfailed h ⟨_, _, rfl⟩
  rename_i slot hslot
  iterate 4
    split at h
    · exact hfailed h ⟨_, _, rfl⟩
  rename_i protocol hprotocol
  obtain ⟨rfl, rfl⟩ := Prod.mk.inj h
  refine ⟨⟨_, _, rfl⟩, fun _ _ _ hok => ?_⟩
  simp only [Except.ok.injEq, Prod.mk.injEq] at hok
  obtain ⟨rfl, rfl, rfl⟩ := hok
  refine ⟨Slots.firstFree_eq_some hslot, rfl, rfl, .inr ⟨openProtocol_role hprotocol, rfl⟩, rfl,
    fun made hmade => ?_⟩
  split at hmade
  · cases hmade
    exact peerFrame_linkNotify ..
  · cases hmade

/-- The proof of a link changes nothing of its peer. -/
theorem peerFrame_sendLinkProof {env : Environment} {link made : RuntimeLink}
    (h : sendLinkProof p env link = .ok made) : PeerFrame link made := by
  unfold sendLinkProof at h
  split at h
  · cases h
  rename_i proof _
  have hframe := (RuntimeLink.sends_linkSendProof env link p.toCrypto Context.proof proof).frame
  split at h
  · cases h
  · rename_i heq
    cases h
    rw [heq] at hframe
    exact hframe.peerFrame

/-- What `accept_inbound_link` does before it registers the link. -/
theorem prepareAccept_spec {interface_index : ℕ} {packet : Packet}
    {received_hops : UInt8} {result : Option (ℕ × HostLink × Except Status RuntimeLink)}
    (h : s.prepareAccept p env interface_index raw packet received_hops = (result, s')) :
    OnlyAsked s s' ∧ ∀ slot link sent, result = some (slot, link, sent) → s.Offered slot link sent := by
  have hrefused : ∀ {s₁ : Host}, (none, s₁) = (result, s') → OnlyAsked s s₁ → OnlyAsked s s' ∧
      ∀ slot link sent, result = some (slot, link, sent) → s.Offered slot link sent := by
    intro s₁ heq hasked
    obtain ⟨rfl, rfl⟩ := Prod.mk.inj heq
    exact ⟨hasked, by simp⟩
  unfold prepareAccept at h
  split at h
  · exact hrefused h ⟨_, _, rfl⟩
  split at h
  swap
  · exact hrefused h ⟨_, _, rfl⟩
  rename_i hslot
  split at h
  · exact hrefused h ⟨_, _, rfl⟩
  dsimp only at h
  split at h
  · exact hrefused h ⟨_, _, rfl⟩
  rename_i protocol hprotocol
  have hrole := responderAccept_role hprotocol
  obtain ⟨rfl, rfl⟩ := Prod.mk.inj h
  refine ⟨⟨_, _, rfl⟩, fun _ _ _ hsome => ?_⟩
  simp only [Option.some.injEq, Prod.mk.injEq] at hsome
  obtain ⟨rfl, rfl, rfl⟩ := hsome
  refine ⟨Slots.firstFree_eq_some hslot, rfl, rfl, .inl ⟨hrole, ?_⟩, rfl,
    fun made hmade => peerFrame_sendLinkProof hmade⟩
  simp [RuntimeLink.opened, hrole]

end Reticulum.Runtime.Host
