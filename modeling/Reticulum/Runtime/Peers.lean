import Reticulum.Runtime.Outcomes

/-!
# The peer of a link and the request handlers

What a packet may do to who the peer of a link is, and for which packets the callback of a request
handler is called. `Heard` says it for one packet, and `heard_linkIngress` shows it: the identity of
the peer changes once, from nothing to the one that signed the id of the link, and a callback is
called only for a request in an authentic packet of the active link. `PeerFrame` is what all other
packets and the polls leave, the handshake included.
-/

namespace Reticulum.Runtime

open List Octets
open Resource (Bzip2)

variable (p : Primitives) (bzip2 : Option Bzip2) (env : Environment) (s : RuntimeLink)

/-! ## What a packet may do -/

section

variable (own_interface : Bool) (raw : List UInt8)

/-- A timeout keeps the peer. -/
theorem samePeer_checkTimeout (link : Link) (now : ℚ) :
    SamePeer link (link.checkTimeout now).2 := by
  unfold Link.checkTimeout
  split
  · exact ⟨rfl, rfl, rfl⟩
  · exact .refl link

/-- A packet of the active link, from its interface, whose token opens. -/
def Opens (context : UInt8) (plaintext : List UInt8) : Prop :=
  ∃ packet, Packet.decode raw = some packet ∧ packet.destination_hash = s.protocol.link_id ∧
    own_interface = true ∧ s.protocol.state = .active ∧ packet.packet_type = 0 ∧
    packet.context = context ∧ s.protocol.decrypt p packet.data mtu = some plaintext

/-- A packet by which the peer of an inbound link signs the id of the link with its identity. -/
def Identifies (identity : Identity) : Prop :=
  ∃ payload, Opens p s own_interface raw Context.identify payload ∧
    s.protocol.role = .responder ∧ payload.length = 128 ∧
    identity = identityFromPublic p.toCrypto (ofList 64 payload) ∧
    identityVerify p.toCrypto identity (s.protocol.link_id.bytes ++ payload.take 64)
      (ofList 64 (payload.drop 64)) = true

/-- A request packet for which the callback of a handler of the link may be called. -/
structure Handles (handler : RequestHandler)
    (request : Request.View) (remote : Option Identity) : Prop where
  opens : ∃ plaintext, Opens p s own_interface raw Context.request plaintext ∧
    Request.decode p plaintext = .ok request
  registered : handler ∈ s.handlers
  path_hash : handler.path_hash = request.path_hash
  authorized : s.requestHandlerAuthorized p.toCrypto handler = true
  remote : remote = if s.remote_identified then some s.protocol.remote_identity else none

/-- What a packet may do to the peer of a link and to its request handlers: the peer stays who it is
unless it was not known and identifies itself, and a handler is called only for a request. -/
structure Heard (s' : RuntimeLink) : Prop where
  link_id : s'.protocol.link_id = s.protocol.link_id
  role : s'.protocol.role = s.protocol.role
  peer : (s'.remote_identified = s.remote_identified ∧
      s'.protocol.remote_identity = s.protocol.remote_identity) ∨
    (s.remote_identified = false ∧ s'.remote_identified = true ∧
      Identifies p s own_interface raw s'.protocol.remote_identity)
  handled : ∃ told, s'.log = s.log ++ told ∧ ∀ handler request remote,
    .handled handler request remote ∈ told →
      Handles p s own_interface raw handler request remote

end

/-- What is told of anything but the peer and the request handlers. -/
def Observation.impersonal : Observation → Bool
  | .identified _ | .handled _ _ _ => false
  | _ => true

/-- The protocol of the link may have moved on, but its peer is the same and nothing was told of the
peer or of a request handler. -/
structure PeerFrame (s s' : RuntimeLink) : Prop where
  peer : SamePeer s.protocol s'.protocol
  handlers : s'.handlers = s.handlers
  identified : s'.remote_identified = s.remote_identified
  told : ∃ told, s'.log = s.log ++ told ∧ ∀ o ∈ told, o.impersonal

variable {s} in
/-- Frames of the peer compose. -/
theorem PeerFrame.trans {s' s'' : RuntimeLink} (h : PeerFrame s s') (h' : PeerFrame s' s'') :
    PeerFrame s s'' := by
  obtain ⟨told, hlog, himpersonal⟩ := h.told
  obtain ⟨told', hlog', himpersonal'⟩ := h'.told
  refine ⟨⟨h'.peer.link_id.trans h.peer.link_id, h'.peer.role.trans h.peer.role,
    h'.peer.remote_identity.trans h.peer.remote_identity⟩, h'.handlers.trans h.handlers,
    h'.identified.trans h.identified, told ++ told', ?_, ?_⟩
  · rw [hlog', hlog, append_assoc]
  · intro o ho
    exact (mem_append.mp ho).elim (himpersonal o) (himpersonal' o)

variable {s} in
/-- A frame is one of the peer. -/
theorem Frame.peerFrame {s' : RuntimeLink} (h : Frame s s') : PeerFrame s s' := by
  obtain ⟨told, hlog, hroutine⟩ := h.told
  refine ⟨.of_eq h.protocol, h.handlers, h.identified, told, hlog, fun o ho => ?_⟩
  have hroutine := hroutine o ho
  cases o <;> first | rfl | cases hroutine

variable {s} in
/-- The protocol may have moved on, and nothing was told. -/
theorem PeerFrame.silent {s' : RuntimeLink} (hpeer : SamePeer s.protocol s'.protocol)
    (hhandlers : s'.handlers = s.handlers)
    (hidentified : s'.remote_identified = s.remote_identified) (hlog : s'.log = s.log) :
    PeerFrame s s' :=
  ⟨hpeer, hhandlers, hidentified, [], by rw [hlog, append_nil],
    fun _ ho => absurd ho not_mem_nil⟩

/-- A change of the state says nothing of the peer. -/
theorem peerFrame_linkNotify (state : LinkState) (reason : Status) :
    PeerFrame s (s.linkNotify state reason) :=
  ⟨.refl _, rfl, rfl, [.state state reason], rfl, fun _ ho => (mem_singleton.mp ho) ▸ rfl⟩

/-- The link closes. -/
theorem peerFrame_closed :
    PeerFrame s { s with protocol := { s.protocol with state := .closed } } :=
  .silent ⟨rfl, rfl, rfl⟩ rfl rfl rfl

variable {p s} in
/-- A packet that leaves such a frame tells nothing of the peer. -/
theorem PeerFrame.heard {own_interface : Bool} {raw : List UInt8} {s' : RuntimeLink}
    (h : PeerFrame s s') : Heard p s own_interface raw s' := by
  obtain ⟨told, hlog, himpersonal⟩ := h.told
  refine ⟨h.peer.link_id, h.peer.role, .inl ⟨h.identified, h.peer.remote_identity⟩, told, hlog, ?_⟩
  intro handler request remote hmem
  exact absurd (himpersonal _ hmem) (by simp [Observation.impersonal])

namespace RuntimeLink

/-- Packets of the handshake, and proofs of resources, keep the peer. -/
theorem peerFrame_protocolIngress {s' : RuntimeLink} {packet : Packet}
    (h : s.protocolIngress p bzip2 env packet = some s') : PeerFrame s s' := by
  have hmoved : ∀ {protocol : Link} {t : RuntimeLink}, SamePeer s.protocol protocol →
      Sends { s with protocol } t → PeerFrame s t := fun {protocol t} hpeer hsends =>
    (show PeerFrame s { s with protocol } from .silent hpeer rfl rfl rfl).trans
      hsends.frame.peerFrame
  cases taken_protocolIngress p bzip2 env s h with
  | failed protocol reason hpeer hsends =>
    exact ((hmoved hpeer hsends).trans (swept_failPendingRequests ..).toFrame.peerFrame).trans
      (peerFrame_linkNotify ..)
  | @activated t protocol now hpeer hsends =>
    have hkeepalive : PeerFrame t
        ({ t with last_inbound := now } : RuntimeLink).linkUpdateKeepalive :=
      .silent (.refl _) rfl rfl rfl
    exact ((hmoved hpeer hsends).trans hkeepalive).trans (peerFrame_linkNotify ..)
  | proved proof => exact (apart_outgoingResourceProof p bzip2 env s proof).toFrame.peerFrame
  | ignored => exact (Frame.refl s).peerFrame

/-! ## Polls -/

/-- The polls of the protocol keep the peer. -/
theorem peerFrame_pollProtocol (crypto : Crypto) (now : ℚ) :
    PeerFrame s (s.pollProtocol crypto env now) := by
  unfold pollProtocol
  have hclose : ∀ s : RuntimeLink, PeerFrame s
      (((s.failPendingRequests .timeout).failLinkResources .timeout).linkNotify .closed .timeout) :=
    fun s => (effect_close ..).toFrame.peerFrame.trans (peerFrame_linkNotify ..)
  have htimeout := samePeer_checkTimeout s.protocol (env.clock s.asked)
  split
  · rename_i protocol heq
    rw [heq] at htimeout
    have hmoved : PeerFrame s { s.ask with protocol } := .silent htimeout rfl rfl rfl
    exact hmoved.trans (hclose _)
  split
  · have hclosed : PeerFrame s { s.ask with protocol := { s.protocol with state := .closed } } :=
      .silent ⟨rfl, rfl, rfl⟩ rfl rfl rfl
    exact hclosed.trans (hclose _)
  split
  · exact ((sends_ask s).trans (sends_linkSendWire ..)).frame.peerFrame
  · exact (sends_ask s).frame.peerFrame

/-- A poll keeps the peer. -/
theorem peerFrame_poll : PeerFrame s (s.poll p env) :=
  (effect_polls ..).toFrame.peerFrame.trans (peerFrame_pollProtocol ..)

/-! ## Packets of an active link -/

variable {own_interface : Bool} {raw : List UInt8}

/-- A packet that opens may identify the peer. -/
theorem heard_identifyIngress {payload : List UInt8}
    (h : Opens p s own_interface raw Context.identify payload) {s₁ : RuntimeLink}
    (hframe : Frame s s₁) :
    Heard p s own_interface raw (s₁.identifyIngress p.toCrypto payload) := by
  unfold identifyIngress
  split
  · exact hframe.peerFrame.heard
  rename_i hrole
  dsimp only
  split
  · exact hframe.peerFrame.heard
  rename_i hverify
  split
  · exact hframe.peerFrame.heard
  rename_i hknown
  -- The peer was not known, and signed the id of the link.
  obtain ⟨told, hlog, hroutine⟩ := hframe.told
  rw [hframe.protocol] at hrole hverify
  rw [hframe.identified] at hknown
  push Not at hrole
  have hsigned : identityVerify p.toCrypto (identityFromPublic p.toCrypto (ofList 64 payload))
      (s.protocol.link_id.bytes ++ payload.take 64) (ofList 64 (payload.drop 64)) = true := by
    simpa using hverify
  refine ⟨by rw [← hframe.protocol]; rfl, by rw [← hframe.protocol]; rfl,
    .inr ⟨by simpa using hknown, rfl, payload, h, hrole.1, hrole.2, rfl, hsigned⟩,
    told ++ [.identified (identityFromPublic p.toCrypto (ofList 64 payload))], ?_, ?_⟩
  · rw [tell, hlog, append_assoc]
  · intro handler request remote hmem
    rcases mem_append.mp hmem with hmem | hmem
    · exact absurd (hroutine _ hmem) (by simp [Observation.routine])
    · exact absurd (mem_singleton.mp hmem) (by simp)

/-- A packet that opens may call a handler. -/
theorem heard_handleRequest {plaintext : List UInt8}
    (h : Opens p s own_interface raw Context.request plaintext) {s₁ : RuntimeLink}
    (hframe : Frame s s₁) :
    Heard p s own_interface raw (s₁.handleRequest p bzip2 env raw plaintext) := by
  unfold handleRequest
  split
  · exact hframe.peerFrame.heard
  rename_i request hrequest
  split
  · exact hframe.peerFrame.heard
  rename_i handler hfind
  split
  · exact hframe.peerFrame.heard
  rename_i hauthorized
  split
  · exact (hframe.trans (sends_ask s₁).frame).peerFrame.heard
  have hhandles : Handles p s own_interface raw handler request
      (if s₁.remote_identified then some s₁.protocol.remote_identity else none) :=
    { opens := ⟨plaintext, h, hrequest⟩
      registered := hframe.handlers ▸ mem_of_find?_eq_some hfind
      path_hash := by simpa using List.find?_some hfind
      authorized := by
        rw [← show s₁.requestHandlerAuthorized p.toCrypto handler =
          s.requestHandlerAuthorized p.toCrypto handler by
            simp only [requestHandlerAuthorized, hframe.protocol, hframe.identified]]
        simpa using hauthorized
      remote := by rw [hframe.protocol, hframe.identified] }
  generalize (if s₁.remote_identified then some s₁.protocol.remote_identity else none) = remote
    at hhandles ⊢
  -- Whatever follows the callback is routine.
  have hafter : ∀ s', Frame (s₁.ask.ask.tell (.handled handler request remote)) s' →
      Heard p s own_interface raw s' := by
    intro s' hafter
    obtain ⟨told, hlog, hroutine⟩ := hframe.told
    obtain ⟨told', hlog', hroutine'⟩ := hafter.told
    have hprotocol : s'.protocol = s.protocol := hafter.protocol.trans hframe.protocol
    refine ⟨by rw [hprotocol], by rw [hprotocol], .inl ⟨hafter.identified.trans hframe.identified,
      by rw [hprotocol]⟩, told ++ [.handled handler request remote] ++ told',
      ?_, ?_⟩
    · rw [hlog', tell, ask, ask, hlog, append_assoc, append_assoc, append_assoc]
    · intro handler' request' remote' hmem
      rcases mem_append.mp hmem with hmem | hmem
      · rcases mem_append.mp hmem with hmem | hmem
        · exact absurd (hroutine _ hmem) (by simp [Observation.routine])
        · obtain ⟨rfl, rfl, rfl⟩ := Observation.handled.inj (mem_singleton.mp hmem)
          exact hhandles
      · exact absurd (hroutine' _ hmem) (by simp [Observation.routine])
  dsimp only
  iterate 2
    split
    · exact hafter _ (.refl _)
  iterate 2
    split
    · exact hafter _ (sends_ask _).frame
  split
  all_goals have hsent := ((sends_ask _).trans (sends_of_linkSendPlain ‹_›)).frame
  · exact hafter _ (hsent.trans (apart_linkSendResource ..).toFrame)
  · exact hafter _ hsent

/-- A packet that is heard in either case of a test. -/
theorem heard_ite {c : Prop} [Decidable c] {t e : RuntimeLink}
    (ht : c → Heard p s own_interface raw t) (he : ¬ c → Heard p s own_interface raw e) :
    Heard p s own_interface raw (if c then t else e) := by
  split
  · exact ht ‹_›
  · exact he ‹_›

/-- Only a packet that opens identifies the peer or calls a handler. -/
theorem heard_dispatch {payload : List UInt8} {context : UInt8} {link_encrypted : Bool}
    {s₁ : RuntimeLink} (hframe : Frame s s₁)
    (h : (context = Context.identify ∨ context = Context.request) →
      Opens p s own_interface raw context payload) :
    Heard p s own_interface raw (s₁.dispatch p bzip2 env raw context link_encrypted payload) := by
  by_cases hclose : context = Context.close
  · rw [dispatch, if_pos hclose]
    exact (((hframe.peerFrame.trans (peerFrame_closed s₁)).trans
      (effect_close ..).toFrame.peerFrame).trans (peerFrame_linkNotify ..)).heard
  by_cases hidentify : context = Context.identify
  · rw [dispatch, if_neg hclose, if_pos hidentify]
    exact heard_identifyIngress p s (hidentify ▸ h (.inl hidentify)) hframe
  by_cases hrequest : context = Context.request
  · rw [dispatch, if_neg hclose, if_neg hidentify, if_pos hrequest]
    exact heard_handleRequest p bzip2 env s (hrequest ▸ h (.inr hrequest)) hframe
  · exact (hframe.trans (effect_dispatch p bzip2 env s₁ raw link_encrypted payload hclose hidentify
      hrequest).toFrame).peerFrame.heard

/-- `link_ingress`. -/
theorem heard_linkIngress (own_interface : Bool) (raw : List UInt8) :
    Heard p s own_interface raw (s.linkIngress p bzip2 env own_interface raw) := by
  unfold linkIngress
  split
  · exact (Frame.refl s).peerFrame.heard
  rename_i packet hpacket
  refine heard_ite p s (fun _ => (Frame.refl s).peerFrame.heard) (fun hid => ?_)
  refine heard_ite p s (fun _ => ((peerFrame_closed s).trans (peerFrame_linkNotify ..)).heard)
    (fun hown => ?_)
  split
  · exact (peerFrame_protocolIngress p bzip2 env s ‹_›).heard
  rename_i hingress
  refine heard_ite p s (fun _ => (sends_keepaliveIngress ..).frame.peerFrame.heard) (fun _ => ?_)
  refine heard_ite p s (fun _ => ?_) (fun hcontext => ?_)
  · split
    · exact (peerFrame_linkNotify ..).heard
    · rename_i plaintext hplaintext
      refine heard_dispatch p bzip2 env s (.silent rfl) (fun _ => ?_)
      obtain ⟨hactive, htype⟩ := (protocolIngress_eq_none_iff).mp hingress
      exact ⟨packet, hpacket, by simpa using hid, by simpa using hown, hactive, htype, rfl,
        hplaintext⟩
  · -- Parts and cache requests are neither identifications nor requests.
    refine heard_dispatch p bzip2 env s (.refl s) (fun hc => ?_)
    rw [not_and_or, not_not, not_not] at hcontext
    rcases hc with hc | hc <;> rcases hcontext with hcontext | hcontext <;>
      exact absurd (hc.symm.trans hcontext) (by decide)

/-! ## Calls -/

/-- Every call of the application leaves a frame. -/
theorem frame_step {call : Call} (hingress : ∀ own raw, call ≠ .ingress own raw)
    (hpoll : call ≠ .poll) : Frame s (s.step p bzip2 env call) := by
  cases call with
  | ingress own raw => exact absurd rfl (hingress own raw)
  | poll => exact absurd rfl hpoll
  | send context plaintext => exact (sends_linkSend ..).frame
  | request path data options => exact (effect_linkRequest ..).toFrame
  | cancelReceipt receipt =>
    exact (frame_touch s receipt).trans (.ite (fun _ => .refl _) (fun _ => frame_conclude ..))
  | destroyReceipt receipt =>
    exact (frame_touch s receipt).trans (.silent rfl)
  | sendResource data options => exact (apart_linkSendResource ..).toFrame
  | cancelTransfer transfer => exact (apart_resourceTransferCancel ..).toFrame
  | destroyTransfer transfer => exact (apart_resourceTransferDestroy ..).toFrame

/-- The id of a link stays the same. -/
theorem step_link_id (call : Call) :
    (s.step p bzip2 env call).protocol.link_id = s.protocol.link_id := by
  by_cases hingress : ∃ own raw, call = .ingress own raw
  · obtain ⟨own, raw, rfl⟩ := hingress
    exact (heard_linkIngress p bzip2 env s own raw).link_id
  by_cases hpoll : call = .poll
  · subst hpoll
    exact (peerFrame_poll p env s).peer.link_id
  · push Not at hingress
    rw [(frame_step p bzip2 env s hingress hpoll).protocol]

end RuntimeLink

end Reticulum.Runtime
