import Reticulum.Link.Handshake
import Reticulum.Runtime.Frames

/-!
# What packets leave alone

The functions of `src/runtime/runtime.c` for the resource that goes out leave a frame, and the view
as well, since they have to do neither with requests nor with what comes in (`Apart`). `Taken` says
what is done with a packet of a link before it is opened. What is done with its payload is in
`Runtime.Outcomes`.
-/

namespace Reticulum.Runtime

open List
open Resource (Bzip2)

/-- A function that has to do neither with requests nor with the resource that comes in. -/
structure Apart (s s' : RuntimeLink) : Prop extends Frame s s' where
  view : s'.view = s.view

variable {s s' s'' : RuntimeLink}

/-- What only sends is apart. -/
theorem Sends.apart (h : Sends s s') : Apart s s' := ⟨h.frame, h.view⟩

namespace Apart

/-- Nothing is done. -/
theorem refl (s : RuntimeLink) : Apart s s := (Sends.refl s).apart

/-- One function after the other. -/
theorem trans (h : Apart s s') (h' : Apart s' s'') : Apart s s'' :=
  ⟨h.toFrame.trans h'.toFrame, h'.view.trans h.view⟩

/-- The view makes no move. -/
theorem effect (h : Apart s s') : Effect false s s' := .of_view h.toFrame h.view

end Apart

/-- Two states of one link: with the same id and role, and the same identity of the peer. -/
structure SamePeer (a b : Link) : Prop where
  link_id : b.link_id = a.link_id
  role : b.role = a.role
  remote_identity : b.remote_identity = a.remote_identity

theorem SamePeer.refl (a : Link) : SamePeer a a := ⟨rfl, rfl, rfl⟩

theorem SamePeer.of_eq {a b : Link} (h : b = a) : SamePeer a b := h ▸ .refl a

/-- A link that closes has the peer that it had. -/
theorem SamePeer.closed {a b : Link} (h : SamePeer a b) : SamePeer a { b with state := .closed } :=
  { h with }

/-- A proof, accepted or not, leaves the peer of a link. -/
theorem samePeer_initiatorAcceptProof (p : Primitives) (link : Link) (proof : List UInt8) (now : ℚ) :
    SamePeer link (link.initiatorAcceptProof p proof now).2 := by
  unfold Link.initiatorAcceptProof
  iterate 3
    split
    · exact .refl link
  dsimp only
  iterate 2
    split
    · exact ⟨rfl, rfl, rfl⟩
  · rename_i derived hderive
    unfold Link.derive at hderive
    split at hderive
    · cases hderive
    · cases hderive
      exact ⟨rfl, rfl, rfl⟩

/-- A round trip time, accepted or not, leaves the peer of a link. -/
theorem samePeer_responderAcceptRtt (p : Primitives) (link : Link) (token : List UInt8) (now : ℚ) :
    SamePeer link (link.responderAcceptRtt p token now).2 := by
  unfold Link.responderAcceptRtt
  repeat' split
  all_goals exact ⟨rfl, rfl, rfl⟩

namespace RuntimeLink

variable (p : Primitives) (bzip2 : Option Bzip2) (env : Environment) (s : RuntimeLink)
  (transfer : ℕ) (state : TransferState) (status : Status)

/-! ## Resources that go out -/

/-- `outgoing_resource_finish` is apart. -/
theorem apart_outgoingResourceFinish : Apart s (s.outgoingResourceFinish transfer state status) := by
  unfold outgoingResourceFinish
  split
  · exact .refl s
  split
  · exact .refl s
  · refine ⟨.trans ?_ (.tell _ rfl), view_tell s (o := .transfer ..) rfl⟩
    exact .silent rfl

/-- A transfer changes. -/
theorem apart_setTransfer (value : ResourceTransfer) : Apart s (s.setTransfer transfer value) :=
  ⟨.silent rfl, rfl⟩

/-- The end of `outgoing_resource_request` is apart. -/
theorem apart_sendUpdate (value : ResourceTransfer) (request : List UInt8) (count : ℕ) :
    Apart s (s.sendUpdate p env transfer value request count) := by
  unfold sendUpdate
  extract_lets moved progress
  have hprogress (t : RuntimeLink) : Apart t (progress t) := by
    simp only [progress]
    split
    · exact .refl t
    · exact (apart_setTransfer t transfer _).trans ⟨.tell _ rfl, view_tell _ rfl⟩
  split
  · split
    all_goals have hsent := (sends_of_linkSendPlain ‹_›).apart
    · exact hsent.trans (apart_outgoingResourceFinish ..)
    · exact hsent.trans (hprogress _)
  · exact hprogress s
  · exact apart_outgoingResourceFinish ..

/-- `outgoing_resource_request` is apart. -/
theorem apart_outgoingResourceRequest (request : List UInt8) :
    Apart s (s.outgoingResourceRequest p env request) := by
  unfold outgoingResourceRequest
  split
  · exact .refl s
  rename_i transfer value _
  split
  · exact .refl s
  rename_i indexes _
  have hparts := sends_sendParts env s.ask p.toCrypto indexes
    { value with deadline := transferDeadline value (env.clock s.asked) }
  dsimp only
  split
  all_goals
    rename_i value t heq
    rw [heq] at hparts
    have hset := ((sends_ask s).trans hparts).apart.trans (apart_setTransfer t transfer value)
  · exact hset.trans (apart_outgoingResourceFinish ..)
  · exact hset.trans (apart_sendUpdate ..)

/-- The advertisement of the next segment is apart. -/
theorem apart_nextSegment (value : ResourceTransfer) :
    Apart s (s.nextSegment p bzip2 env transfer value) := by
  have hasked := (sends_ask s).apart
  unfold nextSegment
  split
  · exact hasked.trans (apart_outgoingResourceFinish ..)
  extract_lets moved t
  have hset : Apart s t := hasked.trans (apart_setTransfer ..)
  split
  · exact hset.trans (apart_outgoingResourceFinish ..)
  split
  all_goals have hsent := hset.trans (sends_of_linkSendPlain ‹_›).apart
  · exact hsent.trans (apart_outgoingResourceFinish ..)
  · exact hsent.trans ((sends_ask _).apart.trans (apart_setTransfer ..))

/-- `outgoing_resource_proof` is apart. -/
theorem apart_outgoingResourceProof (proof : List UInt8) :
    Apart s (s.outgoingResourceProof p bzip2 env proof) := by
  unfold outgoingResourceProof
  split
  · exact .refl s
  split
  · exact .refl s
  split
  · exact apart_nextSegment ..
  · exact apart_outgoingResourceFinish ..

/-- `rns_runtime_link_send_resource` is apart. -/
theorem apart_linkSendResource (data : List UInt8) (options : ResourceOptions)
    (runtime_owned : Bool) : Apart s (s.linkSendResource p bzip2 env data options runtime_owned).2 := by
  unfold linkSendResource
  split
  · exact .refl s
  split
  · exact .refl s
  split
  · exact (sends_ask s).apart
  dsimp only
  have hasked : Sends s s.ask.ask := (sends_ask s).trans (sends_ask _)
  split
  · exact hasked.apart
  split
  · exact hasked.apart
  split
  all_goals have hsent := ((hasked.trans (sends_ask _)).trans (sends_of_linkSendPlain ‹_›)).apart
  · exact hsent
  · exact hsent.trans ⟨.silent rfl, rfl⟩

/-- `rns_runtime_resource_transfer_cancel` is apart. -/
theorem apart_resourceTransferCancel : Apart s (s.resourceTransferCancel p env transfer) := by
  unfold resourceTransferCancel
  split
  · exact .refl s
  split
  · exact .refl s
  · exact (sends_linkSendPlain ..).apart.trans (apart_outgoingResourceFinish ..)

/-- `rns_runtime_resource_transfer_destroy` is apart. -/
theorem apart_resourceTransferDestroy : Apart s (s.resourceTransferDestroy p env transfer) := by
  unfold resourceTransferDestroy
  split
  · exact .refl s
  split
  · exact .refl s
  refine .trans (?_ : Apart s (if s.protocol.state = .active then _ else s)) ⟨.silent rfl, rfl⟩
  split
  · exact (sends_linkSendPlain ..).apart
  · exact .refl s

/-! ## Requests of the peer -/

/-- `handle_request` leaves the view. -/
theorem view_handleRequest (raw plaintext : List UInt8) :
    (s.handleRequest p bzip2 env raw plaintext).view = s.view := by
  unfold handleRequest
  split
  · rfl
  rename_i request _
  split
  · rfl
  rename_i handler _
  iterate 2
    split
    · rfl
  extract_lets remote told
  have htold : told.view = s.view := view_tell s (o := .handled handler request remote) rfl
  dsimp only
  iterate 4
    split
    · exact htold
  split
  all_goals have hsent := (sends_of_linkSendPlain ‹_›).apart
  · exact ((hsent.trans (apart_linkSendResource ..)).view).trans htold
  · exact hsent.view.trans htold

/-- An identification leaves the view. -/
theorem view_identifyIngress (crypto : Crypto) (payload : List UInt8) :
    (s.identifyIngress crypto payload).view = s.view := by
  unfold identifyIngress
  dsimp only
  iterate 3
    split
    · rfl
  · exact view_tell s (o := .identified _) rfl

/-! ## Packets -/

/-- What is done with a packet that comes before the link is active or proves a resource. -/
inductive Taken (p : Primitives) (bzip2 : Option Bzip2) (env : Environment) (s : RuntimeLink) :
    RuntimeLink → Prop
  /-- The handshake fails, and the link closes. -/
  | failed {t : RuntimeLink} (protocol : Link) (reason : Status)
      (hpeer : SamePeer s.protocol protocol) (hsends : Sends { s with protocol } t) :
      Taken p bzip2 env s ((t.failPendingRequests reason).linkNotify .closed reason)
  /-- The handshake is completed. -/
  | activated {t : RuntimeLink} (protocol : Link) (now : ℚ) (hpeer : SamePeer s.protocol protocol)
      (hsends : Sends { s with protocol } t) :
      Taken p bzip2 env s
        (({ t with last_inbound := now } : RuntimeLink).linkUpdateKeepalive.linkNotify .active .ok)
  | proved (proof : List UInt8) : Taken p bzip2 env s (s.outgoingResourceProof p bzip2 env proof)
  | ignored : Taken p bzip2 env s s

/-- What is done with a packet before it is opened. -/
theorem taken_protocolIngress {packet : Packet}
    (h : s.protocolIngress p bzip2 env packet = some s') : Taken p bzip2 env s s' := by
  unfold protocolIngress at h
  extract_lets close at h
  split at h
  · -- The proof that an initiator waits for.
    have hpeer := samePeer_initiatorAcceptProof p s.protocol packet.data (env.clock s.asked)
    split at h
    all_goals
      rename_i protocol hresult
      rw [hresult] at hpeer
    · cases h
      exact .failed _ .crypto hpeer.closed (sends_ask { s with protocol := _ })
    have hasked : Sends { s with protocol } ({ s.ask with protocol } : RuntimeLink).ask :=
      (sends_ask { s with protocol }).trans (sends_ask _)
    dsimp only at h
    split at h
    · cases h
      exact .failed _ .io hpeer.closed (hasked.withProtocol _)
    split at h
    all_goals
      rename_i t hsend
      have hsent := hasked.trans (sends_of_linkSendWire hsend)
      cases h
    · refine .failed _ .io ?_ (hsent.withProtocol { t.protocol with state := .closed })
      rw [hsent.frame.protocol]
      exact hpeer.closed
    · exact .activated protocol _ hpeer (hsent.trans (sends_ask t))
  split at h
  · -- The round trip time that a responder waits for.
    have hpeer := samePeer_responderAcceptRtt p s.protocol packet.data (env.clock s.asked)
    split at h
    all_goals
      rename_i protocol hresult
      rw [hresult] at hpeer
      cases h
    · exact .failed protocol .crypto hpeer (sends_ask { s with protocol })
    · exact .activated protocol _ hpeer ((sends_ask { s with protocol }).trans (sends_ask _))
  split at h
  · cases h
    exact .proved packet.data
  split at h
  · cases h
    exact .ignored
  · cases h

end RuntimeLink

end Reticulum.Runtime
