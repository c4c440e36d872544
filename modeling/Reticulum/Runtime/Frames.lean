import Reticulum.Runtime.Moves

/-!
# What the functions of a link leave alone

Few functions of `src/runtime/runtime.c` touch the protocol of a link, its options or who its peer
is: `link_ingress` with the packets of the handshake, `RNS_LINK_CONTEXT_CLOSE` and
`RNS_LINK_CONTEXT_IDENTIFY`, the poll that closes a link, and `rns_runtime_link_destroy`. All others
leave a `Frame`, which also says that they only add to what was told, and nothing about the state of
the link, its peer or its request handlers. Those that only send do still less, which is `Sends`.
What a function does besides to the view of the link is its `Effect`.
-/

namespace Reticulum.Runtime

open List
open Resource (Bzip2 Advertisement)

/-- What is told of requests, resources and packets, and not of the link itself, its peer or its
request handlers. -/
def Observation.routine : Observation → Bool
  | .state _ _ | .identified _ | .handled _ _ _ => false
  | _ => true

/-- The second link is the first one but for its requests, its resources and its clocks. -/
structure Frame (s s' : RuntimeLink) : Prop where
  protocol : s'.protocol = s.protocol
  options : s'.options = s.options
  handlers : s'.handlers = s.handlers
  keepalive : s'.keepalive_seconds = s.keepalive_seconds
  identified : s'.remote_identified = s.remote_identified
  told : ∃ told, s'.log = s.log ++ told ∧ ∀ o ∈ told, o.routine

variable {s s' s'' : RuntimeLink}

namespace Frame

/-- A link that differs in nothing that a frame names. -/
theorem silent (h : (s'.protocol, s'.options, s'.handlers, s'.keepalive_seconds,
    s'.remote_identified, s'.log) = (s.protocol, s.options, s.handlers, s.keepalive_seconds,
      s.remote_identified, s.log)) : Frame s s' := by
  simp only [Prod.mk.injEq] at h
  obtain ⟨hprotocol, hoptions, hhandlers, hkeepalive, hidentified, hlog⟩ := h
  exact ⟨hprotocol, hoptions, hhandlers, hkeepalive, hidentified, [], by rw [hlog, append_nil],
    nofun⟩

/-- A link is in its own frame. -/
theorem refl (s : RuntimeLink) : Frame s s := .silent rfl

/-- Frames compose. -/
theorem trans (h : Frame s s') (h' : Frame s' s'') : Frame s s'' := by
  obtain ⟨told, hlog, hroutine⟩ := h.told
  obtain ⟨told', hlog', hroutine'⟩ := h'.told
  refine ⟨h'.protocol.trans h.protocol, h'.options.trans h.options, h'.handlers.trans h.handlers,
    h'.keepalive.trans h.keepalive, h'.identified.trans h.identified, told ++ told', ?_, ?_⟩
  · rw [hlog', hlog, append_assoc]
  · intro o ho
    exact (mem_append.mp ho).elim (hroutine o) (hroutine' o)

/-- Something routine is told. -/
theorem tell (s : RuntimeLink) {o : Observation} (h : o.routine) : Frame s (s.tell o) :=
  ⟨rfl, rfl, rfl, rfl, rfl, [o], rfl, fun _ ho => (mem_singleton.mp ho) ▸ h⟩

/-- A frame in either case of a test. -/
theorem ite {c : Prop} [Decidable c] {t e : RuntimeLink} (ht : c → Frame s t)
    (he : ¬ c → Frame s e) : Frame s (if c then t else e) := by
  split
  · exact ht ‹_›
  · exact he ‹_›

end Frame

/-- What a function that only sends leaves alone, beside the view. -/
def RuntimeLink.kept (s : RuntimeLink) :
    Link × LinkOptions × List RequestHandler × ℚ × Bool × List RequestReceipt ×
      List ResourceTransfer × Bool :=
  (s.protocol, s.options, s.handlers, s.keepalive_seconds, s.remote_identified, s.receipts,
    s.transfers, s.incoming.application)

/-- The second link is the first one but for packets that were sent and what goes with them. -/
structure Sends (s s' : RuntimeLink) : Prop where
  kept : s'.kept = s.kept
  view : s'.view = s.view
  told : ∃ packets : List (List UInt8), s'.log = s.log ++ packets.map .sent

namespace Sends

/-- Nothing was sent. -/
theorem silent (hkept : s'.kept = s.kept) (hview : s'.view = s.view) (hlog : s'.log = s.log) :
    Sends s s' :=
  ⟨hkept, hview, [], by rw [hlog, map_nil, append_nil]⟩

/-- Nothing happens, and nothing is sent. -/
theorem refl (s : RuntimeLink) : Sends s s := .silent rfl rfl rfl

variable (h : Sends s s')
include h

/-- What is sent by two functions in turn. -/
theorem trans (h' : Sends s' s'') : Sends s s'' := by
  obtain ⟨packets, hlog⟩ := h.told
  obtain ⟨packets', hlog'⟩ := h'.told
  refine ⟨h'.kept.trans h.kept, h'.view.trans h.view, packets ++ packets', ?_⟩
  rw [hlog', hlog, map_append, append_assoc]

/-- What is sent leaves the transfers alone. -/
theorem transfers : s'.transfers = s.transfers :=
  congrArg (fun kept => kept.2.2.2.2.2.2.1) h.kept

/-- The protocol has no part in what is sent. -/
theorem withProtocol (protocol : Link) : Sends { s with protocol } { s' with protocol } :=
  ⟨congrArg (fun kept => (protocol, kept.2)) h.kept, h.view, h.told⟩

/-- What only sends leaves a frame. -/
theorem frame : Frame s s' := by
  obtain ⟨packets, hlog⟩ := h.told
  have hkept := h.kept
  simp only [RuntimeLink.kept, Prod.mk.injEq] at hkept
  obtain ⟨hprotocol, hoptions, hhandlers, hkeepalive, hidentified, -⟩ := hkept
  refine ⟨hprotocol, hoptions, hhandlers, hkeepalive, hidentified, _, hlog, fun o ho => ?_⟩
  obtain ⟨packet, -, rfl⟩ := mem_map.mp ho
  rfl

end Sends

/-- What a function does: it leaves a frame, and if what comes in is in order then its outcome is
moves, with a fault behind them where it `refuses` a segment. -/
structure Effect (refuses : Bool) (s s' : RuntimeLink) : Prop extends Frame s s' where
  outcome : s.view.Sane → Outcome refuses s.view s'.view

namespace Effect

variable {refuses : Bool}

/-- A function that leaves the view alone makes no moves. -/
theorem of_view (h : Frame s s') (hview : s'.view = s.view) : Effect false s s' :=
  ⟨h, fun _ => Steps.of_eq hview.symm⟩

/-- Doing nothing has an effect without moves. -/
theorem refl (s : RuntimeLink) : Effect false s s := .of_view (.refl s) rfl

/-- Without a fault the outcome is moves. -/
theorem steps (h : Effect false s s') (hs : s.view.Sane) : Steps s.view s'.view := h.outcome hs

/-- Effects compose; only the last one may refuse. -/
theorem trans (h : Effect false s s') (h' : Effect refuses s' s'') : Effect refuses s s'' :=
  ⟨h.toFrame.trans h'.toFrame, fun hs => (h'.outcome ((h.steps hs).sane hs)).after (h.steps hs)⟩

/-- An effect in either case of a test. -/
theorem ite {c : Prop} [Decidable c] {t e : RuntimeLink} (ht : c → Effect refuses s t)
    (he : ¬ c → Effect refuses s e) : Effect refuses s (if c then t else e) := by
  split
  · exact ht ‹_›
  · exact he ‹_›

end Effect

/-- What only sends makes no moves. -/
theorem Sends.effect (h : Sends s s') : Effect false s s' := .of_view h.frame h.view

namespace RuntimeLink

variable (p : Primitives) (bzip2 : Option Bzip2) (env : Environment) (s : RuntimeLink)

/-! ## Sending -/

/-- A question to the surroundings sends nothing. -/
theorem sends_ask : Sends s s.ask := .silent rfl rfl rfl

variable (crypto : Crypto) (context : UInt8) (receipt : ℕ) (data : List UInt8)

/-- `send_packet` sends at most its packet. -/
theorem sends_sendPacket (packet_type context : UInt8) (data : List UInt8) :
    Sends s (s.sendPacket crypto env packet_type context data).2 := by
  unfold sendPacket
  split
  · exact .refl s
  rename_i raw _
  split
  · exact .refl s
  dsimp only
  split
  · exact ⟨rfl, view_tell s (o := .sent raw) rfl, [raw], rfl⟩
  · exact sends_ask s

/-- So does `link_send_wire`. -/
theorem sends_linkSendWire :
    Sends s (s.linkSendWire crypto env context data).2 := sends_sendPacket ..

/-- So does `link_send_proof`. -/
theorem sends_linkSendProof :
    Sends s (s.linkSendProof crypto env context data).2 := sends_sendPacket ..

/-- Whether or not it can seal the text, `link_send_plain` only sends. -/
theorem sends_linkSendPlain (plaintext : List UInt8) :
    Sends s (s.linkSendPlain p env context plaintext).2 := by
  unfold linkSendPlain
  split
  · exact .refl s
  split
  · exact sends_ask s
  · exact (sends_ask s).trans (sends_linkSendWire ..)

variable {p env s} in
/-- The link that `link_send_wire` returns. -/
theorem sends_of_linkSendWire {crypto : Crypto} {context : UInt8} {data : List UInt8}
    {result : Except Status (Octets 16)}
    (h : s.linkSendWire crypto env context data = (result, s')) : Sends s s' := by
  have hsends := sends_linkSendWire env s crypto context data
  rwa [h] at hsends

variable {p env s} in
/-- The link that `link_send_plain` returns. -/
theorem sends_of_linkSendPlain {context : UInt8} {data : List UInt8}
    {result : Except Status (Octets 16)}
    (h : s.linkSendPlain p env context data = (result, s')) : Sends s s' := by
  have hsends := sends_linkSendPlain p env s context data
  rwa [h] at hsends

/-- `rns_runtime_link_send` only sends. -/
theorem sends_linkSend (plaintext : List UInt8) :
    Sends s (s.linkSend p env context plaintext).2 := by
  unfold linkSend
  split
  · extract_lets expected
    split
    · exact .refl s
    · exact sends_linkSendWire ..
  · exact sends_linkSendPlain ..

/-- A resource is rejected with a packet. -/
theorem sends_rejectResource (hash : Octets 32) : Sends s (s.rejectResource p env hash) :=
  sends_linkSendPlain ..

/-- A resource is proved with a packet. -/
theorem sends_sendResourceProof (resource : Resource) :
    Sends s (s.sendResourceProof p env resource) := by
  unfold sendResourceProof
  split
  · exact .refl s
  · exact sends_linkSendProof ..

/-- A packet is proved with a packet. -/
theorem sends_proveCurrentPacket (packet_hash : Octets 32) :
    Sends s (s.proveCurrentPacket p env packet_hash) := by
  unfold proveCurrentPacket
  split
  · exact .refl s
  · exact sends_linkSendProof ..

/-- A keepalive is answered with a packet. -/
theorem sends_keepaliveIngress : Sends s (s.keepaliveIngress crypto env data) := by
  have hheard : Sends s ({ s.ask with last_inbound := env.clock s.asked } : RuntimeLink) :=
    .silent rfl rfl rfl
  unfold keepaliveIngress
  extract_lets expected
  split
  · exact .refl s
  split
  · exact hheard.trans (sends_linkSendWire ..)
  · exact hheard

/-- Deadlines of a resource are no part of a frame or a view. -/
theorem sends_resourceRefreshDeadlines (now : ℚ) : Sends s (s.resourceRefreshDeadlines now) :=
  .silent rfl rfl rfl

/-- A resource that is there may change. -/
theorem sends_setResource (h : s.incoming.resource.isSome) (resource : Resource) :
    Sends s { s with incoming := { s.incoming with resource := some resource } } := by
  refine .silent rfl ?_ rfl
  have hnone : s.incoming.resource.isNone = false := by
    rw [← Option.not_isSome, h]
    rfl
  simp [view, hnone]

/-- A request for parts is a packet and new deadlines. -/
theorem sends_resourceRequestParts (retry : Bool) :
    Sends s (s.resourceRequestParts p env retry).2 := by
  unfold resourceRequestParts
  split
  · exact .refl s
  rename_i resource hresource
  have hset := sends_setResource s (hresource ▸ rfl)
  dsimp only
  split
  · exact hset _
  · split
    all_goals
      rename_i heq
      have hsent := (hset _).trans (sends_of_linkSendPlain heq)
    · exact hsent
    · exact (hsent.trans (sends_ask _)).trans (sends_resourceRefreshDeadlines ..)

/-- The parts of a resource are sent, and its transfer stays as it is but for what was sent. -/
theorem sends_sendParts (indexes : List ℕ) (value : ResourceTransfer) :
    Sends s (sendParts crypto env indexes value s).2.2 := by
  induction indexes generalizing value s with
  | nil => exact .refl s
  | cons index indexes ih =>
    unfold sendParts
    split
    · exact .refl s
    split
    all_goals
      rename_i hsend
      have hsent := sends_of_linkSendWire hsend
    · exact hsent
    · split
      all_goals exact hsent.trans (ih _ _)

/-! ## Request receipts -/

/-- A use of a receipt leaves a frame. -/
theorem frame_touch : Frame s (s.touch receipt) := by
  unfold touch
  split
  · exact .silent rfl
  · exact .refl s

/-- A request that ends leaves a frame: what is told of it is routine. -/
theorem frame_conclude (state : RequestState) (status : Status) (response : List UInt8) :
    Frame s (s.conclude receipt state status response) :=
  (Frame.tell s (o := .request receipt state status response) rfl).trans
    (.silent rfl)

/-- In the view a use of a receipt is a use of its place. -/
@[simp]
theorem view_touch : (s.touch receipt).view = s.view.touch receipt := by
  unfold touch View.touch
  change _ = if receipt ∈ s.freed then _ else _
  split <;> rfl

/-- What the end of a request does to the view. -/
theorem view_conclude {state : RequestState} (status : Status) (response : List UInt8)
    (hstate : state ≠ .pending) : (s.conclude receipt state status response).view =
      { s.view with
        states := s.view.states.set receipt state
        endings := s.view.endings ++ [.request receipt] } := by
  have hstates : (s.receipts.modify receipt (fun r => { r with state })).map
      RequestReceipt.state = (s.receipts.map RequestReceipt.state).set receipt state := by
    apply ext_getElem?
    intro i
    simp only [getElem?_map, getElem?_modify, getElem?_set, length_map]
    by_cases h : receipt = i
    · subst h
      cases hr : s.receipts[receipt]? with
      | none => simp [getElem?_eq_none_iff.mp hr]
      | some r => simp [(List.getElem?_eq_some_iff.mp hr).1]
    · simp [h]
  simp [view, conclude, hstates, Observation.ending, if_neg hstate]

/-- A receipt is pending when its state in the view is. -/
theorem isPending_iff : s.isPending receipt = true ↔ s.view.states[receipt]? = some .pending := by
  simp [isPending, requestState, view]

/-- A pending request may end. -/
theorem effect_conclude {receipt : ℕ} {state : RequestState} (status : Status)
    (response : List UInt8) (hpending : s.isPending receipt = true) (hstate : state ≠ .pending) :
    Effect false s (s.conclude receipt state status response) := by
  refine ⟨frame_conclude .., fun _ => ?_⟩
  rw [view_conclude s receipt status response hstate]
  exact (Move.conclude _ _ _ ((isPending_iff s receipt).mp hpending) hstate).steps

/-- A receipt that is registered, or that the resource comes in for, may be read. -/
theorem effect_touch {receipt : ℕ}
    (h : some receipt ∈ s.requests ∨ s.incoming.receipt = some receipt) :
    Effect false s (s.touch receipt) := by
  refine ⟨frame_touch .., fun _ => ?_⟩
  rw [view_touch]
  exact (Move.touch s.view receipt h).steps

/-- A read changes nothing but what it says of pointers that dangle. -/
theorem touch_eq : ∃ dangling, s.touch receipt = { s with dangling } := by
  unfold touch
  split
  · exact ⟨true, rfl⟩
  · exact ⟨s.dangling, rfl⟩

/-- `find_receipt` reads registered receipts, and what it finds is registered and pending. -/
theorem scanReceipts_spec (request_id : Octets 16) (slots : List (Option ℕ))
    (hslots : ∀ slot ∈ slots, slot ∈ s.requests) :
    Effect false s (scanReceipts request_id slots s).2 ∧
      (∃ dangling, (scanReceipts request_id slots s).2 = { s with dangling }) ∧
      ∀ r, (scanReceipts request_id slots s).1 = some r →
        some r ∈ s.requests ∧ s.isPending r = true := by
  induction slots generalizing s with
  | nil => exact ⟨.refl s, ⟨s.dangling, rfl⟩, nofun⟩
  | cons slot slots ih =>
    have htail : ∀ slot ∈ slots, slot ∈ s.requests := fun t h => hslots t (mem_cons_of_mem _ h)
    cases slot with
    | none => exact ih s htail
    | some receipt =>
      have hreceipt : some receipt ∈ s.requests := hslots _ mem_cons_self
      have htouch := effect_touch s (.inl hreceipt)
      obtain ⟨dangling, heq⟩ := s.touch_eq receipt
      unfold scanReceipts
      dsimp only
      rw [heq] at htouch ⊢
      split
      case isTrue h =>
        refine ⟨htouch, ⟨dangling, rfl⟩, ?_⟩
        rintro r ⟨⟩
        exact ⟨hreceipt, h.1⟩
      case isFalse h =>
        obtain ⟨heffect, ⟨dangling', heq'⟩, hfound⟩ := ih { s with dangling } htail
        exact ⟨htouch.trans heffect, ⟨dangling', heq'⟩, hfound⟩

/-- Registered receipts were read, and some that were pending have ended. -/
structure Swept (s s' : RuntimeLink) : Prop extends Effect false s s' where
  requests : s'.requests = s.requests
  incoming : s'.incoming = s.incoming
  transfers : s'.transfers = s.transfers

variable {s} in
/-- The receipt of a slot is read, and ends if it is pending. -/
theorem swept_slot {receipt : ℕ} (hslot : some receipt ∈ s.requests)
    (h : s' = s.touch receipt ∨ ∃ status, (s.touch receipt).isPending receipt = true ∧
      s' = (s.touch receipt).conclude receipt .failed status []) : Swept s s' := by
  have htouch := effect_touch s (.inl hslot)
  obtain ⟨dangling, heq⟩ := s.touch_eq receipt
  rw [heq] at htouch h
  rcases h with rfl | ⟨status, hpending, rfl⟩
  · exact ⟨htouch, rfl, rfl, rfl⟩
  · exact ⟨htouch.trans (effect_conclude _ _ _ hpending (by decide)), rfl, rfl, rfl⟩

/-- A function that goes over the registered receipts sweeps them if it sweeps each. -/
theorem swept_foldl {f : RuntimeLink → Option ℕ → RuntimeLink}
    (hf : ∀ s : RuntimeLink, ∀ slot ∈ s.requests, Swept s (f s slot)) (slots : List (Option ℕ))
    (hslots : ∀ slot ∈ slots, slot ∈ s.requests) : Swept s (slots.foldl f s) := by
  induction slots generalizing s with
  | nil => exact ⟨.refl s, rfl, rfl, rfl⟩
  | cons slot slots ih =>
    have hfirst := hf s slot (hslots slot mem_cons_self)
    have hrest := ih (f s slot) fun t ht => by
      rw [hfirst.requests]
      exact hslots t (mem_cons_of_mem _ ht)
    exact ⟨hfirst.toEffect.trans hrest.toEffect, hrest.requests.trans hfirst.requests,
      hrest.incoming.trans hfirst.incoming, hrest.transfers.trans hfirst.transfers⟩

/-- The loop of `fail_pending_requests` sweeps the slots. -/
theorem swept_failPendingRequests (reason : Status) : Swept s (s.failPendingRequests reason) := by
  refine swept_foldl s (fun s slot hslot => ?_) s.requests (fun _ h => h)
  unfold failSlot
  split
  · exact ⟨.refl s, rfl, rfl, rfl⟩
  refine swept_slot hslot ?_
  dsimp only
  split
  · exact .inr ⟨reason, ‹_›, rfl⟩
  · exact .inl rfl

/-- The loop that expires requests sweeps the slots. -/
theorem swept_expireSlots (now : ℚ) : Swept s (s.requests.foldl (expireSlot now) s) := by
  refine swept_foldl s (fun s slot hslot => ?_) s.requests (fun _ h => h)
  unfold expireSlot
  split
  · exact ⟨.refl s, rfl, rfl, rfl⟩
  refine swept_slot hslot ?_
  dsimp only
  split
  case isTrue h => exact .inr ⟨.timeout, h.1, rfl⟩
  case isFalse h => exact .inl rfl

/-- Whose an advertised resource is: that of the resource that is being received, or that of a
registered pending request, or the application's, or nobody's. -/
structure Owns (s : RuntimeLink) (receipt : Option ℕ) (application : Bool) : Prop where
  continued : s.continuation = true →
    receipt = s.incoming.receipt ∧ application = s.incoming.application
  first : s.continuation = false → ∀ r, receipt = some r →
    some r ∈ s.requests ∧ s.isPending r = true ∧ application = false

/-- Whose an advertised resource is, and what was read to know it. -/
theorem resourceOwner_spec (advertisement : Advertisement) :
    let owner := s.resourceOwner advertisement
    Effect false s owner.2 ∧
      (∃ dangling, owner.2 = { s with dangling }) ∧
      s.Owns owner.1.1 owner.1.2 := by
  unfold resourceOwner
  split
  case isTrue h =>
    refine ⟨?_, ?_, fun _ => ⟨rfl, rfl⟩, fun hfirst => absurd h (by simp [hfirst])⟩
    · cases hreceipt : s.incoming.receipt with
      | none => exact .refl s
      | some receipt => exact effect_touch s (.inr hreceipt)
    · cases s.incoming.receipt with
      | none => exact ⟨s.dangling, rfl⟩
      | some receipt => exact s.touch_eq receipt
  case isFalse h =>
    dsimp only
    split
    · exact ⟨.refl s, ⟨s.dangling, rfl⟩, fun hc => absurd hc h, nofun⟩
    · rename_i request_id _
      obtain ⟨heffect, heq, hfound⟩ := scanReceipts_spec s request_id s.requests (fun _ h => h)
      refine ⟨heffect, heq, fun hc => absurd hc h, fun _ r hr => ?_⟩
      have hr' : (scanReceipts request_id s.requests s).1 = some r := hr
      refine ⟨(hfound r hr').1, (hfound r hr').2, ?_⟩
      simp [findReceipt, hr']

/-! ## The way of a packet -/

variable {p bzip2 env s} in
/-- A packet of an active link goes on from `protocolIngress`. -/
theorem protocolIngress_eq_none_iff {packet : Packet} :
    s.protocolIngress p bzip2 env packet = none ↔
      s.protocol.state = .active ∧ packet.packet_type = 0 := by
  unfold protocolIngress
  dsimp only
  split
  · rename_i h
    constructor
    · intro hnone
      split at hnone
      · cases hnone
      split at hnone
      · cases hnone
      split at hnone <;> cases hnone
    · rintro ⟨hactive, -⟩
      rw [h.1] at hactive
      cases hactive
  split
  · rename_i h
    constructor
    · intro hnone
      split at hnone <;> cases hnone
    · rintro ⟨hactive, -⟩
      rw [h.1] at hactive
      cases hactive
  split
  · rename_i h
    constructor
    · intro hnone
      cases hnone
    · rintro ⟨-, htype⟩
      rw [h.2.1] at htype
      cases htype
  split
  · rename_i h
    constructor
    · intro hnone
      cases hnone
    · rintro ⟨hactive, htype⟩
      exact absurd h (by simp [hactive, htype])
  · rename_i h
    simpa [not_or] using h

end RuntimeLink

end Reticulum.Runtime
