import Reticulum.Runtime.Packets

/-!
# The moves that the functions of the runtime make

What each function of `src/runtime/runtime.c` that has to do with request receipts, or with the
resource that comes in, leaves alone and does to the view of the link: its `Effect`, which is moves,
and for an advertisement possibly a fault, which `refuses` tells from the packet and the state. A
packet or a poll that closes the link leaves no frame, so only its moves are stated.
-/

namespace Reticulum.Runtime.RuntimeLink

open Option List
open Resource (Bzip2 Advertisement)

variable (p : Primitives) (bzip2 : Option Bzip2) (env : Environment) (s : RuntimeLink)

/-! ## Receipts -/

variable (advertisement : Advertisement) (receipt : Option ℕ) (application : Bool)
  (resource : Resource) (status : Status) (plaintext assembled : List UInt8)

/-- A read of a receipt leaves it pending or not. -/
theorem isPending_touch (receipt other : ℕ) :
    (s.touch receipt).isPending other = s.isPending other := by
  obtain ⟨dangling, heq⟩ := s.touch_eq receipt
  rw [heq]
  rfl

/-- A read of a receipt leaves the resource that comes in. -/
theorem incoming_touch (receipt : ℕ) : (s.touch receipt).incoming = s.incoming := by
  obtain ⟨dangling, heq⟩ := s.touch_eq receipt
  rw [heq]

/-- `handle_response` ends a request that is pending. -/
theorem effect_handleResponse : Effect false s (s.handleResponse plaintext) := by
  unfold handleResponse
  split
  · exact .refl s
  rename_i response _
  obtain ⟨heffect, ⟨dangling, heq⟩, hfound⟩ :=
    scanReceipts_spec s response.request_id s.requests (fun _ h => h)
  unfold findReceipt
  split
  case h_1 heq' =>
    rw [heq'] at heffect
    exact heffect
  case h_2 receipt s' heq' =>
    rw [heq'] at heffect heq hfound
    have hpending : s'.isPending receipt = true := by
      rw [show s' = { s with dangling } from heq]
      exact (hfound receipt rfl).2
    refine heffect.trans ?_
    split
    all_goals exact effect_conclude _ _ _ hpending (by decide)

/-! ## The resource that comes in -/

/-- What `resource_release` does to the view. -/
theorem view_resourceRelease :
    s.resourceRelease.view = { s.view with idle := true, receipt := none, serial := none } := rfl

/-- A resource that is not for the application, or that is for a request, may be released. -/
theorem effect_resourceRelease
    (h : s.incoming.application = true → s.incoming.receipt.isSome) :
    Effect false s s.resourceRelease := by
  refine ⟨.silent rfl, fun hs => ?_⟩
  have hserial : s.view.serial = none := by
    cases happlication : s.incoming.application with
    | false => simp [view, happlication]
    | true =>
      obtain ⟨r, hr⟩ := isSome_iff_exists.mp (h happlication)
      exact hs.receipt r hr
  have hview : s.resourceRelease.view = { s.view with idle := true, receipt := none } := by
    rw [view_resourceRelease, ← hserial]
  rw [hview]
  exact (Move.release _ hserial).steps

/-- What telling of a resource for the application does to the view. -/
theorem view_received (serial : ℕ) (hash : Octets 32) (status : Status) (data : List UInt8) :
    (s.tell (.received (some serial) hash status data)).view =
      { s.view with endings := s.view.endings ++ [.received serial] } := by
  simp [view, tell, Observation.ending]

/-- A resource for the application ends with its callback. -/
theorem effect_received (hash : Octets 32) (status : Status) (data : List UInt8)
    (h : s.incoming.application = true) : Effect false s
      (s.tell (.received (some s.incoming.serial) hash status data)).resourceRelease := by
  refine ⟨(Frame.tell s rfl).trans (.silent rfl), fun _ => ?_⟩
  have hserial : s.view.serial = some s.incoming.serial := by
    simp [view, h]
  rw [view_resourceRelease, view_received]
  exact (Move.finish _ _ hserial).steps

/-- `incoming_resource_abort` ends what the resource is for, and releases it. -/
theorem effect_incomingResourceAbort : Effect false s (s.incomingResourceAbort status) := by
  unfold incomingResourceAbort
  extract_lets incoming hash released fallback
  -- The release and what ends the request or the resource commute.
  have hfallback (t : RuntimeLink) (h : t.incoming = incoming) :
      Effect false t (fallback t.resourceRelease) := by
    simp only [fallback, ← h]
    exact .ite (effect_received t hash status []) fun happlication =>
      effect_resourceRelease t (absurd · happlication)
  split
  · exact hfallback s rfl
  · rename_i receipt hreceipt
    have hincoming := s.incoming_touch receipt
    have hswap : released.touch receipt = (s.touch receipt).resourceRelease := by
      unfold touch
      change (if receipt ∈ s.freed then _ else _) = _
      split <;> rfl
    rw [hswap]
    refine (effect_touch s (.inr hreceipt)).trans (.ite (fun hpending => ?_) fun _ =>
      hfallback _ hincoming)
    refine (effect_conclude (s.touch receipt) status [] hpending (by decide)).trans
      (effect_resourceRelease ((s.touch receipt).conclude receipt .failed status []) fun _ => ?_)
    rw [show ((s.touch receipt).conclude receipt .failed status []).incoming = s.incoming from
      hincoming, hreceipt]
    rfl

/-- The next request for parts is sent, or the resource that comes in is given up. -/
theorem effect_requestOrAbort : Effect false s (match s.resourceRequestParts p env false with
    | (.ok, s) => s
    | (_, s) => s.incomingResourceAbort .io) := by
  have hsends := (sends_resourceRequestParts p env s false).effect
  split
  all_goals
    rename_i heq
    rw [heq] at hsends
  · exact hsends
  · exact hsends.trans (effect_incomingResourceAbort ..)

/-- A resource comes in for whom it is. -/
theorem effect_attachResource (hnone : s.incoming.resource = none)
    (howns : s.Owns receipt application) (hsome : application = true ∨ receipt.isSome) :
    Effect false s (s.attachResource advertisement receipt application resource) := by
  refine ⟨.silent rfl, fun _ => ?_⟩
  cases hc : s.continuation with
  | true =>
    obtain ⟨rfl, rfl⟩ := howns.continued hc
    refine Steps.of_eq ?_
    have hassembled : s.incoming.assembled.isNone = false := by
      simp only [continuation, Bool.and_eq_true] at hc
      rw [← not_isSome, hc.1]
      rfl
    simp [view, attachResource, hc, hassembled]
  | false =>
    have hassembled : s.incoming.assembled = none := by
      simpa [continuation, hnone] using hc
    have hidle : s.view.idle = true := by simp [view, hnone, hassembled]
    cases receipt with
    | some r =>
      obtain ⟨hregistered, -, rfl⟩ := howns.first hc r rfl
      have hview : (s.attachResource advertisement (some r) false resource).view =
          { s.view with idle := false, receipt := some r, serial := none } := by
        simp [view, attachResource]
      rw [hview]
      exact (Move.takeReceipt _ r hidle hregistered).steps
    | none =>
      obtain rfl : application = true := by simpa using hsome
      have hview : (s.attachResource advertisement none true resource).view =
          { s.view with
            idle := false
            receipt := none
            serial := some s.view.taken
            taken := s.view.taken + 1 } := by
        simp [view, attachResource, hc]
      rw [hview]
      exact (Move.takeApplication _ hidle).steps

/-- What is being received may change while a resource is there. -/
theorem view_beginSegment (first : Bool) (h : s.incoming.resource.isSome) :
    (s.beginSegment advertisement first).view = s.view := by
  have hnone : s.incoming.resource.isNone = false := by
    rw [← not_isSome, h]
    rfl
  cases first <;> simp [view, beginSegment, hnone]

/-- An advertisement is taken over. -/
theorem effect_takeResource (hnone : s.incoming.resource = none)
    (howns : s.Owns receipt application) (hsome : application = true ∨ receipt.isSome) :
    Effect false s (s.takeResource p env advertisement receipt application resource) := by
  unfold takeResource
  extract_lets first attached
  have htake : Effect false s attached.ask :=
    (effect_attachResource s advertisement receipt application resource hnone howns hsome).trans
      (sends_ask _).effect
  refine .ite (fun _ => htake.trans (effect_incomingResourceAbort ..)) fun _ => ?_
  have hbegin : Effect false attached.ask (attached.ask.beginSegment advertisement first) :=
    .of_view (.silent rfl) (view_beginSegment attached.ask advertisement first rfl)
  exact htake.trans (hbegin.trans (effect_requestOrAbort ..))

/-- Whether an advertisement is that of the next segment of the resource that is being received, and
cannot be accepted, while the resource is for the application or for a request that has ended. -/
def refuses (env : Environment) (s : RuntimeLink) (advertisement : Advertisement) : Bool :=
  s.continuation && !s.wrongSegment advertisement &&
    (s.ask.acceptResource env advertisement s.incoming.receipt
      s.incoming.application).toOption.isNone &&
    (s.incoming.application || s.incoming.receipt.any (fun receipt => !s.isPending receipt))

/-- Whether the payload is an advertisement that the link refuses. -/
def refusesSegment (env : Environment) (s : RuntimeLink) (plaintext : List UInt8) : Bool :=
  (Resource.advertisementParse plaintext).toOption.any (s.refuses env)

/-- What is refused, by whose it is. -/
theorem refuses_eq {env : Environment} {s : RuntimeLink} {advertisement : Advertisement}
    {receipt : Option ℕ} {application : Bool} (h : s.Owns receipt application) :
    s.refuses env advertisement = (s.continuation && !s.wrongSegment advertisement &&
      (s.ask.acceptResource env advertisement receipt application).toOption.isNone &&
      (application || receipt.any fun receipt => !s.isPending receipt)) := by
  cases hc : s.continuation with
  | false => simp [refuses, hc]
  | true =>
    obtain ⟨rfl, rfl⟩ := h.continued hc
    rw [refuses, hc]

/-- One more question changes nothing in whose a resource is. -/
theorem Owns.ask {s : RuntimeLink} {receipt : Option ℕ} {application : Bool}
    (h : s.Owns receipt application) : s.ask.Owns receipt application := ⟨h.continued, h.first⟩

/-- An advertisement that could not be accepted. -/
theorem effect_acceptFailed (hnone : s.incoming.resource = none)
    (howns : s.Owns receipt application) (hsome : application = true ∨ receipt.isSome) :
    Effect (s.continuation && (application || receipt.any (fun receipt => !s.isPending receipt)))
      s (s.acceptFailed p env advertisement receipt application status) := by
  unfold acceptFailed
  dsimp only
  have hsame : ({ s with incoming := { s.incoming with resource := none } } : RuntimeLink) = s := by
    rw [← hnone]
  rw [hsame]
  obtain ⟨hframe, hview⟩ := (sends_rejectResource p env s advertisement.hash).apart
  generalize s.rejectResource p env advertisement.hash = s' at hframe hview ⊢
  cases receipt with
  | some receipt =>
    refine ⟨hframe.trans (frame_conclude ..), fun hs => ?_⟩
    have hfalse : application = false := by
      cases hc : s.continuation with
      | true =>
        obtain ⟨hreceipt, rfl⟩ := howns.continued hc
        have hserial := hs.receipt receipt hreceipt.symm
        cases happlication : s.incoming.application with
        | true => simp [view, happlication] at hserial
        | false => rfl
      | false => exact (howns.first hc receipt rfl).2.2
    subst hfalse
    have hpending : s'.isPending receipt = s.isPending receipt := by
      rw [Bool.eq_iff_iff, isPending_iff, isPending_iff, hview]
    cases hp : s.isPending receipt with
    | true =>
      have hsteps := (effect_conclude s' status [] (hpending.trans hp)
        (show RequestState.failed ≠ .pending by decide)).steps (hview ▸ hs)
      rw [hview] at hsteps
      simpa [Outcome, hp] using hsteps
    | false =>
      have hc : s.continuation = true := by
        by_contra hc
        have hfirst := (howns.first (Bool.not_eq_true _ ▸ hc) receipt rfl).2.1
        exact absurd hfirst (by simp [hp])
      -- The request has ended, and ends again.
      have hfault : Fault s.view (s'.conclude receipt .failed status []).view := by
        rw [view_conclude _ _ _ _ (by decide), hview]
        refine .request _ receipt (howns.continued hc).1.symm ?_
        rw [Ne, ← isPending_iff, hp]
        exact Bool.false_ne_true
      simp only [Outcome, hc, hp, Bool.true_and, Bool.false_or, any_some, Bool.not_false, if_true]
      exact ⟨s.view, .refl, hfault⟩
  | none =>
    obtain rfl : application = true := by simpa using hsome
    refine ⟨hframe.trans (.tell _ rfl), fun hs => ?_⟩
    cases hc : s.continuation with
    | true =>
      have hserial : s.view.serial = some s.incoming.serial := by
        simp [view, ← (howns.continued hc).2]
      have hfault : Fault s.view
          (s'.tell (.received (some s.incoming.serial) advertisement.hash status [])).view := by
        rw [view_received, hview]
        exact .received _ _ hserial
      exact ⟨s.view, .refl, hfault⟩
    | false =>
      refine Steps.of_eq ?_
      rw [← hview]
      exact (view_tell s' rfl).symm

/-- `resource_advertised`. -/
theorem effect_resourceAdvertised :
    Effect (s.refusesSegment env plaintext) s (s.resourceAdvertised p env plaintext) := by
  unfold resourceAdvertised refusesSegment
  cases Resource.advertisementParse plaintext with
  | error _ => exact .refl s
  | ok advertisement =>
  change Effect (s.refuses env advertisement) _ _
  dsimp only
  split
  case isTrue h =>
    simp only [Bool.and_eq_true, Bool.not_eq_true'] at h
    rw [refuses, h.1]
    exact (sends_rejectResource ..).effect
  obtain ⟨howner, ⟨dangling, heq⟩, howns⟩ := resourceOwner_spec s advertisement
  generalize s.resourceOwner advertisement = owner at howner heq howns
  obtain ⟨⟨receipt, application⟩, s'⟩ := owner
  dsimp only at heq howner howns ⊢
  -- Only what is said of pointers differs from here on.
  have hc : s.continuation = s'.continuation := by rw [heq]; rfl
  have hrefuses : s.refuses env advertisement = s'.refuses env advertisement := by rw [heq]; rfl
  replace howns : s'.Owns receipt application := by
    rw [heq]
    exact ⟨howns.continued, howns.first⟩
  rw [hc, hrefuses, refuses_eq howns]
  refine howner.trans ?_
  split
  case isTrue h =>
    rw [Bool.and_eq_true] at h
    rw [h.1, h.2]
    exact (sends_rejectResource ..).effect.trans (effect_incomingResourceAbort ..)
  rename_i hwrong
  split
  case isTrue h =>
    simp only [Bool.and_eq_true, Bool.not_eq_true', isNone_iff_eq_none] at h
    rw [h.1, h.2, any_none, Bool.or_false, Bool.and_false]
    exact (sends_rejectResource ..).effect
  have hsome : application = true ∨ receipt.isSome := by
    cases application <;> cases receipt <;> simp_all
  split
  case isTrue h =>
    -- A resource is being received, so none is expected to go on.
    have hc : s'.continuation = false := by
      rw [continuation, ← not_isSome, h, Bool.not_true, Bool.and_false]
    rw [hc]
    split
    · exact (sends_resourceRequestParts ..).effect
    · exact (sends_rejectResource ..).effect
  rename_i hresource
  have hnone : s'.incoming.resource = none := by simpa using hresource
  split
  case isTrue h =>
    simp only [Bool.and_eq_true, Bool.not_eq_true'] at h
    rw [h.1.1]
    exact ((sends_ask s').trans (sends_rejectResource ..)).effect
  have hasked := ((sends_ask s').trans (sends_ask _)).effect
  split
  case h_1 status herror =>
    have hcontinued : (s'.continuation && !s'.wrongSegment advertisement) = s'.continuation := by
      cases hc : s'.continuation <;> simp_all
    rw [herror, hcontinued, Except.toOption, isNone_none, Bool.and_true]
    exact hasked.trans (effect_acceptFailed p env s'.ask.ask advertisement receipt application
      status hnone howns.ask.ask hsome)
  case h_2 resource hok =>
    rw [hok, Except.toOption, isNone_some, Bool.and_false, Bool.false_and]
    exact hasked.trans (effect_takeResource p env s'.ask.ask advertisement receipt application
      resource hnone howns.ask.ask hsome)

/-- What is assembled may grow while something is being received. -/
theorem view_assembled (h : s.view.idle = false) (resource : Option Resource)
    (assembled : List UInt8) (hash : Octets 32) (next_segment : ℕ) :
    ({ s with incoming := { s.incoming with
        resource, assembled := some assembled, hash, next_segment } } : RuntimeLink).view =
      s.view := by
  rw [show s.view = { s.view with idle := false } by rw [← h]]
  simp [view]

/-- The end of `resource_complete`. -/
theorem effect_finishSegment (hidle : s.view.idle = false)
    (hpending : ∀ r, s.view.receipt = some r → s.view.states[r]? = some .pending) :
    Effect false s (s.finishSegment env assembled) := by
  unfold finishSegment
  extract_lets incoming kept
  have hview : kept.view = s.view := view_assembled s hidle ..
  have hkept : Effect false s kept := .of_view (.silent rfl) hview
  refine .ite (fun _ => .of_view (.silent rfl) (view_assembled s hidle none assembled (.zero 32)
    (s.incoming.next_segment + 1))) fun _ => hkept.trans ?_
  refine .ite (fun _ => effect_incomingResourceAbort ..) fun _ => ?_
  refine .ite (effect_received kept _ .ok assembled) fun happlication => ?_
  split
  · exact effect_resourceRelease kept (absurd · happlication)
  · rename_i receipt hreceipt
    have hpending' : (kept.touch receipt).isPending receipt = true := by
      rw [isPending_iff, view_touch, View.touch_eq]
      exact hpending receipt hreceipt
    refine (effect_touch kept (.inr hreceipt)).trans ?_
    unfold concludeResponse
    split
    all_goals
      refine (effect_conclude _ _ _ hpending' (by decide)).trans (effect_resourceRelease _ ?_)
      rw [conclude, incoming_touch]
      exact (absurd · happlication)

/-- `resource_complete`, of a resource that is for the application or for a pending request. -/
theorem effect_resourceComplete (hidle : s.view.idle = false)
    (hpending : ∀ r, s.view.receipt = some r → s.view.states[r]? = some .pending) :
    Effect false s (s.resourceComplete p bzip2 env resource assembled) := by
  have hasked := (sends_ask s).effect
  refine .ite (fun _ => hasked.trans (effect_incomingResourceAbort ..)) fun _ => ?_
  dsimp only
  split
  · exact hasked.trans (effect_incomingResourceAbort ..)
  · rename_i bytes resource' _
    have hsends := (sends_ask s).trans (sends_sendResourceProof p env s.ask resource')
    rw [← hsends.view] at hidle hpending
    exact hsends.effect.trans (effect_finishSegment env _ _ hidle hpending)

/-- The part of `resource_part` for a request that is still pending, or the application. -/
theorem effect_takePart (part : List UInt8) (hresource : s.incoming.resource = some resource)
    (hpending : ∀ r, s.view.receipt = some r → s.view.states[r]? = some .pending) :
    Effect false s (s.takePart p bzip2 env resource part) := by
  refine .ite (fun _ => (sends_ask s).effect) fun _ => ?_
  have hset := (sends_setResource s (hresource ▸ rfl) (resource.receivePart p.toCrypto part).2).view
  refine .ite (fun _ => .of_view (.silent rfl) hset) fun _ => ?_
  have hidle : s.view.idle = false := by simp [view, hresource]
  rw [← hset] at hidle hpending
  refine .ite (fun _ => ?_) fun _ => ?_
  · refine .trans ?_ (effect_resourceComplete p bzip2 env _ _ _ hidle hpending)
    exact .of_view (.silent rfl) hset
  · refine .trans ?_ (effect_requestOrAbort ..)
    exact .of_view (.silent rfl) hset

/-- `resource_part`. -/
theorem effect_resourcePart (part : List UInt8) : Effect false s (s.resourcePart p bzip2 env part) := by
  unfold resourcePart
  split
  · exact .refl s
  rename_i resource hresource
  split
  · rename_i hreceipt
    refine effect_takePart p bzip2 env s resource part hresource ?_
    intro r hr
    rw [show s.view.receipt = none from hreceipt] at hr
    cases hr
  · rename_i receipt hreceipt
    have hincoming := s.incoming_touch receipt
    refine (effect_touch s (.inr hreceipt)).trans (.ite (fun _ => ?_) fun hpending => ?_)
    · refine effect_resourceRelease _ fun _ => ?_
      rw [hincoming, hreceipt]
      rfl
    · rw [Bool.not_eq_true', Bool.not_eq_false] at hpending
      refine effect_takePart p bzip2 env _ resource part (hincoming ▸ hresource) ?_
      intro r hr
      obtain rfl : receipt = r := by
        rw [view_touch, View.touch_eq] at hr
        exact Option.some.inj (hreceipt.symm.trans hr)
      exact (isPending_iff _ _).mp hpending

/-- `resource_hashmap_update`. -/
theorem effect_resourceHashmapUpdate : Effect false s (s.resourceHashmapUpdate p env plaintext) := by
  unfold resourceHashmapUpdate
  split
  · exact .refl s
  rename_i resource hresource
  refine .ite (fun _ => .refl s) fun _ => ?_
  split
  · rename_i resource' _
    refine .trans ?_ (effect_requestOrAbort ..)
    exact .of_view (.silent rfl) (sends_setResource s (hresource ▸ rfl) resource').view
  · exact effect_incomingResourceAbort ..

/-- `fail_link_resources`. -/
theorem effect_failLinkResources : Effect false s (s.failLinkResources status) := by
  unfold failLinkResources
  extract_lets t
  have hfirst : Effect false s t :=
    .ite (fun _ => effect_incomingResourceAbort ..) fun _ => .refl s
  split
  · exact hfirst
  · exact hfirst.trans (apart_outgoingResourceFinish ..).effect

/-! ## Packets and polls -/

/-- The requests whose deadlines have passed end. -/
theorem effect_pollRequests (now : ℚ) : Effect false s (s.pollRequests now) := by
  have hexpire := (swept_expireSlots s now).toEffect
  unfold pollRequests
  dsimp only
  split
  · exact hexpire
  · exact hexpire.trans (.ite (fun _ => (apart_outgoingResourceFinish ..).effect) fun _ => .refl _)

/-- The resource that comes in ends at its deadline. -/
theorem effect_pollResource (now : ℚ) : Effect false s (s.pollResource p env now) := by
  refine .ite (fun _ => effect_incomingResourceAbort ..) fun _ => .ite (fun _ => ?_) fun _ => .refl s
  have hparts := (sends_resourceRequestParts p env s true).effect
  split
  all_goals
    rename_i heq
    rw [heq] at hparts
  · exact hparts
  all_goals exact hparts.trans (effect_incomingResourceAbort ..)

/-- A link that closes ends its requests and its resource. -/
theorem effect_close (reason : Status) :
    Effect false s ((s.failPendingRequests reason).failLinkResources reason) :=
  (swept_failPendingRequests s reason).toEffect.trans (effect_failLinkResources ..)

/-- The link itself at a poll. -/
theorem pollProtocol_steps (crypto : Crypto) (env : Environment) (s : RuntimeLink) (now : ℚ)
    (hs : s.view.Sane) : Steps s.view (s.pollProtocol crypto env now).view := by
  unfold pollProtocol
  split
  · rename_i protocol _
    rw [view_linkNotify]
    exact (effect_close { s.ask with protocol } .timeout).steps hs
  split
  · rw [view_linkNotify]
    exact (effect_close { s.ask with protocol := { s.protocol with state := .closed } }
      .timeout).steps hs
  split
  · exact ((sends_ask s).trans (sends_linkSendWire ..)).effect.steps hs
  · exact .refl

/-- The polls before that of the link itself. -/
theorem effect_polls : Effect false s ((s.ask.pollRequests (env.clock s.asked)).pollResource p env
    (env.clock s.asked)) :=
  (sends_ask s).effect.trans ((effect_pollRequests ..).trans (effect_pollResource ..))

/-- `rns_runtime_poll`. -/
theorem poll_steps (hs : s.view.Sane) : Steps s.view (s.poll p env).view := by
  have hsteps := (effect_polls p env s).steps hs
  exact hsteps.trans (pollProtocol_steps p.toCrypto env _ _ (hsteps.sane hs))

/-- A packet that an open link takes before it is active, or the proof of a resource. -/
theorem protocolIngress_steps {s' : RuntimeLink} {packet : Packet}
    (h : s.protocolIngress p bzip2 env packet = some s') (hs : s.view.Sane) :
    Steps s.view s'.view := by
  cases taken_protocolIngress p bzip2 env s h with
  | @failed t protocol reason hpeer hsends =>
    rw [view_linkNotify]
    exact (hsends.effect.trans (swept_failPendingRequests t reason).toEffect).steps hs
  | activated protocol now hpeer hsends =>
    rw [view_linkNotify]
    exact hsends.effect.steps hs
  | proved proof => exact (apart_outgoingResourceProof ..).effect.steps hs
  | ignored => exact .refl

/-- The payload of a packet that neither closes the link nor has to do with its peer. It refuses a
segment when it is an advertisement that does. -/
theorem effect_dispatch (raw : List UInt8) {context : UInt8} (link_encrypted : Bool)
    (payload : List UInt8) (hclose : context ≠ Context.close) (hidentify : context ≠ Context.identify)
    (hrequest : context ≠ Context.request) :
    Effect (decide (context = Context.resourceAdv) && s.refusesSegment env payload) s
      (s.dispatch p bzip2 env raw context link_encrypted payload) := by
  by_cases hadv : context = Context.resourceAdv
  · subst hadv
    exact effect_resourceAdvertised ..
  unfold dispatch
  rw [decide_eq_false hadv, Bool.false_and, if_neg hclose, if_neg hidentify, if_neg hrequest]
  refine .ite (fun _ => effect_handleResponse ..) fun _ => ?_
  rw [if_neg hadv]
  refine .ite (fun _ => (apart_outgoingResourceRequest ..).effect) fun _ => ?_
  refine .ite (fun _ => effect_resourceHashmapUpdate ..) fun _ => ?_
  refine .ite (fun _ => effect_resourcePart ..) fun _ => ?_
  refine .ite (fun _ => .ite (fun _ => effect_incomingResourceAbort ..) fun _ => .refl s) fun _ => ?_
  refine .ite (fun _ => ?_) fun _ => .ite (fun _ => ?_) fun _ => .refl s
  · split
    · exact .refl s
    · exact .ite (fun _ => (apart_outgoingResourceFinish ..).effect) fun _ => .refl s
  · split
    · exact .refl s
    · exact .trans (.ite (fun _ => (sends_proveCurrentPacket ..).effect) fun _ => .refl s)
        (.of_view (.tell _ rfl) (view_tell _ rfl))

/-- What the dispatch of any packet does to the view. -/
theorem dispatch_outcome (raw : List UInt8) (context : UInt8) (link_encrypted : Bool)
    (payload : List UInt8) (hs : s.view.Sane) :
    Outcome (decide (context = Context.resourceAdv) && s.refusesSegment env payload) s.view
      (s.dispatch p bzip2 env raw context link_encrypted payload).view := by
  by_cases hclose : context = Context.close
  · subst hclose
    change Steps _ (RuntimeLink.linkNotify _ _ _).view
    rw [view_linkNotify]
    exact (effect_close { s with protocol := { s.protocol with state := .closed } } _).steps hs
  by_cases hidentify : context = Context.identify
  · subst hidentify
    exact Steps.of_eq (view_identifyIngress ..).symm
  by_cases hrequest : context = Context.request
  · subst hrequest
    exact Steps.of_eq (view_handleRequest ..).symm
  · exact (effect_dispatch p bzip2 env s raw link_encrypted payload hclose hidentify
      hrequest).outcome hs

/-- Whether a packet is an advertisement that the link refuses. -/
def refusesPacket (p : Primitives) (env : Environment) (s : RuntimeLink) (own_interface : Bool)
    (raw : List UInt8) : Bool :=
  (Packet.decode raw).any (fun packet =>
    decide (packet.destination_hash = s.protocol.link_id) && own_interface &&
    decide (s.protocol.state = .active ∧ packet.packet_type = 0) &&
    decide (packet.context = Context.resourceAdv) &&
    (s.protocol.decrypt p packet.data mtu).any (fun plaintext =>
      ({ s.ask with last_inbound := env.clock s.asked } : RuntimeLink).refusesSegment env
        plaintext))

/-- `link_ingress`. -/
theorem linkIngress_outcome (own_interface : Bool) (raw : List UInt8) (hs : s.view.Sane) :
    Outcome (s.refusesPacket p env own_interface raw) s.view
      (s.linkIngress p bzip2 env own_interface raw).view := by
  unfold linkIngress refusesPacket
  cases Packet.decode raw with
  | none => exact .refl
  | some packet =>
  rw [any_some]
  dsimp only
  split
  · rename_i h
    rw [decide_eq_false h]
    exact .refl
  rename_i hid
  rw [decide_eq_true (not_not.mp hid), Bool.true_and]
  split
  · rename_i h
    rw [Bool.not_eq_true'] at h
    rw [h]
    exact Steps.of_eq (view_linkNotify ..).symm
  rename_i hown
  rw [Bool.not_eq_true', Bool.not_eq_false] at hown
  rw [hown, Bool.true_and]
  split
  · rename_i s' heq
    have hno : ¬ (s.protocol.state = .active ∧ packet.packet_type = 0) := by
      rw [← @protocolIngress_eq_none_iff p bzip2 env, heq]
      exact some_ne_none s'
    rw [decide_eq_false hno]
    exact protocolIngress_steps p bzip2 env s heq hs
  · rename_i heq
    rw [decide_eq_true (protocolIngress_eq_none_iff.mp heq), Bool.true_and]
    split
    · rename_i hkeepalive
      rw [hkeepalive]
      exact (sends_keepaliveIngress ..).effect.steps hs
    split_ifs with hplain
    · split
      · rename_i hnone
        rw [hnone, any_none, Bool.and_false]
        exact Steps.of_eq (view_linkNotify ..).symm
      · rename_i plaintext hsome
        rw [hsome, any_some]
        exact dispatch_outcome p bzip2 env { s.ask with last_inbound := env.clock s.asked } raw
          packet.context true plaintext hs
    · have hno : packet.context ≠ Context.resourceAdv := by
        intro h
        exact hplain (by rw [h]; decide)
      have houtcome := dispatch_outcome p bzip2 env s raw packet.context false packet.data hs
      rw [decide_eq_false hno, Bool.false_and] at houtcome ⊢
      exact houtcome

/-! ## Calls of the application -/

/-- `rns_runtime_link_request` registers a new receipt, or does nothing. -/
theorem effect_linkRequest (path data : List UInt8) (options : RequestOptions) :
    Effect false s (s.linkRequest p env path data options).2 := by
  have hasked := (sends_ask s).trans (sends_ask _)
  unfold linkRequest
  split
  · exact .refl s
  split
  · exact .refl s
  rename_i slot hslot
  split
  · exact (sends_ask s).effect
  dsimp only
  split
  · exact (sends_ask s).effect
  split
  · exact hasked.effect
  split
  all_goals
    rename_i heq
    have hsent := (hasked.trans (sends_ask _)).trans (sends_of_linkSendPlain heq)
  · exact hsent.effect
  · rename_i request_id s'
    refine hsent.effect.trans ⟨.silent rfl, fun _ => ?_⟩
    have hfree : s.requests[slot]? = some none := by
      obtain ⟨hlt, hnone, -⟩ := findIdx?_eq_some_iff_getElem.mp hslot
      rw [getElem?_eq_getElem hlt, isNone_iff_eq_none.mp hnone]
    have hmove : Move s'.view { s'.view with
        states := s'.view.states ++ [.pending]
        requests := s'.view.requests.set slot (some s'.view.states.length) } := by
      refine .register s'.view slot ?_
      rw [hsent.view]
      exact hfree
    refine hmove.steps.trans (Steps.of_eq ?_)
    simp [view]

/-- `rns_request_receipt_cancel`, of a receipt that lives. -/
theorem effect_requestReceiptCancel (receipt : ℕ) (h : receipt ∉ s.freed) :
    Effect false s (s.requestReceiptCancel receipt) := by
  have hsame : s.touch receipt = s := if_neg h
  unfold requestReceiptCancel
  rw [hsame]
  refine .ite (fun _ => .refl s) fun hpending => ?_
  rw [Bool.not_eq_true', Bool.not_eq_false] at hpending
  exact effect_conclude s _ _ hpending (by decide)

/-! ## The end of a link -/

/-- Nothing comes in after `incoming_resource_abort`. -/
theorem incomingResourceAbort_incoming :
    (s.incomingResourceAbort status).incoming = Incoming.empty := by
  unfold incomingResourceAbort
  dsimp only
  split
  · split <;> rfl
  · split
    · exact incoming_touch ..
    · split
      all_goals exact incoming_touch ..

/-- Nothing comes in after `fail_link_resources`. -/
theorem failLinkResources_idle : (s.failLinkResources status).view.idle = true := by
  have hidle : (if s.incoming.resource.isSome ∨ s.incoming.assembled.isSome then
      s.incomingResourceAbort status else s).view.idle = true := by
    split_ifs with h
    · simp [view, incomingResourceAbort_incoming, Incoming.empty]
    · simpa [view, not_or] using h
  unfold failLinkResources
  dsimp only
  split
  · exact hidle
  · rw [(apart_outgoingResourceFinish ..).view]
    exact hidle

/-- A slot that fails leaves nothing pending that was not. -/
theorem isPending_of_failSlot {reason : Status} {s : RuntimeLink} {slot : Option ℕ} {receipt : ℕ}
    (h : (failSlot reason s slot).isPending receipt = true) :
    s.isPending receipt = true ∧ slot ≠ some receipt := by
  cases slot with
  | none => exact ⟨h, nofun⟩
  | some other =>
    have htouch := isPending_touch s other
    unfold failSlot at h
    dsimp only at h
    split_ifs at h with hpending
    · rw [isPending_iff, view_conclude _ _ _ _ (by decide)] at h
      have hne : other ≠ receipt := by
        rintro rfl
        rw [getElem?_set_self'] at h
        cases (s.touch other).view.states[other]? <;> simp at h
      rw [getElem?_set_ne hne, ← isPending_iff, htouch] at h
      exact ⟨h, by simpa using hne⟩
    · rw [htouch] at h hpending
      refine ⟨h, ?_⟩
      rintro ⟨⟩
      exact hpending h

/-- No registered receipt is pending after `fail_pending_requests`. -/
theorem failPendingRequests_settles (reason : Status) (receipt : ℕ)
    (hreceipt : some receipt ∈ s.requests) :
    (s.failPendingRequests reason).isPending receipt = false := by
  rw [← Bool.not_eq_true]
  have hfold (slots : List (Option ℕ)) (s : RuntimeLink)
      (h : (slots.foldl (failSlot reason) s).isPending receipt = true) :
      s.isPending receipt = true ∧ some receipt ∉ slots := by
    induction slots generalizing s with
    | nil => exact ⟨h, not_mem_nil⟩
    | cons slot slots ih =>
      obtain ⟨hpending, hrest⟩ := ih (failSlot reason s slot) h
      obtain ⟨hbefore, hslot⟩ := isPending_of_failSlot hpending
      exact ⟨hbefore, not_mem_cons_of_ne_of_not_mem hslot.symm hrest⟩
  intro h
  exact (hfold s.requests s h).2 hreceipt

/-- `rns_runtime_link_destroy` ends what is open, and then frees the registered receipts. -/
theorem linkDestroy_spec (hs : s.view.Sane) : ∃ v, Steps s.view v ∧ v.idle = true ∧
      (∀ r, some r ∈ v.requests → v.states[r]? ≠ some .pending) ∧
      (s.linkDestroy p env).view = v.closed := by
  unfold linkDestroy
  dsimp only
  generalize hs₁ : (if s.protocol.state = .active then
      (s.linkSend p env Context.close s.protocol.link_id.bytes).2 else s) = s₁
  have hfirst : s₁.view = s.view := by
    rw [← hs₁]
    split
    · exact (sends_linkSend ..).view
    · rfl
  rw [← hfirst] at hs ⊢
  have hclosed : s₁.view = ({ s₁ with protocol := { s₁.protocol with state := .closed } } :
    RuntimeLink).view := rfl
  generalize ({ s₁ with protocol := _ } : RuntimeLink) = t at hclosed ⊢
  rw [hclosed] at hs ⊢
  have hresources := (effect_failLinkResources t .invalidState).steps hs
  have hidle := failLinkResources_idle t .invalidState
  generalize t.failLinkResources .invalidState = s₂ at hresources hidle ⊢
  have hswept := swept_failPendingRequests s₂ .invalidState
  refine ⟨(s₂.failPendingRequests .invalidState).view,
    hresources.trans (hswept.steps (hresources.sane hs)), ?_, ?_, ?_⟩
  · simpa only [view, hswept.incoming] using hidle
  · intro r hr
    rw [Ne, ← isPending_iff, failPendingRequests_settles s₂ .invalidState r (hswept.requests ▸ hr)]
    exact Bool.false_ne_true
  · rw [← view_linkNotify (s₂.failPendingRequests .invalidState) .closed .ok]
    rfl

end Reticulum.Runtime.RuntimeLink
