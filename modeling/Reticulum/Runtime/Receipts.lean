import Reticulum.Resource.Transfer
import Reticulum.Runtime.Outcomes

/-!
# Receipts that are destroyed

`rns_request_receipt_destroy` takes a receipt out of the request table of its link and frees it, but
the link keeps its pointer to the receipt when a response resource is coming in for it. So the
pointer is good exactly as long as no receipt is destroyed while its response comes in, which
`receipts_safe_iff` says for every run.

`View.Sound` is the invariant: the receipt that a resource comes in for is registered, and what was
freed is not. The moves keep it (`Move.sound`), since a move reads only receipts that are registered
or that a resource comes in for.
-/

namespace Reticulum.Runtime

open List Run
open Resource (Bzip2)
open Resource.Transfer (plainLink)
open Link (plainPrimitives)

/-- Pointers to receipts are good, and none was used when it was not. -/
structure View.Sound (v : View) : Prop where
  sane : v.Sane
  dangling : v.dangling = false
  receipt : ∀ r, v.receipt = some r → some r ∈ v.requests
  freed : ∀ r ∈ v.freed, some r ∉ v.requests ∧ r < v.states.length

/-- A slot that was free may be written, and the registered receipts stay. -/
theorem mem_set_of_free {requests : List (Option ℕ)} {slot : ℕ} {r : ℕ} (value : Option ℕ)
    (hfree : requests[slot]? = some none) (h : some r ∈ requests) :
    some r ∈ requests.set slot value := by
  obtain ⟨i, hi⟩ := mem_iff_getElem?.mp h
  have hne : slot ≠ i := by
    rintro rfl
    rw [hi] at hfree
    cases hfree
  rw [mem_iff_getElem?]
  exact ⟨i, by rw [List.getElem?_set_ne hne, hi]⟩

/-- A receipt that is registered, or that a resource comes in for, may be read. -/
theorem View.Sound.touch_eq {v : View} (h : v.Sound) {r : ℕ}
    (hr : some r ∈ v.requests ∨ v.receipt = some r) : v.touch r = v := by
  have hregistered : some r ∈ v.requests := hr.elim id (h.receipt r)
  refine if_neg fun hfreed => ?_
  exact (h.freed r hfreed).1 hregistered

/-- Moves keep pointers good. -/
theorem Move.sound {v w : View} (h : Move v w) (hv : v.Sound) : w.Sound := by
  have hsane := h.sane hv.sane
  cases h with
  | touch r h => rwa [hv.touch_eq h]
  | conclude r state hpending hstate =>
    exact ⟨hsane, hv.dangling, hv.receipt, by simpa using hv.freed⟩
  | release h | finish k h | takeApplication hidle => exact ⟨hsane, hv.dangling, nofun, hv.freed⟩
  | takeReceipt r hidle h =>
    refine ⟨hsane, hv.dangling, ?_, hv.freed⟩
    rintro _ ⟨⟩
    exact h
  | register slot h =>
    refine ⟨hsane, hv.dangling, fun r hr => mem_set_of_free _ h (hv.receipt r hr), ?_⟩
    intro r hr
    obtain ⟨hnot, hlt⟩ := hv.freed r hr
    refine ⟨?_, by simp; omega⟩
    -- The new receipt is not one that was freed: it is made now.
    intro hmem
    rcases mem_or_eq_of_mem_set hmem with hold | hnew
    · exact hnot hold
    · exact absurd (Option.some.inj hnew) hlt.ne

/-- A sequence of moves keeps pointers good. -/
theorem Steps.sound {v w : View} (h : Steps v w) (hv : v.Sound) : w.Sound := by
  induction h with
  | refl => exact hv
  | tail _ hmove ih => exact hmove.sound ih

/-- A fault keeps pointers good. -/
theorem Fault.sound {v w : View} (h : Fault v w) (hv : v.Sound) : w.Sound := by
  cases h with
  | request r hr h =>
    exact ⟨⟨hv.sane.idle, hv.sane.receipt⟩, hv.dangling, hv.receipt, by simpa using hv.freed⟩
  | received k h => exact ⟨⟨hv.sane.idle, hv.sane.receipt⟩, hv.dangling, hv.receipt, hv.freed⟩

/-- A call keeps pointers good. -/
theorem Outcome.sound {refuses : Bool} {v w : View} (h : Outcome refuses v w) (hv : v.Sound) :
    w.Sound := by
  cases refuses with
  | false => exact Steps.sound h hv
  | true =>
    obtain ⟨u, hsteps, hfault⟩ := h
    exact hfault.sound (Steps.sound hsteps hv)

/-- A receipt that no resource comes in for may be destroyed. -/
theorem View.Sound.destroy {v : View} (hv : v.Sound) {r : ℕ} (hr : v.receipt ≠ some r)
    (hlt : r < v.states.length) :
    View.Sound { v with
      requests := v.requests.map (fun slot => if slot = some r then none else slot)
      freed := r :: v.freed } := by
  refine ⟨⟨hv.sane.idle, hv.sane.receipt⟩, hv.dangling, ?_, ?_⟩
  · intro other hother
    have hne : some other ≠ some r := fun h => hr (hother.trans h)
    exact mem_map.mpr ⟨some other, hv.receipt other hother, if_neg hne⟩
  · intro other hother
    have hold {x : ℕ} (h : some x ∈ v.requests.map (fun slot =>
        if slot = some r then none else slot)) : some x ∈ v.requests ∧ x ≠ r := by
      obtain ⟨slot, hslot, heq⟩ := mem_map.mp h
      split at heq
      · cases heq
      · rename_i hne
        subst heq
        exact ⟨hslot, fun h => hne (congrArg some h)⟩
    rcases mem_cons.mp hother with rfl | hfreed
    · exact ⟨fun h => (hold h).2 rfl, hlt⟩
    · exact ⟨fun h => (hv.freed other hfreed).1 (hold h).1, (hv.freed other hfreed).2⟩

namespace RuntimeLink

/-- The receipt that a response resource comes in for is absent or registered, and no receipt was
used after it was destroyed. -/
structure Safe (s : RuntimeLink) : Prop where
  dangling : s.dangling = false
  receipt : ∀ r, s.incoming.receipt = some r → some r ∈ s.requests

/-- The receipt that a call destroys is not that of a response that is coming in. -/
def SparesResponse (s : RuntimeLink) : Call → Prop
  | .destroyReceipt receipt => s.incoming.receipt ≠ some receipt
  | _ => True

instance (s : RuntimeLink) : (call : Call) → Decidable (s.SparesResponse call)
  | .destroyReceipt receipt => inferInstanceAs (Decidable (s.incoming.receipt ≠ some receipt))
  | .ingress .. | .poll | .send .. | .request .. | .cancelReceipt _ | .sendResource ..
  | .cancelTransfer _ | .destroyTransfer _ => inferInstanceAs (Decidable True)

variable {p : Primitives} {bzip2 : Option Bzip2} {env : Environment}

/-- A call of an application that owns its receipts keeps pointers good, unless it destroys the
receipt of a response that is coming in. -/
theorem step_sound {s : RuntimeLink} {call : Call} (hs : s.view.Sound) (howned : s.Owned call)
    (hspares : s.SparesResponse call) : (step p bzip2 env s call).view.Sound := by
  cases call with
  | ingress own_interface raw =>
    exact (linkIngress_outcome p bzip2 env s own_interface raw hs.sane).sound hs
  | poll => exact (poll_steps p env s hs.sane).sound hs
  | send context plaintext => exact (sends_linkSend p env s context plaintext).view.symm ▸ hs
  | request path data options => exact ((effect_linkRequest ..).steps hs.sane).sound hs
  | cancelReceipt receipt =>
    exact ((effect_requestReceiptCancel s receipt howned.2).steps hs.sane).sound hs
  | destroyReceipt receipt =>
    have hsame : s.touch receipt = s := if_neg howned.2
    have hsound := hs.destroy hspares (by simpa [view] using howned.1)
    dsimp only [step, requestReceiptDestroy]
    rw [hsame]
    exact hsound
  | sendResource data options =>
    exact (apart_linkSendResource p bzip2 env s data options false).view.symm ▸ hs
  | cancelTransfer transfer => exact (apart_resourceTransferCancel p env s transfer).view.symm ▸ hs
  | destroyTransfer transfer => exact (apart_resourceTransferDestroy p env s transfer).view.symm ▸ hs

/-- Good pointers are safe, and the destruction of the link is too. -/
theorem safe_of_sound {s : RuntimeLink} (hs : s.view.Sound) :
    s.Safe ∧ (s.linkDestroy p env).Safe := by
  refine ⟨⟨hs.dangling, hs.receipt⟩, ?_⟩
  obtain ⟨v, hsteps, hidle, -, hview⟩ := linkDestroy_spec p env s hs.sane
  have hsound : v.Sound := Steps.sound hsteps hs
  have hdangling : (s.linkDestroy p env).view.dangling = false := hview ▸ hsound.dangling
  have hreceipt : (s.linkDestroy p env).view.receipt = none := by
    rw [hview]
    exact (hsound.sane.idle hidle).1
  refine ⟨hdangling, fun r hr => ?_⟩
  rw [show (s.linkDestroy p env).incoming.receipt = none from hreceipt] at hr
  cases hr

/-- In a run of an application that owns its receipts, the receipt that a response resource comes in
for is always absent or registered, and neither the run nor the destruction of the link uses a
receipt after it was destroyed, exactly if no receipt is destroyed while its response comes in. -/
theorem receipts_safe_iff (p : Primitives) (bzip2 : Option Bzip2) (env : Environment)
    (protocol : Link) (options : LinkOptions) (handlers : List RequestHandler) (calls : List Call)
    (howned : Run.Each (step p bzip2 env) Owned (opened protocol options handlers) calls) :
    (∀ past, past <+: calls →
        (final (step p bzip2 env) (opened protocol options handlers) past).Safe ∧
        ((final (step p bzip2 env) (opened protocol options handlers) past).linkDestroy
          p env).Safe) ↔
      Run.Each (step p bzip2 env) SparesResponse (opened protocol options handlers) calls := by
  constructor
  · intro hsafe
    rw [ each_iff_forall_prefix]
    intro past call hpast
    cases call with
    | destroyReceipt receipt =>
      -- The pointer stays after the call, but the receipt is registered no more.
      intro hreceipt
      have hafter := (hsafe _ hpast).1.receipt receipt
      rw [final_append, final_cons, final_nil] at hafter
      obtain ⟨dangling, heq⟩ := touch_eq
        (final (step p bzip2 env) (opened protocol options handlers) past) receipt
      have hmem : some receipt ∈ (final (step p bzip2 env) (opened protocol options handlers)
          past).requests.map (fun slot => if slot = some receipt then none else slot) := by
        refine hafter ?_
        rw [step, requestReceiptDestroy, heq]
        exact hreceipt
      obtain ⟨slot, -, hslot⟩ := mem_map.mp hmem
      split at hslot
      · cases hslot
      · rename_i hne
        exact hne hslot
    | _ => trivial
  · rintro hspares past ⟨rest, rfl⟩
    have hrun := (each_append.mp howned).1.and (each_append.mp hspares).1
    refine safe_of_sound ?_
    have hstep : ∀ s call, s.view.Sound → s.Owned call ∧ s.SparesResponse call →
        (step p bzip2 env s call).view.Sound := fun s call hs hok => step_sound hs hok.1 hok.2
    exact @invariant _ _ _ (fun s => s.view.Sound) _ hstep _ _
      ⟨⟨fun _ => ⟨rfl, rfl⟩, nofun⟩, rfl, nofun, nofun⟩ hrun

/-! ## A response that comes in when its receipt is destroyed -/

/-- A link that was opened and is active. -/
def plainOpened : RuntimeLink := opened plainLink ⟨0, false, 0, 0⟩ []

/-- A packet of the peer of the link. -/
def plainRaw (context : UInt8) (plaintext : List UInt8) : List UInt8 :=
  ((plainLink.encrypt plainPrimitives (Octets.zero 16) plaintext mtu).bind
    (fun data => (plainOpened.packet 0 context data).encode mtu)).getD []

/-- A request over the link. -/
def plainRequest : Call := .request [0x70] [0xc0] ⟨0, 0⟩

/-- The id of the request. -/
def plainRequestId : Octets 16 :=
  ((step plainPrimitives none plainEnvironment plainOpened plainRequest).receipts.map
    RequestReceipt.request_id).headD (Octets.zero 16)

/-- The advertisement of a resource for the link. -/
def plainAdvertisement (data : List UInt8) (options : ResourceSender.Options) : List UInt8 :=
  ((ResourceSender.create plainPrimitives none plainLink data options
    (plainEnvironment.draw 0)).toOption.bind
      (fun sender => (sender.advertisement mtu).toOption)).getD []

/-- A response to the request is advertised. -/
def plainResponse : Call :=
  .ingress true (plainRaw Context.resourceAdv
    (plainAdvertisement [1, 2, 3] ⟨false, true, some plainRequestId⟩))

/-- A request is made, its response begins to come in as a resource, and the receipt is destroyed.
The pointer stays, and the link that is destroyed next reads the receipt. -/
theorem destroyed_receipt_read :
    Run.Each (step plainPrimitives none plainEnvironment) Owned plainOpened
        [plainRequest, plainResponse, .destroyReceipt 0] ∧
      ¬ ∀ past, past <+: [plainRequest, plainResponse, .destroyReceipt 0] →
        (final (step plainPrimitives none plainEnvironment) plainOpened past).Safe ∧
        ((final (step plainPrimitives none plainEnvironment) plainOpened past).linkDestroy
          plainPrimitives plainEnvironment).Safe := by
  refine ⟨⟨trivial, trivial, by decide +kernel, trivial⟩, fun hsafe => ?_⟩
  have hread : ((final (step plainPrimitives none plainEnvironment) plainOpened
      [plainRequest, plainResponse, .destroyReceipt 0]).linkDestroy plainPrimitives
        plainEnvironment).dangling = true := by
    decide +kernel
  rw [(hsafe _ prefix_rfl).2.dangling] at hread
  cases hread

/-- A request is cancelled while its response comes in, the next packet of the response releases it,
and only then the receipt is destroyed. -/
def plainRelease : List Call :=
  [plainRequest, plainResponse, .cancelReceipt 0, .ingress true (plainRaw Context.resource []),
    .destroyReceipt 0]

/-- A receipt that is released after its use is safe. -/
theorem released_receipt_safe :
    (final (step plainPrimitives none plainEnvironment) plainOpened plainRelease).Safe ∧
      ((final (step plainPrimitives none plainEnvironment) plainOpened
        plainRelease).linkDestroy plainPrimitives plainEnvironment).Safe :=
  (receipts_safe_iff plainPrimitives none plainEnvironment plainLink ⟨0, false, 0, 0⟩ []
    plainRelease
    ⟨trivial, trivial, by decide +kernel, trivial, by decide +kernel, trivial⟩).mpr
    ⟨trivial, trivial, trivial, trivial, by decide +kernel, trivial⟩ plainRelease prefix_rfl

end RuntimeLink

end Reticulum.Runtime
