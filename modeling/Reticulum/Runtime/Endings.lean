import Reticulum.Runtime.Receipts

/-!
# How often a request and a resource end

Every request that is made over a link, and every resource that is taken on for the application,
ends with one callback by the time the link is destroyed, except in the one case that `refuses`
describes: a segment after the first cannot be accepted, though the request has ended or the
resource is for the application. `endings_iff` says that this case is the only one and that it
always breaks the rule.

The proof keeps accounts. What was made and has not ended is owed one callback, and `weight` is what
was called plus what is owed. A move leaves the weight of what was there alone and gives what it
makes the weight one (`Move.weight`); a fault adds one to the weight of something
(`Fault.weight`). At the end of the link nothing is owed, and the weights are the callbacks.
-/

namespace Reticulum.Runtime

open List Nat
open Resource (Bzip2)
open Resource.Transfer (plainLink)
open Link (plainPrimitives)

namespace View

/-- Requests that were made, and resources that were taken on for the application. -/
def Made (v : View) : Ending → Prop
  | .request r => r < v.states.length
  | .received k => k < v.taken

instance (v : View) : DecidablePred v.Made
  | .request r => inferInstanceAs (Decidable (r < v.states.length))
  | .received k => inferInstanceAs (Decidable (k < v.taken))

/-- The callbacks that are still to come. -/
def owed (v : View) : Ending → ℕ
  | .request r => if v.states[r]? = some .pending then 1 else 0
  | .received k => if v.serial = some k then 1 else 0

/-- The callbacks that came and are still to come. -/
def weight (v : View) (e : Ending) : ℕ := v.endings.count e + v.owed e

/-- What holds of every view of a link whose receipts are kept. -/
structure Kept (v : View) : Prop where
  sane : v.Sane
  freed : v.freed = []
  receipt : ∀ r, v.receipt = some r → r < v.states.length
  serial : ∀ k, v.serial = some k → k < v.taken
  requests : ∀ r, some r ∈ v.requests → r < v.states.length
  pending : ∀ r, v.states[r]? = some .pending → some r ∈ v.requests

/-- Everything that was made has one callback that came or is to come, and nothing else has. -/
def Exact (v : View) : Prop := ∀ e, v.weight e = if v.Made e then 1 else 0

/-- Something that was made has more than one callback. -/
def Excess (v : View) : Prop := ∃ e, v.Made e ∧ 2 ≤ v.weight e

/-- Everything that was made has a callback. -/
def Charged (v : View) : Prop := ∀ e, v.Made e → 1 ≤ v.weight e

end View

variable {v w : View}

/-- Moves keep what holds of a link whose receipts are kept. -/
theorem Move.kept (h : Move v w) (hv : v.Kept) : w.Kept := by
  have hsane := h.sane hv.sane
  cases h with
  | touch r h =>
    have hsame : v.touch r = v := if_neg (by rw [hv.freed]; exact not_mem_nil)
    rwa [hsame]
  | conclude r state hpending hstate =>
    refine ⟨hsane, hv.freed, by simpa using hv.receipt, hv.serial, by simpa using hv.requests, ?_⟩
    intro r' hr'
    have hne : r ≠ r' := by
      rintro rfl
      rw [getElem?_set_self'] at hr'
      cases hget : v.states[r]? <;> simp_all
    rw [getElem?_set_ne hne] at hr'
    exact hv.pending r' hr'
  | release h => exact ⟨hsane, hv.freed, nofun, hv.serial, hv.requests, hv.pending⟩
  | finish k h => exact ⟨hsane, hv.freed, nofun, nofun, hv.requests, hv.pending⟩
  | takeReceipt r hidle h =>
    refine ⟨hsane, hv.freed, ?_, nofun, hv.requests, hv.pending⟩
    rintro _ ⟨⟩
    exact hv.requests r h
  | takeApplication hidle =>
    refine ⟨hsane, hv.freed, nofun, ?_, hv.requests, hv.pending⟩
    rintro _ ⟨⟩
    exact lt_succ_self _
  | register slot h =>
    refine ⟨hsane, hv.freed, fun r hr => ?_, hv.serial, fun r hr => ?_, fun r hr => ?_⟩
    · have := hv.receipt r hr
      simp only [length_append, length_singleton]
      omega
    · simp only [length_append, length_singleton]
      rcases mem_or_eq_of_mem_set hr with hold | hnew
      · have := hv.requests r hold
        omega
      · cases hnew
        omega
    · rcases lt_trichotomy r v.states.length with hlt | heq | hgt
      · rw [getElem?_append_left hlt] at hr
        exact mem_set_of_free _ h (hv.pending r hr)
      · subst heq
        obtain ⟨hslot, -⟩ := List.getElem?_eq_some_iff.mp h
        exact mem_set hslot _
      · rw [getElem?_eq_none (by simp; omega)] at hr
        cases hr

/-- A move gives what it makes the weight one, and leaves the other weights alone. -/
theorem Move.weight (h : Move v w) (hv : v.Kept) (e : Ending) :
    w.weight e = v.weight e + (if w.Made e ∧ ¬ v.Made e then 1 else 0) := by
  -- Most moves make nothing, which two lengths tell.
  have hsame {w : View} (hstates : w.states.length = v.states.length) (htaken : w.taken = v.taken)
      (hweight : w.weight e = v.weight e) :
      w.weight e = v.weight e + (if w.Made e ∧ ¬ v.Made e then 1 else 0) := by
    rw [if_neg, hweight, add_zero]
    cases e <;> simp [View.Made, hstates, htaken]
  cases h with
  | touch r h =>
    refine hsame (by rw [View.touch_eq]) (by rw [View.touch_eq]) ?_
    cases e <;> simp [View.weight, View.owed]
  | conclude r state hpending hstate =>
    refine hsame (length_set ..) rfl ?_
    cases e with
    | request r' =>
      by_cases hr : r = r'
      · subst hr
        obtain ⟨hlt, hget⟩ := List.getElem?_eq_some_iff.mp hpending
        simp [View.weight, View.owed, hget, hlt, hstate]
      · simp [View.weight, View.owed, hr]
    | received k => simp [View.weight, View.owed]
  | release h => exact hsame rfl rfl rfl
  | finish k h =>
    refine hsame rfl rfl ?_
    cases e with
    | request r' => simp [View.weight, View.owed]
    | received k' =>
      by_cases hk : k = k'
      · subst hk
        simp [View.weight, View.owed, h]
      · simp [View.weight, View.owed, h, hk]
  | takeReceipt r hidle h =>
    refine hsame rfl rfl ?_
    have hserial := (hv.sane.idle hidle).2
    cases e <;> simp [View.weight, View.owed, hserial]
  | takeApplication hidle =>
    have hserial := (hv.sane.idle hidle).2
    cases e with
    | request r' => simp [View.weight, View.owed, View.Made]
    | received k' =>
      simp only [View.weight, View.owed, View.Made, hserial, Option.some.injEq]
      split_ifs <;> simp_all
      omega
  | register slot h =>
    cases e with
    | request r' =>
      simp only [View.weight, View.owed, View.Made, length_append, length_singleton]
      rcases lt_trichotomy r' v.states.length with hlt | heq | hgt
      · rw [getElem?_append_left hlt]
        split_ifs <;> omega
      · subst heq
        simp
      · rw [getElem?_eq_none (by simp; omega), getElem?_eq_none (by omega)]
        simp
        omega
    | received k' => simp [View.weight, View.owed, View.Made]

/-- What was made stays made. -/
theorem Move.made (h : Move v w) {e : Ending} (he : v.Made e) : w.Made e := by
  cases h with
  | touch r h => cases e <;> simpa [View.Made] using he
  | conclude r state hpending hstate => cases e <;> simpa [View.Made] using he
  | takeApplication hidle =>
    cases e with
    | request r' => exact he
    | received k' => exact lt_succ_of_lt he
  | register slot h =>
    cases e with
    | request r' =>
      simp only [View.Made, length_append, length_singleton]
      exact lt_succ_of_lt he
    | received k' => exact he
  | _ => cases e <;> exact he

/-- A fault adds a callback to something that was made. -/
theorem Fault.weight (h : Fault v w) (hv : v.Kept) : w.Kept ∧ (∀ e, w.Made e ↔ v.Made e) ∧
      ∃ e, v.Made e ∧ ∀ e', w.weight e' = v.weight e' + (if e' = e then 1 else 0) := by
  cases h with
  | request r hr h =>
    have hpending (r' : ℕ) : (v.states.set r .failed)[r']? = some .pending ↔
        v.states[r']? = some .pending := by
      by_cases hne : r = r'
      · subst hne
        rw [getElem?_set_self']
        cases hget : v.states[r]? <;> simp_all
      · rw [getElem?_set_ne hne]
    refine ⟨⟨⟨hv.sane.idle, hv.sane.receipt⟩, hv.freed, by simpa using hv.receipt, hv.serial,
      by simpa using hv.requests, fun r' hr' => hv.pending r' ((hpending r').mp hr')⟩,
      fun e => by cases e <;> simp [View.Made], .request r, hv.receipt r hr, ?_⟩
    intro e
    cases e with
    | request r' =>
      simp only [View.weight, View.owed, hpending, count_append, count_singleton]
      by_cases hne : r' = r
      · subst hne
        simp
        omega
      · simp [hne, Ne.symm hne]
    | received k => simp [View.weight, View.owed]
  | received k h =>
    refine ⟨⟨⟨hv.sane.idle, hv.sane.receipt⟩, hv.freed, hv.receipt, hv.serial, hv.requests,
      hv.pending⟩, fun e => by cases e <;> rfl, .received k, hv.serial k h, ?_⟩
    intro e
    cases e with
    | request r' => simp [View.weight, View.owed]
    | received k' =>
      simp only [View.weight, View.owed, count_append, count_singleton]
      by_cases hne : k' = k
      · subst hne
        simp
        omega
      · simp [hne, Ne.symm hne]

/-! ## Sequences of moves, and calls -/

/-- The accounts that every call of a link with kept receipts keeps. -/
structure View.Audited (v : View) : Prop where
  kept : v.Kept
  charged : v.Charged

/-- What a sequence of moves does to the accounts. -/
theorem Steps.accounts (h : Steps v w) (hv : v.Audited) :
    w.Audited ∧ (v.Exact → w.Exact) ∧ (v.Excess → w.Excess) := by
  induction h with
  | refl => exact ⟨hv, id, id⟩
  | @tail w x _ hmove ih =>
    obtain ⟨hw, hexact, hexcess⟩ := ih
    have hweight := hmove.weight hw.kept
    refine ⟨⟨hmove.kept hw.kept, fun e he => ?_⟩, fun h e => ?_, fun h => ?_⟩
    · rw [hweight]
      by_cases hmade : w.Made e
      · exact le_add_right_of_le (hw.charged e hmade)
      · rw [if_pos ⟨he, hmade⟩]
        exact le_add_left 1 _
    · rw [hweight, hexact h e]
      by_cases hmade : w.Made e
      · rw [if_pos hmade, if_pos (hmove.made hmade), if_neg (fun h => h.2 hmade)]
      · rw [if_neg hmade, zero_add]
        exact if_congr (and_iff_left hmade) rfl rfl
    · obtain ⟨e, hmade, hle⟩ := hexcess h
      exact ⟨e, hmove.made hmade, hle.trans (hweight e ▸ le_add_right _ _)⟩

/-- What a fault does to the accounts. -/
theorem Fault.accounts (h : Fault v w) (hv : v.Audited) : w.Audited ∧ w.Excess := by
  obtain ⟨hkept, hmade, e, he, hweight⟩ := h.weight hv.kept
  refine ⟨⟨hkept, fun e' he' => ?_⟩, e, (hmade e).mpr he, ?_⟩
  · rw [hweight]
    exact le_add_right_of_le (hv.charged e' ((hmade e').mp he'))
  · rw [hweight, if_pos rfl]
    exact succ_le_succ (hv.charged e he)

/-- What a call does to the accounts. -/
theorem Outcome.accounts {refuses : Bool} (h : Outcome refuses v w) (hv : v.Audited) :
    w.Audited ∧ (refuses = false → v.Exact → w.Exact) ∧ (refuses = true ∨ v.Excess → w.Excess) := by
  cases refuses with
  | false =>
    obtain ⟨hw, hexact, hexcess⟩ := Steps.accounts h hv
    exact ⟨hw, fun _ => hexact, fun h => hexcess (h.resolve_left Bool.false_ne_true)⟩
  | true =>
    obtain ⟨u, hsteps, hfault⟩ := h
    obtain ⟨hw, hexcess⟩ := hfault.accounts (Steps.accounts hsteps hv).1
    exact ⟨hw, nofun, fun _ => hexcess⟩

namespace RuntimeLink

/-- Whether a call is a packet with an advertisement that the link refuses. -/
def refusesCall (p : Primitives) (env : Environment) (s : RuntimeLink) : Call → Bool
  | .ingress own_interface raw => s.refusesPacket p env own_interface raw
  | _ => false

/-- The application keeps its receipts, and cancels only those it was given. -/
def Keeps (s : RuntimeLink) : Call → Prop
  | .cancelReceipt receipt => receipt < s.receipts.length
  | .destroyReceipt _ => False
  | _ => True

instance (s : RuntimeLink) : (call : Call) → Decidable (s.Keeps call)
  | .cancelReceipt receipt => inferInstanceAs (Decidable (receipt < s.receipts.length))
  | .destroyReceipt _ => inferInstanceAs (Decidable False)
  | .ingress .. | .poll | .send .. | .request .. | .sendResource .. | .cancelTransfer _
  | .destroyTransfer _ => inferInstanceAs (Decidable True)

/-- A call of an application that keeps its receipts. -/
theorem step_outcome (p : Primitives) (bzip2 : Option Bzip2) (env : Environment) {s : RuntimeLink}
    {call : Call} (hs : s.view.Kept) (hkeeps : s.Keeps call) :
    Outcome (s.refusesCall p env call) s.view (step p bzip2 env s call).view := by
  cases call with
  | ingress own_interface raw => exact linkIngress_outcome p bzip2 env s own_interface raw hs.sane
  | poll => exact poll_steps p env s hs.sane
  | send context plaintext => exact (sends_linkSend ..).effect.steps hs.sane
  | request path data options => exact (effect_linkRequest ..).steps hs.sane
  | cancelReceipt receipt =>
    refine (effect_requestReceiptCancel s receipt ?_).steps hs.sane
    rw [show s.freed = [] from hs.freed]
    exact not_mem_nil
  | destroyReceipt receipt => exact hkeeps.elim
  | sendResource data options => exact (apart_linkSendResource ..).effect.steps hs.sane
  | cancelTransfer transfer => exact (apart_resourceTransferCancel ..).effect.steps hs.sane
  | destroyTransfer transfer => exact (apart_resourceTransferDestroy ..).effect.steps hs.sane

/-- A link that was opened has made nothing. -/
theorem audited_opened (protocol : Link) (options : LinkOptions) (handlers : List RequestHandler) :
    (opened protocol options handlers).view.Audited ∧
      (opened protocol options handlers).view.Exact := by
  have hnone (e : Ending) : ¬ (opened protocol options handlers).view.Made e := by
    cases e <;> exact not_lt_zero _
  have hrequests (r : ℕ) : some r ∉ (opened protocol options handlers).view.requests := by
    intro h
    cases eq_of_mem_replicate h
  refine ⟨⟨⟨⟨fun _ => ⟨rfl, rfl⟩, nofun⟩, rfl, nofun, nofun,
    fun r hr => absurd hr (hrequests r), nofun⟩, fun e he => absurd he (hnone e)⟩, fun e => ?_⟩
  cases e <;> rfl

variable {p : Primitives} {bzip2 : Option Bzip2} {env : Environment}

/-- The accounts of a run: exact without refusals, and in excess after one. -/
theorem run_accounts {s : RuntimeLink} {calls : List Call} (hs : s.view.Audited)
    (hkeeps : Run.Each (step p bzip2 env) Keeps s calls) :
    (Run.final (step p bzip2 env) s calls).view.Audited ∧
      (s.view.Exact → Run.Each (step p bzip2 env) (fun s call => s.refusesCall p env call = false)
        s calls → (Run.final (step p bzip2 env) s calls).view.Exact) ∧
      (s.view.Excess ∨ ¬ Run.Each (step p bzip2 env)
        (fun s call => s.refusesCall p env call = false) s calls →
        (Run.final (step p bzip2 env) s calls).view.Excess) := by
  induction calls generalizing s with
  | nil => exact ⟨hs, fun h _ => h, fun h => h.resolve_right (not_not_intro trivial)⟩
  | cons call calls ih =>
    obtain ⟨hnext, hexact, hexcess⟩ := (step_outcome p bzip2 env hs.kept hkeeps.1).accounts hs
    obtain ⟨hfinal, hexact', hexcess'⟩ := ih hnext hkeeps.2
    refine ⟨hfinal, fun h hnone => hexact' (hexact hnone.1 h) hnone.2, fun h => hexcess' ?_⟩
    cases hrefuses : s.refusesCall p env call with
    | true => exact .inl (hexcess (.inl hrefuses))
    | false =>
      rcases h with h | h
      · exact .inl (hexcess (.inr h))
      · exact .inr fun hrest => h ⟨hrefuses, hrest⟩

/-- The callbacks that ended something, in their order. -/
def endings (s : RuntimeLink) : List Ending := s.log.filterMap Observation.ending

/-- Every request that was made has ended once, and every resource that was taken on for the
application has. -/
structure EndedOnce (s : RuntimeLink) : Prop where
  request : ∀ r < s.receipts.length, s.endings.count (.request r) = 1
  received : ∀ k < s.taken, s.endings.count (.received k) = 1

/-- The accounts of a link that was destroyed are its callbacks. -/
theorem endedOnce_linkDestroy {s : RuntimeLink} (hs : s.view.Audited) :
    (s.view.Exact → (s.linkDestroy p env).EndedOnce) ∧
      (s.view.Excess → ¬ (s.linkDestroy p env).EndedOnce) := by
  obtain ⟨v, hsteps, hidle, hpending, hview⟩ := linkDestroy_spec p env s hs.kept.sane
  obtain ⟨hv, hexact, hexcess⟩ := Steps.accounts hsteps hs
  have hweight (e : Ending) : v.weight e = (s.linkDestroy p env).endings.count e := by
    -- Nothing is owed, so the weights are the callbacks.
    have howed : v.owed e = 0 := by
      cases e with
      | request r => exact if_neg fun h => hpending r (hv.kept.pending r h) h
      | received k =>
        refine if_neg ?_
        rw [(hv.kept.sane.idle hidle).2]
        exact nofun
    rw [View.weight, howed]
    exact congrArg (fun v => v.endings.count e) hview.symm
  have hreceipts : v.states.length = (s.linkDestroy p env).receipts.length := by
    rw [← length_map RequestReceipt.state]
    exact congrArg (fun v => v.states.length) hview.symm
  have htaken : v.taken = (s.linkDestroy p env).taken := congrArg (fun v => v.taken) hview.symm
  constructor
  · intro h
    refine ⟨fun r hr => ?_, fun k hk => ?_⟩
    · rw [← hweight, hexact h, if_pos]
      exact hr.trans_eq hreceipts.symm
    · rw [← hweight, hexact h, if_pos]
      exact hk.trans_eq htaken.symm
  · intro h hended
    obtain ⟨e, hmade, hle⟩ := hexcess h
    rw [hweight] at hle
    cases e with
    | request r =>
      rw [hended.request r (hreceipts ▸ hmade)] at hle
      exact absurd hle (by decide)
    | received k =>
      rw [hended.received k (htaken ▸ hmade)] at hle
      exact absurd hle (by decide)

/-- A link whose application keeps its receipts, run and destroyed: every request that was made over
it and every resource that was taken on for the application ended with exactly one callback, exactly
if no packet was an advertisement that the link refused. -/
theorem ended_once_iff (p : Primitives) (bzip2 : Option Bzip2) (env : Environment)
    (protocol : Link) (options : LinkOptions) (handlers : List RequestHandler) (calls : List Call)
    (hkeeps : Run.Each (step p bzip2 env) Keeps (opened protocol options handlers) calls) :
    ((Run.final (step p bzip2 env) (opened protocol options handlers) calls).linkDestroy
        p env).EndedOnce ↔
      Run.Each (step p bzip2 env) (fun s call => s.refusesCall p env call = false)
        (opened protocol options handlers) calls := by
  obtain ⟨haudited, hopened⟩ := audited_opened protocol options handlers
  obtain ⟨hfinal, hexact, hexcess⟩ := run_accounts haudited hkeeps
  obtain ⟨honce, hmore⟩ := endedOnce_linkDestroy hfinal
  constructor
  · intro hended
    by_contra hrefused
    exact hmore (hexcess (.inr hrefused)) hended
  · intro hnone
    exact honce (hexact hopened hnone)

/-! ## A segment that cannot be accepted -/

/-- A peer that sends three bytes as the first of two segments. -/
def plainSegment : ResourceSender :=
  { (ResourceSender.create plainPrimitives none plainLink [1, 2, 3] ⟨false, false, none⟩
      (plainEnvironment.draw 0)).toOption.get (by decide +kernel) with
    total_segments := 2
    flags := ResourceSender.segmentFlags false true false }

/-- A resource of two segments for the application: the first segment comes, and the second one is
advertised. -/
def plainSegments : List Call :=
  [.ingress true (plainRaw Context.resourceAdv plainSegment.advertisementBytes),
    .ingress true (((plainOpened.packet 0 Context.resource
      (ResourceSender.partOf plainSegment.wire 0)).encode mtu).getD []),
    .ingress true (plainRaw Context.resourceAdv
      { plainSegment with segment_index := 2 }.advertisementBytes)]

/-- Surroundings in which the memory for the second segment is not there. -/
def scarceEnvironment : Environment :=
  { plainEnvironment with memory := fun question => decide (question ≠ 16) }

/-- The second segment cannot be accepted and the application is told so, but the resource stays,
and its end is told again when the link is destroyed. -/
theorem refused_segment_ends_twice :
    Run.Each (step plainPrimitives none scarceEnvironment) Keeps plainOpened plainSegments ∧
      ¬ ((Run.final (step plainPrimitives none scarceEnvironment) plainOpened
        plainSegments).linkDestroy plainPrimitives scarceEnvironment).EndedOnce := by
  refine ⟨⟨trivial, trivial, trivial, trivial⟩, fun hended => ?_⟩
  have htwice : ((Run.final (step plainPrimitives none scarceEnvironment) plainOpened
      plainSegments).linkDestroy plainPrimitives scarceEnvironment).endings.count
        (.received 0) = 2 := by
    decide +kernel
  rw [hended.received 0 (by decide +kernel)] at htwice
  cases htwice

/-- With the memory there, the resource ends once, and so does a request that is cancelled. -/
theorem accepted_segment_ends_once :
    ((Run.final (step plainPrimitives none plainEnvironment) plainOpened
      (plainSegments ++ [plainRequest, .cancelReceipt 0])).linkDestroy plainPrimitives
        plainEnvironment).EndedOnce :=
  (ended_once_iff plainPrimitives none plainEnvironment plainLink ⟨0, false, 0, 0⟩ []
    (plainSegments ++ [plainRequest, .cancelReceipt 0])
    ⟨trivial, trivial, trivial, trivial, by decide +kernel, trivial⟩).mpr
    ⟨by decide +kernel, by decide +kernel, by decide +kernel, rfl, rfl, trivial⟩

end RuntimeLink

end Reticulum.Runtime
