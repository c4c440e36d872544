import Reticulum.Base.Log
import Reticulum.Base.Run
import Reticulum.Radio.Scheduler

/-!
# What every run of the scheduler keeps

The invariant that the duty cycle and the accounting of packets rest on. `Core` is the part of the
interface that it is about; most of what the calls do leaves the core alone.

The log tells what the radio is doing: `outstanding` is the operation that was started and has not
come to an end, and `sinceResult` is what happened for the packet at the front of the queue, since
results come one for each packet in the order of the queue. `Lawful` is what the log obeys at every
entry. While the interface is started the state of the scheduler agrees with the log
(`Good.operation_eq` and `Progress`), and that is why each thing it does is lawful.

A packet is finished in a state where the operation has come to an end and the state of the
scheduler is still the old one, so `Settled` is what is known there. After `finish_front` took the
packet out of the queue the invariant holds again, before the callback runs.
-/

namespace Reticulum.Radio

open List Nat Bool
open Buckets (Bucket)

/-! ## Reading the log -/

/-- The packets that were queued, in order. -/
def queuedOf (log : List Observation) : List (UInt32 × List (List UInt8)) :=
  log.filterMap fun
    | .queued id frames => some (id, frames)
    | _ => none

/-- The results, in order. -/
def resultsOf (log : List Observation) : List (UInt32 × PacketOutcome) :=
  log.filterMap fun
    | .result id outcome _ => some (id, outcome)
    | _ => none

/-- The reservations, in order. -/
def reservationsOf (log : List Observation) : List (ℕ × ℕ) :=
  log.filterMap fun
    | .reserved now_ms airtime_us => some (now_ms, airtime_us)
    | _ => none

/-- What was seen since the last result. -/
def sinceResult (log : List Observation) : List Observation :=
  log.foldl (fun seen x =>
    match x with
    | .result _ _ _ => []
    | x => seen ++ [x]) []

/-- An operation of the radio, with its token. -/
inductive Operation
  | cad (token : UInt32)
  | tx (token : UInt32)
deriving DecidableEq, Repr

/-- The operation that an event ends. -/
def endedBy : PhyEventType → UInt32 → Option Operation
  | .cadClear, token | .cadBusy, token | .cadFailed, token => some (.cad token)
  | .txDone, token | .txFailed, token => some (.tx token)
  | .rxFrame _ _ _, _ => none

/-- The operation under way after an observation: one that the radio accepted is under way until an
event with its token ends it, it is cancelled, or the radio is stopped or started. -/
def nextOutstanding (current : Option Operation) : Observation → Option Operation
  | .startCad token .ok => some (.cad token)
  | .transmit _ token .ok => some (.tx token)
  | .event type token => if endedBy type token = current then none else current
  | .cancelOperation token .ok =>
    if current = some (.cad token) ∨ current = some (.tx token) then none else current
  | .phyStart .ok | .phyStop .ok => none
  | _ => current

/-- The operation under way. -/
def outstanding (log : List Observation) : Option Operation := log.foldl nextOutstanding none

/-- The time on air of a frame. -/
def frameAirtime (config : SchedulerConfig) (frame : List UInt8) : ℕ :=
  match airtimeUs config frame.length with
  | .ok airtime => airtime
  | .error _ => 0

/-- The airtime of the frames handed to the radio. -/
def transmittedUs (config : SchedulerConfig) (seen : List Observation) : ℕ :=
  (seen.map fun
    | .transmit frame _ _ => frameAirtime config frame
    | _ => 0).sum

/-- The airtime reserved. -/
def reservedUs (seen : List Observation) : ℕ :=
  (seen.map fun
    | .reserved _ airtime_us => airtime_us
    | _ => 0).sum

/-- The frames of a packet were accepted by the radio one after the other, each acknowledged by a
`TX_DONE` with the token of its operation. -/
def Delivered (frames : List (List UInt8)) (seen : List Observation) : Prop :=
  ∃ tokens : List UInt32, tokens.length = frames.length ∧
    List.Sublist ((frames.zip tokens).flatMap fun x =>
      [.transmit x.1 x.2 .ok, .event .txDone x.2]) seen

/-- The packet whose turn it is: the first one queued that has no result. -/
def turnOf (log : List Observation) : Option (UInt32 × List (List UInt8)) :=
  (queuedOf log)[(resultsOf log).length]?

/-- What may be seen after a log. An operation is started when none is under way. A reservation is
for the packet whose turn it is and for all of its frames. A frame belongs to the packet whose turn
it is, and its airtime is covered by what was reserved for the packet and not used. A result is for
the packet whose turn it is, and one that is sent was delivered. -/
def Lawful (config : SchedulerConfig) (log : List Observation) : Observation → Prop
  | .startCad _ _ => outstanding log = none
  | .reserved _ airtime_us => ∃ packet, turnOf log = some packet ∧
    airtime_us = (packet.2.map (frameAirtime config)).sum
  | .transmit frame _ _ => outstanding log = none ∧
    (∃ packet, turnOf log = some packet ∧ frame ∈ packet.2) ∧
    ∃ airtime, airtimeUs config frame.length = .ok airtime ∧
      transmittedUs config (sinceResult log) + airtime ≤ reservedUs (sinceResult log)
  | .result id outcome _ => ∃ frames, turnOf log = some (id, frames) ∧
    (outcome = .sent → Delivered frames (sinceResult log))
  | _ => True

section Concat

variable (log : List Observation) (x : Observation)

theorem queuedOf_concat : queuedOf (log ++ [x]) = queuedOf log ++ match x with
    | .queued id frames => [(id, frames)]
    | _ => [] := by
  rw [queuedOf, filterMap_append]
  cases x <;> rfl

theorem resultsOf_concat : resultsOf (log ++ [x]) = resultsOf log ++ match x with
    | .result id outcome _ => [(id, outcome)]
    | _ => [] := by
  rw [resultsOf, filterMap_append]
  cases x <;> rfl

theorem reservationsOf_concat : reservationsOf (log ++ [x]) = reservationsOf log ++ match x with
    | .reserved now_ms airtime_us => [(now_ms, airtime_us)]
    | _ => [] := by
  rw [reservationsOf, filterMap_append]
  cases x <;> rfl

theorem outstanding_concat : outstanding (log ++ [x]) = nextOutstanding (outstanding log) x := by
  simp [outstanding]

theorem sinceResult_concat : sinceResult (log ++ [x]) = match x with
    | .result _ _ _ => []
    | x => sinceResult log ++ [x] := by
  unfold sinceResult
  rw [foldl_append]
  rfl

end Concat

section

variable (config : SchedulerConfig)

theorem transmittedUs_concat (seen : List Observation) (x : Observation) :
    transmittedUs config (seen ++ [x]) = transmittedUs config seen + transmittedUs config [x] := by
  simp [transmittedUs]

theorem reservedUs_concat (seen : List Observation) (x : Observation) :
    reservedUs (seen ++ [x]) = reservedUs seen + reservedUs [x] := by
  simp [reservedUs]

/-! ## The invariant -/

/-- What the invariant is about: the interface without the statistics, the timers, the receiver and
the sequences. `finished` counts the packets sent and dropped. -/
structure Core where
  config : SchedulerConfig
  queue : List QueuedPacket
  duty : List (Option Bucket)
  state : SchedulerState
  token : UInt32
  started : Bool
  queued : ℕ
  finished : ℕ
  log : List Observation

/-- The core of an interface. -/
def Interface.core (s : Interface) : Core :=
  { config := s.config
    queue := s.queue
    duty := s.duty
    state := s.state
    token := s.expected_operation_token
    started := s.started
    queued := s.stats.packets_queued
    finished := s.stats.packets_sent + s.stats.packets_dropped
    log := s.log }

/-- The operation that the state of the scheduler waits for. -/
def Core.operation (c : Core) : Option Operation :=
  match c.state with
  | .cad => some (.cad c.token)
  | .txFrame1 | .txFrame2 => some (.tx c.token)
  | _ => none

/-- A packet of one or two frames that the radio takes, with the sum of their airtime. -/
structure PacketOk (p : QueuedPacket) : Prop where
  count : p.frames.length = 1 ∨ p.frames.length = 2
  frame : ∀ f ∈ p.frames, 0 < f.length ∧ f.length ≤ phyMtu
  airtime : p.airtime_us = (p.frames.map (frameAirtime config)).sum

/-- How far the packet at the front of the queue is, from what was seen for it. -/
def Progress (c : Core) : Prop :=
  match c.state with
  | .txFrame1 => ∃ p rest, c.queue = p :: rest ∧
    List.Sublist [.transmit (p.frames.getD 0 []) c.token .ok] (sinceResult c.log) ∧
    transmittedUs config (sinceResult c.log) + ((p.frames.drop 1).map (frameAirtime config)).sum ≤
      reservedUs (sinceResult c.log)
  | .txFrame2 => ∃ p rest first, c.queue = p :: rest ∧ p.frames.length = 2 ∧
    List.Sublist [.transmit (p.frames.getD 0 []) first .ok, .event .txDone first,
      .transmit (p.frames.getD 1 []) c.token .ok] (sinceResult c.log)
  | _ => transmittedUs config (sinceResult c.log) = 0

/-- The part of the invariant that holds also while a packet is being finished. When `now` is a
time, the reservations up to that time are within the limit. -/
structure Base (now : Option ℕ) (c : Core) : Prop where
  config_eq : c.config = config
  valid : validConfig config = true
  length_le : c.queue.length ≤ packetQueueCapacity
  packets : ∀ p ∈ c.queue, PacketOk config p
  turns : (queuedOf c.log).drop (resultsOf c.log).length = c.queue.map fun p => (p.id, p.frames)
  order : (queuedOf c.log).map Prod.fst =
    (resultsOf c.log).map Prod.fst ++ c.queue.map QueuedPacket.id
  queued_eq : c.queued = (queuedOf c.log).length
  finished_eq : c.finished = (resultsOf c.log).length
  lawful : Log.Always (Lawful config) c.log
  duty : ∀ n, now = some n → DutyOk (dutyLimitUs config) c.duty (reservationsOf c.log) n

/-- The invariant. -/
structure Good (now : Option ℕ) (c : Core) : Prop extends Base config now c where
  idle : c.queue = [] → c.state = .idle
  stopped : c.started = false → c.state = .idle
  operation_eq : c.started = true → outstanding c.log = c.operation
  progress : Progress config c

/-- A packet may be finished: while the interface is started no operation is under way. -/
structure Settled (now : Option ℕ) (c : Core) : Prop extends Base config now c where
  outstanding_eq : c.started = true → outstanding c.log = none

end

variable {config : SchedulerConfig} {now : Option ℕ} {c : Core}

/-! ### One more observation -/

/-- An observation that is not a packet queued, a result or a reservation. -/
def Neutral : Observation → Prop
  | .queued _ _ | .result _ _ _ | .reserved _ _ => False
  | _ => True

variable (current : Option Operation) {x : Observation} {p : QueuedPacket}
  {rest : List QueuedPacket}

theorem Neutral.concat (h : Neutral x) (log : List Observation) :
    queuedOf (log ++ [x]) = queuedOf log ∧ resultsOf (log ++ [x]) = resultsOf log ∧
      reservationsOf (log ++ [x]) = reservationsOf log := by
  rw [queuedOf_concat, resultsOf_concat, reservationsOf_concat]
  cases x <;> simp_all [Neutral]

/-- Every packet that was queued has a result or is in the queue. -/
theorem Base.count (h : Base config now c) :
    (queuedOf c.log).length = (resultsOf c.log).length + c.queue.length := by
  have hlength := congrArg length h.order
  simpa only [length_append, length_map] using hlength

/-- What is seen that is neither a packet queued nor a result. -/
theorem Base.logged {duty : List (Option Bucket)} {log : List Observation} (h : Base config now c)
    (hqueued : queuedOf log = queuedOf c.log) (hresults : resultsOf log = resultsOf c.log)
    (hlawful : Log.Always (Lawful config) log)
    (hduty : ∀ n, now = some n → DutyOk (dutyLimitUs config) duty (reservationsOf log) n) :
    Base config now { c with duty := duty, log := log } :=
  { h with
    turns := by
      rw [hqueued, hresults]
      exact h.turns
    order := by
      rw [hqueued, hresults]
      exact h.order
    queued_eq := h.queued_eq.trans (congrArg length hqueued.symm)
    finished_eq := h.finished_eq.trans (congrArg length hresults.symm)
    lawful := hlawful
    duty := hduty }

section

variable (h : Base config now c)
include h

/-- A lawful observation that is neutral keeps the base. -/
theorem Base.saw (hx : Neutral x) (hlaw : Lawful config c.log x) :
    Base config now { c with log := c.log ++ [x] } := by
  obtain ⟨hqueued, hresults, hreservations⟩ := hx.concat c.log
  exact h.logged hqueued hresults (Log.always_concat h.lawful hlaw) (hreservations.symm ▸ h.duty)

/-- The packet at the front of the queue is the one whose turn it is. -/
theorem Base.turnOf_eq (hqueue : c.queue = p :: rest) : turnOf c.log = some (p.id, p.frames) := by
  have hturns := h.turns
  rw [hqueue, map_cons] at hturns
  have hhead := congrArg head? hturns
  rw [head?_drop, head?_cons] at hhead
  exact hhead

/-- A packet goes to the end of the queue. -/
theorem Base.push (hp : PacketOk config p) (hroom : c.queue.length < packetQueueCapacity) :
    Base config now { c with
      queue := c.queue ++ [p]
      queued := c.queued + 1
      log := c.log ++ [.queued p.id p.frames] } := by
  have hpackets : ∀ q ∈ c.queue ++ [p], PacketOk config q := by
    intro q hq
    rcases mem_append.1 hq with hq | hq
    · exact h.packets q hq
    · exact mem_singleton.1 hq ▸ hp
  refine { h with
    length_le := ?_
    packets := hpackets
    turns := ?_
    order := ?_
    queued_eq := ?_
    finished_eq := ?_
    lawful := Log.always_concat h.lawful trivial
    duty := ?_ }
  all_goals
    simp only [queuedOf_concat, resultsOf_concat, reservationsOf_concat, append_nil,
      map_append, map_cons, map_nil, length_append, length_singleton]
  · exact hroom
  · have hle : (resultsOf c.log).length ≤ (queuedOf c.log).length := by
      rw [h.count]
      exact le_add_right _ _
    rw [drop_append_of_le_length hle, h.turns]
  · rw [h.order, append_assoc]
  · rw [h.queued_eq]
  · exact h.finished_eq
  · exact h.duty

/-- The packet at the front of the queue leaves it with its result. -/
theorem Base.pop (hqueue : c.queue = p :: rest) {outcome : PacketOutcome}
    {status : Status} (hsent : outcome = .sent → Delivered p.frames (sinceResult c.log))
    (state : SchedulerState) (token : UInt32) :
    Base config now { c with
      queue := rest
      state := state
      token := token
      finished := c.finished + 1
      log := c.log ++ [.result p.id outcome status] } := by
  have hle := h.length_le
  have hturns := h.turns
  rw [hqueue] at hle hturns
  refine { h with
    length_le := le_of_succ_le hle
    packets := fun q hq => h.packets q (hqueue ▸ mem_cons_of_mem p hq)
    turns := ?_
    order := ?_
    queued_eq := ?_
    finished_eq := ?_
    lawful := Log.always_concat h.lawful ⟨p.frames, h.turnOf_eq hqueue, hsent⟩
    duty := ?_ }
  all_goals
    simp only [queuedOf_concat, resultsOf_concat, reservationsOf_concat, append_nil,
      map_append, map_cons, map_nil, length_append, length_singleton]
  · rw [← tail_drop, hturns, map_cons, tail_cons]
  · rw [h.order, hqueue, append_assoc]
    rfl
  · exact h.queued_eq
  · rw [h.finished_eq]
  · exact h.duty

/-- The airtime of the front packet is reserved when there is room. The time is that of the
invariant, when it has one. -/
theorem Base.reserve (hqueue : c.queue = p :: rest) {now_ms : ℕ}
    (hnow : ∀ n, now = some n → n = now_ms)
    (hroom : dutyAvailable config c.duty now_ms p.airtime_us = true) :
    Base config now { c with
      duty := reserveAirtime c.duty now_ms p.airtime_us
      log := c.log ++ [.reserved now_ms p.airtime_us] } := by
  refine h.logged ?_ ?_ (Log.always_concat h.lawful ⟨_, h.turnOf_eq hqueue,
    (h.packets p (hqueue ▸ mem_cons_self)).airtime⟩) ?_
  · simp [queuedOf_concat]
  · simp [resultsOf_concat]
  · intro n hn
    obtain rfl := hnow n hn
    simp only [reservationsOf_concat]
    exact (h.duty n hn).reserve h.valid le_rfl hroom

/-- The base does not depend on what the scheduler waits for. -/
theorem Base.control (state : SchedulerState) (token : UInt32) (started : Bool) :
    Base config now { c with state := state, token := token, started := started } :=
  { h with }

/-- The time may pass. -/
theorem Base.later {t : ℕ} (hle : ∀ n, now = some n → n ≤ t) :
    Base config (now.map fun _ => t) c := by
  refine { h with duty := fun m hm => ?_ }
  obtain ⟨n, hn, rfl⟩ := Option.map_eq_some_iff.1 hm
  exact (h.duty n hn).later (hle n hn)

end

theorem Good.later (h : Good config now c) {t : ℕ} (hle : ∀ n, now = some n → n ≤ t) :
    Good config (now.map fun _ => t) c :=
  { h with toBase := h.toBase.later hle }

/-! ### The front packet -/

/-- What is seen without being a frame or a result leaves the front packet where it is. -/
theorem Progress.later {c' : Core} (h : Progress config c) (hstate : c'.state = c.state)
    (htoken : c'.token = c.token)
    (hqueue : ∀ p rest, c.queue = p :: rest → ∃ rest', c'.queue = p :: rest')
    (hseen : sinceResult c'.log = sinceResult c.log ++ [x]) (hx : transmittedUs config [x] = 0) :
    Progress config c' := by
  have htransmitted : transmittedUs config (sinceResult c'.log) =
      transmittedUs config (sinceResult c.log) := by
    rw [hseen, transmittedUs_concat, hx, add_zero]
  have hreserved : reservedUs (sinceResult c.log) ≤ reservedUs (sinceResult c'.log) := by
    rw [hseen, reservedUs_concat]
    exact le_add_right _ _
  have hsub : List.Sublist (sinceResult c.log) (sinceResult c'.log) := by
    rw [hseen]
    exact sublist_append_left _ _
  unfold Progress at h ⊢
  rw [hstate, htoken, htransmitted]
  split at h
  · obtain ⟨p, rest, hq, hout, hroom⟩ := h
    obtain ⟨rest', hq'⟩ := hqueue p rest hq
    exact ⟨p, rest', hq', hout.trans hsub, hroom.trans hreserved⟩
  · obtain ⟨p, rest, first, hq, hcount, hout⟩ := h
    obtain ⟨rest', hq'⟩ := hqueue p rest hq
    exact ⟨p, rest', first, hq', hcount, hout.trans hsub⟩
  · exact h

/-- The front packet waits for its first frame: nothing was sent for it and the radio is free. -/
structure Waiting (config : SchedulerConfig) (now : Option ℕ) (c : Core) : Prop extends
    Base config now c where
  started : c.started = true
  nonempty : c.queue ≠ []
  free : outstanding c.log = none
  unsent : transmittedUs config (sinceResult c.log) = 0

theorem Waiting.settled (h : Waiting config now c) : Settled config now c :=
  { h.toBase with outstanding_eq := fun _ => h.free }

/-- A packet that waits may do so in any state without an operation. -/
theorem Waiting.good (h : Waiting config now c) {state : SchedulerState}
    (hstate : state = .dutyWait ∨ state = .contention) :
    Good config now { c with state := state } :=
  { h.toBase.control state c.token c.started with
    idle := fun hqueue => absurd hqueue h.nonempty
    stopped := fun hstopped => absurd (hstopped.symm.trans h.started) false_ne_true
    operation_eq := fun _ => by rcases hstate with rfl | rfl <;> exact h.free
    progress := by rcases hstate with rfl | rfl <;> exact h.unsent }

/-- No operation is under way in a state that waits for none. -/
theorem Good.settled (h : Good config now c) (hfree : c.operation = none) : Settled config now c :=
  { h.toBase with outstanding_eq := fun hstarted => (h.operation_eq hstarted).trans hfree }

/-- In a state without an operation the front packet waits. -/
theorem Good.waiting (h : Good config now c) (hstarted : c.started = true) (hqueue : c.queue ≠ [])
    (hstate : c.state = .idle ∨ c.state = .dutyWait ∨ c.state = .contention) :
    Waiting config now c :=
  { h.toBase with
    started := hstarted
    nonempty := hqueue
    free := by
      rw [h.operation_eq hstarted, Core.operation]
      rcases hstate with hs | hs | hs <;> rw [hs]
    unsent := by
      have hprogress := h.progress
      unfold Progress at hprogress
      rcases hstate with hs | hs | hs <;> simpa only [hs] using hprogress }

/-! ### Events -/

theorem nextOutstanding_event (type : PhyEventType) (token : UInt32) :
    nextOutstanding current (.event type token) =
      if endedBy type token = current then none else current := rfl

/-- An event that does not end the operation of the scheduler changes nothing. -/
theorem Good.event_stale (h : Good config now c) {type : PhyEventType} {token : UInt32}
    (hstale : endedBy type token = c.operation → c.operation = none) :
    Good config now { c with log := c.log ++ [.event type token] } :=
  { h.toBase.saw (x := .event type token) trivial trivial with
    idle := h.idle
    stopped := h.stopped
    operation_eq := fun hstarted => by
      rw [outstanding_concat, h.operation_eq hstarted, nextOutstanding_event]
      split_ifs with heq
      · exact (hstale heq).symm
      · rfl
    progress := h.progress.later rfl rfl (fun _ rest hq => ⟨rest, hq⟩)
      (sinceResult_concat c.log _) rfl }

/-- An event that ends the operation of the scheduler leaves the radio free. -/
theorem Good.event_ended (h : Good config now c) (hstarted : c.started = true)
    {type : PhyEventType} {token : UInt32} (heq : endedBy type token = c.operation) :
    outstanding (c.log ++ [.event type token]) = none := by
  rw [outstanding_concat, h.operation_eq hstarted, nextOutstanding_event, if_pos heq]

/-- The operation is a sensing only in the state that waits for one, with its token. -/
theorem Core.operation_eq_cad {token : UInt32} (h : c.operation = some (.cad token)) :
    c.state = .cad ∧ token = c.token := by
  cases hstate : c.state <;> simp only [Core.operation, hstate] at h
  all_goals cases h
  exact ⟨rfl, rfl⟩

/-- The operation is a transmission only in the states that wait for one, with its token. -/
theorem Core.operation_eq_tx {token : UInt32} (h : c.operation = some (.tx token)) :
    (c.state = .txFrame1 ∨ c.state = .txFrame2) ∧ token = c.token := by
  cases hstate : c.state <;> simp only [Core.operation, hstate] at h
  all_goals cases h
  · exact ⟨.inl rfl, rfl⟩
  · exact ⟨.inr rfl, rfl⟩

/-- While an operation is under way there is a packet that it is for, and the interface is
started. -/
theorem Good.busy (h : Good config now c) (hstate : c.state ≠ .idle) :
    c.queue ≠ [] ∧ c.started = true :=
  ⟨fun hqueue => hstate (h.idle hqueue),
    of_not_eq_false fun hstopped => hstate (h.stopped hstopped)⟩

/-- When the channel was sensed the front packet waits again. -/
theorem Good.cad_ended (h : Good config now c) (hstate : c.state = .cad) {type : PhyEventType}
    (htype : endedBy type c.token = some (.cad c.token)) :
    Waiting config now { c with log := c.log ++ [.event type c.token] } := by
  obtain ⟨hqueue, hstarted⟩ := h.busy (hstate ▸ SchedulerState.noConfusion)
  have hoperation : c.operation = some (.cad c.token) := by rw [Core.operation, hstate]
  have hprogress : transmittedUs config (sinceResult c.log) = 0 := by
    have hprogress := h.progress
    unfold Progress at hprogress
    simpa only [hstate] using hprogress
  refine { h.toBase.saw (x := .event type c.token) trivial trivial with
    started := hstarted
    nonempty := hqueue
    free := h.event_ended hstarted (htype.trans hoperation.symm)
    unsent := ?_ }
  simp only [sinceResult_concat, transmittedUs_concat, hprogress]
  rfl

/-! ### Frames -/

/-- The airtime of a packet is that of its first frame and of the others. -/
theorem PacketOk.airtime_eq (h : PacketOk config p) :
    p.airtime_us = frameAirtime config (p.frames.getD 0 []) +
      ((p.frames.drop 1).map (frameAirtime config)).sum := by
  rw [h.airtime]
  cases hframes : p.frames with
  | nil => simpa [hframes] using h.count
  | cons frame frames => simp

theorem PacketOk.getD_mem {i : ℕ} (hi : i < p.frames.length) : p.frames.getD i [] ∈ p.frames := by
  rw [getD_eq_getElem?_getD, getElem?_eq_getElem hi]
  exact getElem_mem hi

/-- Every frame of a packet has a time on air. -/
theorem PacketOk.airtimeUs_getD (h : PacketOk config p) (hvalid : validConfig config = true) {i : ℕ}
    (hi : i < p.frames.length) :
    ∃ airtime, airtimeUs config (p.frames.getD i []).length = .ok airtime := by
  obtain ⟨hpos, hle⟩ := h.frame _ (PacketOk.getD_mem hi)
  exact ⟨_, airtimeUs_eq hvalid hpos hle⟩

theorem nextOutstanding_phyStart (status : Status) :
    nextOutstanding current (.phyStart status) = if status = .ok then none else current := by
  cases status <;> rfl

/-- The front packet counts one more attempt to sense the channel. -/
theorem Base.attempt (h : Base config now c) (hqueue : c.queue = p :: rest) (attempts : UInt8) :
    Base config now { c with queue := { p with cad_attempts := attempts } :: rest } := by
  have hle := h.length_le
  have hturns := h.turns
  have horder := h.order
  rw [hqueue] at hle hturns horder
  refine { h with length_le := hle, turns := hturns, order := horder, packets := fun q hq => ?_ }
  rcases mem_cons.1 hq with rfl | hq
  · have hp := h.packets p (hqueue ▸ mem_cons_self)
    exact { hp with }
  · exact h.packets q (hqueue ▸ mem_cons_of_mem p hq)

/-- A call that the radio refused leaves nothing under way. -/
theorem Base.refused (h : Base config now c) {status : Status} {operation : Operation}
    (hout : outstanding c.log = if status = .ok then some operation else none)
    (hstatus : status ≠ .ok) : Settled config now c :=
  { h with outstanding_eq := fun _ => by rw [hout, if_neg hstatus] }

section

variable (h : Waiting config now c)
include h

/-- The radio is asked to sense the channel. -/
theorem Waiting.startCad_base (token : UInt32) (status : Status) :
    Base config now { c with token := token, log := c.log ++ [.startCad token status] } :=
  (h.toBase.control c.state token c.started).saw (x := .startCad token status) trivial h.free

theorem Waiting.startCad_outstanding (token : UInt32)
    (status : Status) : outstanding (c.log ++ [.startCad token status]) =
      if status = .ok then some (.cad token) else none := by
  rw [outstanding_concat, h.free]
  cases status <;> rfl

/-- The radio senses the channel. -/
theorem Waiting.startCad_taken (hqueue : c.queue = p :: rest) (token : UInt32) (attempts : UInt8) :
    Good config now { c with
      queue := { p with cad_attempts := attempts } :: rest
      state := .cad
      token := token
      log := c.log ++ [.startCad token .ok] } := by
  have hbase := (h.startCad_base token .ok).attempt hqueue attempts
  refine { hbase.control .cad token c.started with
    idle := fun hempty => absurd hempty (cons_ne_nil _ _)
    stopped := fun hstopped => absurd (hstopped.symm.trans h.started) false_ne_true
    operation_eq := fun _ => h.startCad_outstanding token .ok
    progress := ?_ }
  change transmittedUs config (sinceResult (c.log ++ [.startCad token .ok])) = 0
  simp only [sinceResult_concat, transmittedUs_concat, h.unsent]
  rfl

end

/-- The first frame is handed to the radio, after its packet's airtime was reserved. -/
def Core.sendFirst (c : Core) (p : QueuedPacket) (now_ms : ℕ) (token : UInt32)
    (status : Status) : Core :=
  { c with
    duty := reserveAirtime c.duty now_ms p.airtime_us
    token := token
    log := c.log ++ [.reserved now_ms p.airtime_us] ++
      [.transmit (p.frames.getD 0 []) token status] }

section First

variable {p : QueuedPacket} {rest : List QueuedPacket} {now_ms : ℕ} {token : UInt32}
  {status : Status}

theorem sinceResult_sendFirst : sinceResult (c.sendFirst p now_ms token status).log =
    sinceResult c.log ++ [.reserved now_ms p.airtime_us] ++
      [.transmit (p.frames.getD 0 []) token status] := by
  rw [Core.sendFirst, sinceResult_concat, sinceResult_concat]

/-- The first frame is covered by the reservation just made. -/
theorem Waiting.sendFirst_base (h : Waiting config now c) (hqueue : c.queue = p :: rest)
    (hnow : ∀ n, now = some n → n = now_ms)
    (hroom : dutyAvailable config c.duty now_ms p.airtime_us = true) :
    Base config now (c.sendFirst p now_ms token status) := by
  have hp : PacketOk config p := h.packets p (hqueue ▸ mem_cons_self)
  have hreserved := h.toBase.reserve hqueue hnow hroom
  have hpos : 0 < p.frames.length := by rcases hp.count with hc | hc <;> omega
  refine (hreserved.control c.state token c.started).saw
    (x := .transmit (p.frames.getD 0 []) token status) trivial ⟨?_, ?_, ?_⟩
  · rw [outstanding_concat, h.free]
    rfl
  · exact ⟨_, hreserved.turnOf_eq hqueue, PacketOk.getD_mem hpos⟩
  · -- Nothing else was sent for the packet, so what is reserved now is enough.
    obtain ⟨airtime, hairtime⟩ := hp.airtimeUs_getD h.valid hpos
    refine ⟨airtime, hairtime, ?_⟩
    rw [sinceResult_concat, transmittedUs_concat, reservedUs_concat, h.unsent]
    have hair := hp.airtime_eq
    simp only [transmittedUs, reservedUs, map_cons, map_nil, sum_cons,
      sum_nil, frameAirtime, hairtime] at hair ⊢
    omega

theorem Waiting.sendFirst_outstanding (h : Waiting config now c) :
    outstanding (c.sendFirst p now_ms token status).log =
      if status = .ok then some (.tx token) else none := by
  rw [Core.sendFirst, outstanding_concat, outstanding_concat, h.free]
  cases status <;> rfl

variable (h : Waiting config now c) (hqueue : c.queue = p :: rest)
    (hnow : ∀ n, now = some n → n = now_ms)
    (hroom : dutyAvailable config c.duty now_ms p.airtime_us = true)
include h hqueue hnow hroom

/-- The radio took the first frame. -/
theorem Waiting.sendFirst_taken (token : UInt32) :
    Good config now { c.sendFirst p now_ms token .ok with state := .txFrame1 } := by
  have hp : PacketOk config p := h.packets p (hqueue ▸ mem_cons_self)
  have hbase : Base config now (c.sendFirst p now_ms token .ok) :=
    h.sendFirst_base hqueue hnow hroom
  refine { hbase.control .txFrame1 token c.started with
    idle := fun hempty => absurd hempty h.nonempty
    stopped := fun hstopped => absurd (hstopped.symm.trans h.started) false_ne_true
    operation_eq := fun _ => h.sendFirst_outstanding
    progress := ⟨p, rest, hqueue, ?_, ?_⟩ }
  · rw [sinceResult_sendFirst]
    exact sublist_append_right _ _
  · have hair := hp.airtime_eq
    rw [sinceResult_sendFirst, transmittedUs_concat, transmittedUs_concat, reservedUs_concat,
      reservedUs_concat, h.unsent]
    simp only [transmittedUs, reservedUs, map_cons, map_nil, sum_cons, sum_nil]
    omega

end First

/-- The first frame of the front packet was sent, and what is reserved covers the others. -/
structure FirstSent (config : SchedulerConfig) (now : Option ℕ) (p : QueuedPacket) (c : Core) :
    Prop extends Base config now c where
  started : c.started = true
  front : ∃ rest, c.queue = p :: rest
  free : outstanding c.log = none
  sent : ∃ token, List.Sublist [.transmit (p.frames.getD 0 []) token .ok, .event .txDone token]
    (sinceResult c.log)
  covered : transmittedUs config (sinceResult c.log) +
    ((p.frames.drop 1).map (frameAirtime config)).sum ≤ reservedUs (sinceResult c.log)

/-- `TX_DONE` for the first frame. -/
theorem Good.first_done (h : Good config now c) (hstate : c.state = .txFrame1)
    (hqueue : c.queue = p :: rest) :
    FirstSent config now p { c with log := c.log ++ [.event .txDone c.token] } := by
  have hprogress := h.progress
  simp only [Progress, hstate] at hprogress
  obtain ⟨p', rest', hqueue', hsent, hcovered⟩ := hprogress
  obtain ⟨rfl, -⟩ := cons.inj (hqueue.symm.trans hqueue')
  have hstarted := (h.busy (hstate ▸ SchedulerState.noConfusion)).2
  have hoperation : c.operation = some (.tx c.token) := by rw [Core.operation, hstate]
  refine { h.toBase.saw (x := .event .txDone c.token) trivial trivial with
    started := hstarted
    front := ⟨rest, hqueue⟩
    free := h.event_ended hstarted hoperation.symm
    sent := ⟨c.token, ?_⟩
    covered := ?_ }
  all_goals simp only [sinceResult_concat]
  · exact hsent.append_right [.event .txDone c.token]
  · rw [transmittedUs_concat, reservedUs_concat]
    exact hcovered

/-- A packet of one frame is delivered with its first frame. -/
theorem FirstSent.delivered (h : FirstSent config now p c) (hcount : p.frames.length = 1) :
    Delivered p.frames (sinceResult c.log) := by
  obtain ⟨token, hsent⟩ := h.sent
  obtain ⟨frame, hframes⟩ := length_eq_one_iff.1 hcount
  rw [hframes] at hsent ⊢
  exact ⟨[token], rfl, hsent⟩

theorem FirstSent.settled (h : FirstSent config now p c) : Settled config now c :=
  { h.toBase with outstanding_eq := fun _ => h.free }

/-- The second frame is handed to the radio. -/
def Core.sendSecond (c : Core) (p : QueuedPacket) (token : UInt32) (status : Status) : Core :=
  { c with
    token := token
    log := c.log ++ [.transmit (p.frames.getD 1 []) token status] }

section Second

variable {p : QueuedPacket} {token : UInt32} {status : Status}

section

variable (h : FirstSent config now p c)
include h

/-- The second frame is covered by what the packet reserved before its first one. -/
theorem FirstSent.sendSecond_base (hcount : p.frames.length = 2) :
    Base config now (c.sendSecond p token status) := by
  obtain ⟨rest, hqueue⟩ := h.front
  refine (h.toBase.control c.state token c.started).saw
    (x := .transmit (p.frames.getD 1 []) token status) trivial ⟨h.free, ?_, ?_⟩
  · exact ⟨_, h.toBase.turnOf_eq hqueue, PacketOk.getD_mem (hcount ▸ one_lt_two)⟩
  · obtain ⟨first, second, hframes⟩ := length_eq_two.1 hcount
    have hcovered := h.covered
    have hp : PacketOk config p := h.packets p (hqueue ▸ mem_cons_self)
    obtain ⟨airtime, hairtime⟩ := hp.airtimeUs_getD h.valid (hcount ▸ one_lt_two)
    refine ⟨airtime, hairtime, ?_⟩
    have hsecond : frameAirtime config second = airtime := by
      rw [hframes] at hairtime
      exact congrArg (fun r : Except Status ℕ => match r with
        | .ok airtime => airtime
        | .error _ => 0) hairtime
    simp only [hframes, drop_succ_cons, drop_zero, map_cons, map_nil,
      sum_cons, sum_nil, add_zero, hsecond] at hcovered
    exact hcovered

theorem FirstSent.sendSecond_outstanding : outstanding (c.sendSecond p token status).log =
      if status = .ok then some (.tx token) else none := by
  rw [Core.sendSecond, outstanding_concat, h.free]
  cases status <;> rfl

/-- The radio took the second frame. -/
theorem FirstSent.sendSecond_taken (hcount : p.frames.length = 2) (token : UInt32) :
    Good config now { c.sendSecond p token .ok with state := .txFrame2 } := by
  obtain ⟨rest, hqueue⟩ := h.front
  obtain ⟨first, hsent⟩ := h.sent
  have hbase : Base config now (c.sendSecond p token .ok) := h.sendSecond_base hcount
  refine { hbase.control .txFrame2 token c.started with
    idle := fun hempty => absurd (hqueue.symm.trans hempty) (cons_ne_nil _ _)
    stopped := fun hstopped => absurd (hstopped.symm.trans h.started) false_ne_true
    operation_eq := fun _ => h.sendSecond_outstanding
    progress := ⟨p, rest, first, hqueue, hcount, ?_⟩ }
  simp only [Core.sendSecond, sinceResult_concat]
  exact hsent.append_right [.transmit (p.frames.getD 1 []) token .ok]

end

end Second

/-- `TX_DONE` for the second frame: the packet is delivered. -/
theorem Good.second_done (h : Good config now c) (hstate : c.state = .txFrame2)
    (hqueue : c.queue = p :: rest) :
    Settled config now { c with log := c.log ++ [.event .txDone c.token] } ∧
      Delivered p.frames (sinceResult (c.log ++ [.event .txDone c.token])) := by
  have hprogress := h.progress
  simp only [Progress, hstate] at hprogress
  obtain ⟨p', rest', first, hqueue', hcount, hsent⟩ := hprogress
  obtain ⟨rfl, -⟩ := cons.inj (hqueue.symm.trans hqueue')
  have hstarted := (h.busy (hstate ▸ SchedulerState.noConfusion)).2
  have hoperation : c.operation = some (.tx c.token) := by rw [Core.operation, hstate]
  constructor
  · exact { h.toBase.saw (x := .event .txDone c.token) trivial trivial with
      outstanding_eq := fun _ => h.event_ended hstarted hoperation.symm }
  · obtain ⟨f, g, hframes⟩ := length_eq_two.1 hcount
    rw [hframes] at hsent ⊢
    simp only [sinceResult_concat]
    exact ⟨[first, c.token], rfl, hsent.append_right [.event .txDone c.token]⟩

end Reticulum.Radio
