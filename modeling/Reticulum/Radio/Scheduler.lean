import Reticulum.Radio.Duty

/-!
# The radio scheduler

`src/interfaces/sx1262_interface.c`: packets are queued, wait for airtime and for a random delay,
sense the channel, and go out in one or two frames, driven by the events of the radio that
`rns_sx1262_interface_poll` takes.

Everything that the code asks of its surroundings is an answer of an `Oracle`: readings of the
clock, entropy, what the radio returns and reports, and what the result and receive callbacks do,
which may queue packets, read the statistics or stop the interface. The answers are numbered in the
order in which they are asked for, and a statement for every oracle is one for all behaviours of the
surroundings. `log` records what an observer at the boundary sees.

A callback that stops the interface is inside a call that finishes a packet, which may itself be
inside a stop. Packets are not accepted once the interface is stopped, so every such stop has fewer
packets to finish than the one around it, and the recursion is on a bound for the queue.
-/

namespace Reticulum.Radio

open Buckets (Bucket)

/-- `RNS_SX1262_PACKET_QUEUE_CAPACITY`. -/
def packetQueueCapacity : ℕ := 4

/-- `scheduler_state_t`. -/
inductive SchedulerState
  | idle
  | dutyWait
  | contention
  | cad
  | txFrame1
  | txFrame2
deriving DecidableEq, Repr

/-- `rns_sx1262_phy_event_type_t`, with the frame and the signal of a received frame. -/
inductive PhyEventType
  | rxFrame (frame : List UInt8) (rssi_dbm snr_db : ℤ)
  | cadClear
  | cadBusy
  | cadFailed
  | txDone
  | txFailed
deriving DecidableEq, Repr

/-- `rns_sx1262_phy_event_t`. -/
structure PhyEvent where
  type : PhyEventType
  operation_token : UInt32
  status : Status
deriving DecidableEq, Repr

/-- `rns_sx1262_packet_outcome_t`. -/
inductive PacketOutcome
  | sent
  | droppedPhy
  | droppedContention
  | droppedStopped
deriving DecidableEq, Repr

/-- `queued_packet_t`. -/
structure QueuedPacket where
  frames : List (List UInt8)
  airtime_us : ℕ
  packet_length : ℕ
  id : UInt32
  sequence : UInt8
  cad_attempts : UInt8
deriving DecidableEq, Repr

/-- `rns_sx1262_scheduler_stats_t`, with counters that do not wrap at `2 ^ 64` as those of the
source do. -/
structure SchedulerStats where
  packets_queued : ℕ
  packets_sent : ℕ
  packets_dropped : ℕ
  tx_overflows : ℕ
  frames_sent : ℕ
  tx_bytes : ℕ
  rx_frames : ℕ
  signal : Option (ℤ × ℤ)
  rx_packets : ℕ
  rx_bytes : ℕ
  rx_malformed : ℕ
  rx_overflows : ℕ
  stale_control_events : ℕ
  cad_busy : ℕ
  cad_failures : ℕ
  duty_deferrals : ℕ
  clock_regressions : ℕ
  airtime_reserved_us : ℕ
  rolling_airtime_us : ℕ
  pending_packets : ℕ
  online : Bool
  transmitting : Bool
  last_error : Status
deriving DecidableEq, Repr

/-- What is seen at the boundary of the scheduler. -/
inductive Observation
  | queued (id : UInt32) (frames : List (List UInt8))
  | result (id : UInt32) (outcome : PacketOutcome) (status : Status)
  | reserved (now_ms airtime_us : ℕ)
  | startCad (token : UInt32) (status : Status)
  | transmit (frame : List UInt8) (token : UInt32) (status : Status)
  | event (type : PhyEventType) (token : UInt32)
  | cancelOperation (token : UInt32) (status : Status)
  | phyStart (status : Status)
  | phyStop (status : Status)
deriving DecidableEq, Repr

/-- What a callback does to the interface. -/
inductive Action
  | send (packet : List UInt8)
  | stop
  | getStats
deriving DecidableEq, Repr

/-- The answers of the surroundings, by the number of the question. -/
structure Oracle where
  clock : ℕ → UInt64
  entropy : ℕ → Except Status UInt32
  phy : ℕ → Status
  pollEvent : ℕ → Except Status PhyEvent
  receive : ℕ → Status
  reaction : ℕ → List Action

/-- `rns_sx1262_interface`, with the number of questions asked, the log, and for each entry of the
log the number of questions asked before it. The queue is in the order of sending. -/
structure Interface where
  config : SchedulerConfig
  queue : List QueuedPacket
  duty : List (Option Bucket)
  reassembler : Reassembler
  last_now_ms : ℕ
  ready_at_ms : ℕ
  sequence_blocked_until_ms : UInt8 → Option ℕ
  operation_deadline_ms : ℕ
  next_packet_id : UInt32
  next_operation_token : UInt32
  expected_operation_token : UInt32
  state : SchedulerState
  stats : SchedulerStats
  started : Bool
  in_poll : Bool
  answers : ℕ
  log : List Observation
  stamps : List ℕ

/-- The statistics at the start. -/
def SchedulerStats.zero : SchedulerStats :=
  { packets_queued := 0, packets_sent := 0, packets_dropped := 0, tx_overflows := 0
    frames_sent := 0, tx_bytes := 0, rx_frames := 0, signal := none, rx_packets := 0, rx_bytes := 0
    rx_malformed := 0, rx_overflows := 0, stale_control_events := 0, cad_busy := 0
    cad_failures := 0, duty_deferrals := 0, clock_regressions := 0, airtime_reserved_us := 0
    rolling_airtime_us := 0, pending_packets := 0, online := false, transmitting := false
    last_error := .ok }

namespace Interface

section

variable (o : Oracle) (s : Interface) (packet : QueuedPacket) (now_ms : ℕ)

/-- `rns_sx1262_interface_create`, where memory is there. -/
def create (config : SchedulerConfig) : Except Status Interface :=
  if !validConfig config then .error .invalidArgument
  else
    match Reassembler.init packetMtu config.fragment_timeout_ms.toNat
        config.sequence_reuse_guard_ms.toNat with
    | .error status => .error status
    | .ok reassembler =>
      .ok
        { config
          queue := []
          duty := List.replicate dutyStorageBucketCount none
          reassembler
          last_now_ms := 0
          ready_at_ms := 0
          sequence_blocked_until_ms := fun _ => none
          operation_deadline_ms := 0
          next_packet_id := 0
          next_operation_token := 0
          expected_operation_token := 0
          state := .idle
          stats := .zero
          started := false
          in_poll := false
          answers := 0
          log := []
          stamps := [] }

/-- The next question is asked. -/
def asked : Interface := { s with answers := s.answers + 1 }

/-- Something is seen. -/
def saw (observation : Observation) : Interface :=
  { s with log := s.log ++ [observation], stamps := s.stamps ++ [s.answers] }

/-- The scheduler goes to another state. -/
def setState (state : SchedulerState) : Interface := { s with state }

/-- The operation has another deadline. -/
def setDeadline (deadline : ℕ) : Interface :=
  { s with operation_deadline_ms := deadline }

/-- The last error is another one. -/
def setError (status : Status) : Interface :=
  { s with stats.last_error := status }

/-- The interface is not started any more. -/
def offline : Interface := { s with started := false, stats.online := false }

/-- `start` of the radio. -/
def phyStart (o : Oracle) (s : Interface) : Status × Interface :=
  (o.phy s.answers, s.asked.saw (.phyStart (o.phy s.answers)))

/-- `stop` of the radio. -/
def phyStop (o : Oracle) (s : Interface) : Status × Interface :=
  (o.phy s.answers, s.asked.saw (.phyStop (o.phy s.answers)))

/-- `current_time`. -/
def currentTime : ℕ × Interface :=
  let now := (o.clock s.answers).toNat
  if now < s.last_now_ms then
    (s.last_now_ms,
      { s.asked with stats.clock_regressions := s.stats.clock_regressions + 1 })
  else (now, { s.asked with last_now_ms := now })

/-- The attempts of `random_delay`. -/
def randomAttempts (o : Oracle) (range limit : ℕ) : ℕ → Interface → Except Status ℕ × Interface
  | 0, s => (.error .io, s)
  | attempts + 1, s =>
    match o.entropy s.answers with
    | .error status => (.error status, s.asked)
    | .ok random_value =>
      if random_value.toNat < limit then (.ok (random_value.toNat % range), s.asked)
      else randomAttempts o range limit attempts s.asked

/-- `random_delay`. -/
def randomDelay (maximum_ms : UInt32) : Except Status ℕ × Interface :=
  if maximum_ms = 0 then (.ok 0, s)
  else
    let range := maximum_ms.toNat + 1
    randomAttempts o range (2^32 / range * range) 4 s

/-- `split_sequence_in_queue`. -/
def splitSequenceInQueue (sequence : UInt8) : Bool :=
  s.queue.any fun packet => packet.frames.length == 2 && packet.sequence == sequence

/-- The scan of `choose_split_sequence` over the sequences still to try. -/
def chooseLoop (now_ms : ℕ) : List UInt8 → Interface → Option UInt8 × Interface
  | [], s => (none, s)
  | sequence :: rest, s =>
    match s.sequence_blocked_until_ms sequence with
    | none =>
      if s.splitSequenceInQueue sequence then chooseLoop now_ms rest s else (some sequence, s)
    | some deadline =>
      if deadline ≠ uint64Max ∧ now_ms ≥ deadline then
        let s := { s with
          sequence_blocked_until_ms := Function.update s.sequence_blocked_until_ms sequence none }
        if s.splitSequenceInQueue sequence then chooseLoop now_ms rest s else (some sequence, s)
      else chooseLoop now_ms rest s

/-- `choose_split_sequence`. -/
def chooseSplitSequence (random_byte : UInt8) (now_ms : ℕ) : Option UInt8 × Interface :=
  let first := random_byte &&& 0x0f
  chooseLoop now_ms
    ((List.range sequenceCount).map fun offset => (first + UInt8.ofNat offset) &&& 0x0f) s

/-- The airtime of the frames of a packet, as `rns_sx1262_interface_send` adds it up. -/
def framesAirtime (config : SchedulerConfig) : List (List UInt8) → ℕ → Except Status ℕ
  | [], total => .ok total
  | frame :: frames, total =>
    match airtimeUs config frame.length with
    | .error status => .error status
    | .ok airtime =>
      if airtime > uint64Max - total then .error .overflow
      else framesAirtime config frames (total + airtime)

/-- The next packet id or operation token: zero is not used. -/
def nextNumber (n : UInt32) : UInt32 := if n + 1 = 0 then 1 else n + 1

/-- The end of `rns_sx1262_interface_send`: the packet is in the queue. -/
def enqueue (frames : List (List UInt8)) (airtime_us packet_length : ℕ)
    (sequence : UInt8) : Interface :=
  let id := nextNumber s.next_packet_id
  let packet : QueuedPacket :=
    { frames, airtime_us, packet_length, id, sequence, cad_attempts := 0 }
  saw { s with
    next_packet_id := id
    queue := s.queue ++ [packet]
    stats.packets_queued := s.stats.packets_queued + 1
    stats.pending_packets := s.queue.length + 1 } (.queued id frames)

/-- The part of `rns_sx1262_interface_send` after the sequence is chosen. -/
def sendWith (packet : List UInt8) (sequence : UInt8) : Except Status UInt32 × Interface :=
  match frameEncode packet sequence with
  | .error status => (.error status, s)
  | .ok frames =>
    match framesAirtime s.config frames 0 with
    | .error status => (.error status, s)
    | .ok airtime_us =>
      if airtime_us > dutyLimitUs s.config then
        (.error .overflow, s.setError .overflow)
      else
        (.ok (nextNumber s.next_packet_id), s.enqueue frames airtime_us packet.length sequence)

/-- `rns_sx1262_interface_send`. -/
def send (packet : List UInt8) : Except Status UInt32 × Interface :=
  if packet.length = 0 ∨ packet.length > packetMtu then (.error .invalidArgument, s)
  else if !s.started then (.error .invalidState, s)
  else if s.queue.length = packetQueueCapacity then
    (.error .overflow, { s with stats.tx_overflows := s.stats.tx_overflows + 1 })
  else
    match o.entropy s.answers with
    | .error status => (.error status, s.asked.setError status)
    | .ok entropy =>
      let (now_ms, s) := currentTime o s.asked
      if packet.length > framePayloadMtu then
        match s.chooseSplitSequence entropy.toUInt8 now_ms with
        | (none, s) => (.error .invalidState, s.setError .invalidState)
        | (some sequence, s) => s.sendWith packet sequence
      else s.sendWith packet (entropy.toUInt8 &&& 0x0f)

/-- `rns_sx1262_interface_get_stats`, which reads the clock. -/
def getStats : SchedulerStats × Interface :=
  if s.started then
    let (now_ms, s') := currentTime o s
    ({ s.stats with rolling_airtime_us := rollingAirtime s'.duty now_ms }, s')
  else (s.stats, s)

/-! ## Finishing packets -/

/-- The part of `finish_front` before it reads the clock: the packet is out of the queue. -/
def popFront (rest : List QueuedPacket) (outcome : PacketOutcome) (status : Status) : Interface :=
  let s := { s with
    queue := rest
    state := .idle
    expected_operation_token := 0
    operation_deadline_ms := 0
    ready_at_ms := 0
    stats.pending_packets := rest.length
    stats.transmitting := false }
  if outcome = .sent then
    { s with
      stats.packets_sent := s.stats.packets_sent + 1
      stats.tx_bytes := s.stats.tx_bytes + packet.packet_length }
  else
    { s with
      stats.packets_dropped := s.stats.packets_dropped + 1
      stats.last_error := status }

/-- The sequence of a packet of two frames is not used again for a while. -/
def blockSequence : Interface :=
  if packet.frames.length = 2 then
    { s with
      sequence_blocked_until_ms := Function.update s.sequence_blocked_until_ms packet.sequence
        (some (addSaturated now_ms s.config.sequence_reuse_guard_ms.toNat)) }
  else s

/-- What a callback does, where `stop` is what stopping does. -/
def perform (stop : Interface → Interface) (s : Interface) : Action → Interface
  | .send packet => (send o s packet).2
  | .stop => stop s
  | .getStats => (getStats o s).2

/-- A callback runs. -/
def react (stop : Interface → Interface) (s : Interface) : Interface :=
  (o.reaction s.answers).foldl (perform o stop) s.asked

/-- `finish_front`, where `stop` is what stopping does in the callback. -/
def finishFrontWith (stop : Interface → Interface) (outcome : PacketOutcome)
    (status : Status) (s : Interface) : Interface :=
  match s.queue with
  | [] => s
  | packet :: rest =>
    let (now_ms, s) := currentTime o (s.popFront packet rest outcome status)
    react o stop ((s.blockSequence packet now_ms).saw (.result packet.id outcome status))

/-- `rns_sx1262_interface_stop`, where `drain` finishes the packets. -/
def stopWith (drain : PacketOutcome → Status → Interface → Interface)
    (s : Interface) : Status × Interface :=
  let (status, s) := if s.started then phyStop o s else (.ok, s)
  let s := drain .droppedStopped (if status = .ok then .invalidState else status) s.offline
  let s := { s with reassembler := s.reassembler.reset }
  (status, if status ≠ .ok then s.setError status else s)

/-- The loop that finishes the packets of a stopped interface, for at most `n` packets. -/
def drain (o : Oracle) : ℕ → PacketOutcome → Status → Interface → Interface
  | 0, _, _, s => s
  | n + 1, outcome, status, s =>
    if s.queue = [] then s
    else
      drain o n outcome status
        (finishFrontWith o (fun s => (stopWith o (drain o n) s).2) outcome status s)

/-- `rns_sx1262_interface_stop`. -/
def stop : Status × Interface :=
  stopWith o (drain o packetQueueCapacity) s

/-- `finish_front`. -/
def finishFront (outcome : PacketOutcome) (status : Status) (s : Interface) : Interface :=
  finishFrontWith o (fun s => (stop o s).2) outcome status s

/-- The loop `while (!started && queue_count != 0)` of `rns_sx1262_interface_poll`. -/
def finishStopped (outcome : PacketOutcome) (status : Status) (s : Interface) : Interface :=
  if s.started then s else drain o packetQueueCapacity outcome status s

/-- The recovery of `cancel_active_operation`: the radio is stopped and started again. -/
def recover : Status × Interface :=
  let (recovery, s) := phyStop o s
  if recovery = .ok then phyStart o s else (recovery, s)

/-- `cancel_active_operation`. -/
def cancelActiveOperation : Status × Interface :=
  let status := o.phy s.answers
  let s := s.asked.saw (.cancelOperation s.expected_operation_token status)
  if status ≠ .ok then
    let (recovery, s) := recover o s
    if recovery ≠ .ok then (recovery, s.offline) else (status, s)
  else (status, s)

/-! ## Sending a packet -/

/-- An operation of the radio is under way. -/
def active : Bool :=
  s.state = .cad || s.state = .txFrame1 || s.state = .txFrame2

/-- The sum of the airtime is kept in the statistics. -/
def summed : Interface :=
  { s with stats.rolling_airtime_us := rollingAirtime s.duty now_ms }

/-- `duty_available`, which keeps the sum in the statistics. -/
def checkDuty (airtime_us : ℕ) : Bool × Interface :=
  (dutyAvailable s.config s.duty now_ms airtime_us, s.summed now_ms)

/-- One more packet has to wait for airtime. -/
def deferred : Interface :=
  { s with stats.duty_deferrals := s.stats.duty_deferrals + 1 }

/-- `reserve_airtime`. -/
def reserve (airtime_us : ℕ) : Interface :=
  let duty := reserveAirtime s.duty now_ms airtime_us
  saw { s with
    duty
    stats.airtime_reserved_us := addSaturated s.stats.airtime_reserved_us airtime_us
    stats.rolling_airtime_us := rollingAirtime duty now_ms } (.reserved now_ms airtime_us)

/-- The next operation has the next token. -/
def takeToken : Interface :=
  let token := nextNumber s.next_operation_token
  { s with next_operation_token := token, expected_operation_token := token }

/-- `transmit` of the radio. -/
def phyTransmit (frame : List UInt8) : Status × Interface :=
  (o.phy s.answers,
    s.asked.saw (.transmit frame s.expected_operation_token (o.phy s.answers)))

/-- `start_cad` of the radio. -/
def phyStartCad : Status × Interface :=
  (o.phy s.answers,
    s.asked.saw (.startCad s.expected_operation_token (o.phy s.answers)))

/-- One more time the channel could not be sensed. -/
def cadFailed : Interface :=
  { s with stats.cad_failures := s.stats.cad_failures + 1 }

/-- One more frame is sent. -/
def frameSent : Interface :=
  { s with stats.frames_sent := s.stats.frames_sent + 1 }

/-- The deadline of a frame. -/
def frameDeadline (config : SchedulerConfig) (now_ms frame_airtime_us : ℕ) : ℕ :=
  addSaturated now_ms
    (addSaturated ((frame_airtime_us + 999) / 1000) config.tx_timeout_margin_ms.toNat)

/-- `begin_first_frame`. -/
def beginFirstFrame : Status × Interface :=
  match s.queue with
  | [] => (.ok, s.setState .idle)
  | packet :: _ =>
    match s.checkDuty now_ms packet.airtime_us with
    | (false, s) =>
      let s := if s.state ≠ .dutyWait then s.deferred else s
      (.ok, s.setState .dutyWait)
    | (true, s) =>
      let s := s.reserve now_ms packet.airtime_us
      let frame := packet.frames.getD 0 []
      match airtimeUs s.config frame.length with
      | .error status => (status, finishFront o .droppedPhy status s)
      | .ok frame_airtime_us =>
        let s := (s.setDeadline (frameDeadline s.config now_ms frame_airtime_us)).takeToken
        let (status, s) := phyTransmit o s frame
        if status ≠ .ok then (status, finishFront o .droppedPhy status s)
        else (.ok, s.setState .txFrame1)

/-- The random delay before the channel is sensed. -/
def contend (maximum_ms : UInt32) : Status × Interface :=
  match randomDelay o s maximum_ms with
  | (.error status, s) => (status, finishFront o .droppedPhy status s)
  | (.ok delay_ms, s) =>
    (.ok, setState
      { s with ready_at_ms := addSaturated now_ms (addSaturated s.config.difs_ms.toNat delay_ms) }
      .contention)

/-- The end of a contention: the radio senses the channel. -/
def senseChannel (rest : List QueuedPacket) (now_ms : ℕ) : Status × Interface :=
  let s := s.takeToken.setDeadline (addSaturated now_ms s.config.cad_timeout_ms.toNat)
  let (status, s) := phyStartCad o s
  if status ≠ .ok then (status, finishFront o .droppedPhy status s.cadFailed)
  else
    let packet := { packet with cad_attempts := packet.cad_attempts + 1 }
    (.ok, setState { s with queue := packet :: rest } .cad)

/-- `advance_scheduler`. -/
def advanceScheduler : Status × Interface :=
  match s.queue with
  | [] => (.ok, s.setState .idle)
  | packet :: rest =>
    match s.state with
    | .idle =>
      match s.checkDuty now_ms packet.airtime_us with
      | (false, s) => (.ok, s.deferred.setState .dutyWait)
      | (true, s) => contend o s now_ms s.config.contention_window_ms
    | .dutyWait =>
      match s.checkDuty now_ms packet.airtime_us with
      | (false, s) => (.ok, s)
      | (true, s) => contend o s now_ms s.config.contention_window_ms
    | .contention =>
      if now_ms ≥ s.ready_at_ms then senseChannel o s packet rest now_ms else (.ok, s)
    | _ => (.ok, s)

/-! ## Events -/

/-- `rns_radio_reassembler_feed` with `receive_frame_callback`. -/
def receiveFrame (frame : List UInt8) (now_ms : ℕ) : Status × Interface :=
  match s.reassembler.feed frame now_ms with
  | (reassembler, .error status) => (status, { s with reassembler })
  | (reassembler, .ok packet) =>
    let s := { s with
      reassembler
      stats.rx_packets := s.stats.rx_packets + 1
      stats.rx_bytes := s.stats.rx_bytes + packet.length }
    let status := o.receive s.answers
    let s := react o (fun s => (stop o s).2) s
    (status, if status = .ok then { s with reassembler := s.reassembler.completed } else s)

/-- A frame is heard. -/
def heard (rssi_dbm snr_db : ℤ) : Interface :=
  { s with
    stats.rx_frames := s.stats.rx_frames + 1
    stats.signal := some (rssi_dbm, snr_db) }

/-- `handle_rx_event`. -/
def handleRxEvent (frame : List UInt8) (rssi_dbm snr_db : ℤ) (now_ms : ℕ) : Status × Interface :=
  if frame.length = 0 ∨ frame.length > phyMtu then
    (.protocol, { s with stats.rx_malformed := s.stats.rx_malformed + 1 })
  else
    let (status, s) := receiveFrame o (s.heard rssi_dbm snr_db) frame now_ms
    if status = .protocol ∨ status = .invalidState then
      (status, { s with stats.rx_malformed := s.stats.rx_malformed + 1 })
    else if status = .overflow then
      (status, { s with stats.rx_overflows := s.stats.rx_overflows + 1 })
    else (status, s)

/-- A control event that does not belong to the operation under way. -/
def staleEvent : Status × Interface :=
  (.protocol, { s with stats.stale_control_events := s.stats.stale_control_events + 1 })

/-- `CAD_BUSY` for the operation under way. -/
def handleCadBusy : Status × Interface :=
  let s := { s with operation_deadline_ms := 0, stats.cad_busy := s.stats.cad_busy + 1 }
  if packet.cad_attempts ≥ s.config.max_cad_attempts then
    (.ok, finishFront o .droppedContention .timeout s)
  else contend o s now_ms s.config.cad_busy_backoff_ms

/-- `TX_DONE` for the first frame: the packet is sent, or its second frame follows. -/
def handleFirstDone : Status × Interface :=
  let s := s.frameSent
  if packet.frames.length = 1 then (.ok, finishFront o .sent .ok s)
  else
    let frame := packet.frames.getD 1 []
    let (status, s) := phyTransmit o s.takeToken frame
    if status ≠ .ok then (status, finishFront o .droppedPhy status s)
    else
      match airtimeUs s.config frame.length with
      | .error status => (status, finishFront o .droppedPhy status s)
      | .ok frame_airtime_us =>
        (.ok, (s.setDeadline (frameDeadline s.config now_ms frame_airtime_us)).setState .txFrame2)

/-- `handle_phy_event`. -/
def handlePhyEvent (event : PhyEvent) (now_ms : ℕ) : Status × Interface :=
  let status := if event.status = .ok then .io else event.status
  let matching := event.operation_token = s.expected_operation_token
  match event.type, s.queue with
  | .rxFrame frame rssi_dbm snr_db, _ => handleRxEvent o s frame rssi_dbm snr_db now_ms
  | .cadClear, _ :: _ =>
    if s.state = .cad ∧ matching then beginFirstFrame o s now_ms else s.staleEvent
  | .cadBusy, packet :: _ =>
    if s.state = .cad ∧ matching then handleCadBusy o s packet now_ms else s.staleEvent
  | .cadFailed, _ =>
    if s.state = .cad ∧ matching then
      (status, finishFront o .droppedPhy status s.cadFailed)
    else s.staleEvent
  | .txFailed, _ =>
    if (s.state = .txFrame1 ∨ s.state = .txFrame2) ∧ matching then
      (status, finishFront o .droppedPhy status s)
    else s.staleEvent
  | .txDone, packet :: _ =>
    if s.state = .txFrame1 ∧ matching then handleFirstDone o s packet now_ms
    else if s.state = .txFrame2 ∧ matching then
      (.ok, finishFront o .sent .ok s.frameSent)
    else s.staleEvent
  | _, _ => s.staleEvent

/-- An operation that is given up because the radio cannot be polled. -/
def pollFailed (status : Status) : Interface :=
  let s := s.setError status
  if s.queue = [] then s
  else
    let s := if s.active then (cancelActiveOperation o s).2 else s
    finishStopped o .droppedPhy status (finishFront o .droppedPhy status s)

/-- The loop of `rns_sx1262_interface_poll` that takes at most `budget` events. -/
def pollLoop (o : Oracle) (now_ms : ℕ) : ℕ → Status → Interface → Status × Interface
  | 0, result, s => (result, s)
  | budget + 1, result, s =>
    match o.pollEvent s.answers with
    | .error .notFound => (result, s.asked)
    | .error status => (status, pollFailed o s.asked status)
    | .ok event =>
      let s := s.asked.saw (.event event.type event.operation_token)
      let (status, s) := handlePhyEvent o s event now_ms
      let result := if status ≠ .ok then status else result
      if !s.started then (result, s) else pollLoop o now_ms budget result s

/-- The end of a poll that took events: the deadline of the operation, or the next step. -/
def pollEnd (result : Status) : Status × Interface :=
  if s.active ∧ s.operation_deadline_ms ≠ 0 ∧ now_ms ≥ s.operation_deadline_ms then
    let (cancel_status, s) := cancelActiveOperation o s
    let status := if cancel_status = .ok then .timeout else cancel_status
    (status, finishStopped o .droppedPhy cancel_status (finishFront o .droppedPhy status s))
  else if s.started then
    let (status, s) := advanceScheduler o s now_ms
    (if status ≠ .ok then status else result, s)
  else (result, s)

/-- `rns_sx1262_interface_poll`. -/
def poll (budget : ℕ) : Status × Interface :=
  if !s.started then (.invalidState, s)
  else if s.in_poll then (.invalidState, s)
  else
    let (now_ms, s) := currentTime o { s with in_poll := true }
    let (result, s) :=
      if budget = 0 then advanceScheduler o s now_ms
      else
        let s := { s with reassembler := s.reassembler.expire now_ms }
        let (result, s) := pollLoop o now_ms budget .ok s
        pollEnd o s now_ms result
    (result, { s with
      stats.transmitting := s.state = .txFrame1 || s.state = .txFrame2
      stats.rolling_airtime_us := rollingAirtime s.duty now_ms
      in_poll := false })

/-- `rns_sx1262_interface_start`. -/
def start : Status × Interface :=
  if s.started then (.invalidState, s)
  else
    let (status, s) := phyStart o s
    if status ≠ .ok then (status, s.setError status)
    else
      (.ok, { s.asked with
        last_now_ms := (o.clock s.answers).toNat
        started := true
        stats.online := true })

end

end Interface

/-! ## Runs -/

/-- A call on the interface. -/
inductive Call
  | start
  | send (packet : List UInt8)
  | poll (budget : ℕ)
  | getStats
  | stop

/-- The interface after a call. -/
def step (o : Oracle) (s : Interface) : Call → Interface
  | .start => (Interface.start o s).2
  | .send packet => (Interface.send o s packet).2
  | .poll budget => (Interface.poll o s budget).2
  | .getStats => (Interface.getStats o s).2
  | .stop => (Interface.stop o s).2

end Reticulum.Radio
