import Reticulum.Radio.Invariant
import Reticulum.Radio.Track

/-!
# The scheduler keeps its invariant

One lemma for each function of the scheduler: the invariant holds after it, and it is a list of
moves (`Reaches`). What reads the clock, draws entropy or keeps statistics is `Quiet`: it leaves the
core alone. A callback keeps whatever queueing, reading the statistics and stopping keep
(`react_keeps`), so the recursion through callbacks is dealt with once, in `drain_spec`: a stopped
interface accepts no packets, and with a bound at least as large as its queue the loop ends with the
queue empty.
-/

namespace Reticulum.Radio

open List Nat

variable {config : SchedulerConfig} {now : Option ℕ} {o : Oracle} {passed : List UInt8 → Prop}
  {s : Interface}

/-- The clock is not behind the time of the reservations. -/
def Timed (now : Option ℕ) (s : Interface) : Prop := ∀ n, now = some n → n ≤ s.last_now_ms

/-- The invariant of an interface. -/
structure Inv (config : SchedulerConfig) (now : Option ℕ) (s : Interface) : Prop where
  good : Good config now s.core
  clock : Timed now s

/-- The invariant holds in the second interface, which is reached from the first by moves. -/
structure Reaches (config : SchedulerConfig) (now : Option ℕ) (o : Oracle)
    (passed : List UInt8 → Prop) (s s' : Interface) : Prop where
  inv : Inv config now s'
  steps : Steps o passed s s'

/-! ## What leaves the core alone -/

/-- The core is the same, the clock has not gone back, and only moves were made. -/
structure Quiet (o : Oracle) (passed : List UInt8 → Prop) (s s' : Interface) : Prop where
  core_eq : s'.core = s.core
  later : s.last_now_ms ≤ s'.last_now_ms
  steps : Steps o passed s s'

section Quiet

variable {s' s'' : Interface}

/-- Nothing happened. -/
theorem Quiet.refl (s : Interface) : Quiet o passed s s := ⟨rfl, le_rfl, .refl s⟩

/-- One quiet part after another. -/
theorem Quiet.trans (h : Quiet o passed s s') (h' : Quiet o passed s' s'') : Quiet o passed s s'' :=
  ⟨h'.core_eq.trans h.core_eq, h.later.trans h'.later, h.steps.trans h'.steps⟩

/-- What is neither in the core nor in the track may change. -/
theorem Quiet.same (hcore : s'.core = s.core) (htrack : s'.track = s.track) : Quiet o passed s s' :=
  ⟨hcore, (congrArg Track.last_now_ms htrack).ge, .of_eq htrack⟩

/-- The queue is the same. -/
theorem Quiet.queue_eq (h : Quiet o passed s s') : s'.queue = s.queue :=
  congrArg Core.queue h.core_eq

/-- The interface is as started as before. -/
theorem Quiet.started_eq (h : Quiet o passed s s') : s'.started = s.started :=
  congrArg Core.started h.core_eq

/-- A state with the invariant reaches itself. -/
theorem Inv.refl (h : Inv config now s) : Reaches config now o passed s s := ⟨h, .refl s⟩

/-- A quiet part keeps the invariant. -/
theorem Inv.quiet (h : Inv config now s) (hq : Quiet o passed s s') :
    Reaches config now o passed s s' :=
  ⟨⟨hq.core_eq ▸ h.good, fun n hn => (h.clock n hn).trans hq.later⟩, hq.steps⟩

/-- What was seen before a part. -/
theorem Steps.reaches (h : Steps o passed s s') (h' : Reaches config now o passed s' s'') :
    Reaches config now o passed s s'' :=
  ⟨h'.inv, h.trans h'.steps⟩

/-- One part of a call after another. -/
theorem Reaches.trans (h : Reaches config now o passed s s')
    (h' : Inv config now s' → Reaches config now o passed s' s'') :
    Reaches config now o passed s s'' :=
  h.steps.reaches (h' h.inv)

/-- A quiet end of a call. -/
theorem Reaches.quiet (h : Reaches config now o passed s s') (hq : Quiet o passed s' s'') :
    Reaches config now o passed s s'' :=
  h.trans fun hinv => hinv.quiet hq

end Quiet

namespace Interface

/-- A question to the surroundings is quiet. -/
theorem asked_quiet (s : Interface) : Quiet o passed s s.asked := ⟨rfl, le_rfl, s.asked_steps⟩

/-- The clock of the scheduler does not go back. -/
theorem currentTime_spec (o : Oracle) (s : Interface) : Quiet o passed s (currentTime o s).2 ∧
      (currentTime o s).1 = (currentTime o s).2.last_now_ms := by
  have hsteps : Steps o passed s (currentTime o s).2 :=
    .single (.read (currentTime_track o s).2) (currentTime_track o s).1
  unfold currentTime at hsteps ⊢
  dsimp only at hsteps ⊢
  split_ifs at hsteps ⊢ with h
  · exact ⟨⟨rfl, le_rfl, hsteps⟩, rfl⟩
  · exact ⟨⟨rfl, not_lt.1 h, hsteps⟩, rfl⟩

/-- Entropy is drawn quietly. -/
theorem randomAttempts_quiet (range limit attempts : ℕ) (s : Interface) :
    Quiet o passed s (randomAttempts o range limit attempts s).2 := by
  induction attempts generalizing s with
  | zero => exact .refl s
  | succ attempts ih =>
    unfold randomAttempts
    split
    · exact s.asked_quiet
    · split_ifs
      · exact s.asked_quiet
      · exact s.asked_quiet.trans (ih s.asked)

/-- So is a delay. -/
theorem randomDelay_quiet (s : Interface) (maximum_ms : UInt32) :
    Quiet o passed s (randomDelay o s maximum_ms).2 := by
  unfold randomDelay
  split_ifs
  · exact .refl s
  · exact randomAttempts_quiet ..

/-- The sequences whose time is over are free again, and the one that is chosen is free. -/
theorem chooseLoop_quiet {now_ms : ℕ} (sequences : List UInt8) (s : Interface)
    (hnow : now_ms ≤ s.last_now_ms) :
    let r := chooseLoop now_ms sequences s
    Quiet o passed s r.2 ∧
      ∀ sequence, r.1 = some sequence →
        r.2.sequence_blocked_until_ms sequence = none ∧
        r.2.splitSequenceInQueue sequence = false := by
  induction sequences generalizing s with
  | nil => exact ⟨.refl s, nofun⟩
  | cons sequence rest ih =>
    cases hblocked : s.sequence_blocked_until_ms sequence with
    | none =>
      simp only [chooseLoop, hblocked]
      split_ifs with hqueue
      · exact ih s hnow
      · refine ⟨.refl s, fun chosen hchosen => ?_⟩
        cases hchosen
        exact ⟨hblocked, Bool.of_not_eq_true hqueue⟩
    | some deadline =>
      simp only [chooseLoop, hblocked]
      by_cases hover : deadline ≠ uint64Max ∧ now_ms ≥ deadline
      · rw [if_pos hover]
        -- The sequence is unblocked before the queue is searched for it.
        generalize hfreed : Function.update s.sequence_blocked_until_ms sequence none = freed
        generalize ht : ({ s with sequence_blocked_until_ms := freed } : Interface) = t
        have hunblocked : Quiet o passed s t := by
          subst ht
          exact ⟨rfl, le_rfl, .single (.unblock hblocked hover.1 (hover.2.trans hnow))
            (by rw [← hfreed]; rfl)⟩
        split_ifs with hqueue
        · obtain ⟨hquiet, hfree⟩ := ih t (hnow.trans hunblocked.later)
          exact ⟨hunblocked.trans hquiet, hfree⟩
        · refine ⟨hunblocked, fun chosen hchosen => ?_⟩
          cases hchosen
          refine ⟨?_, Bool.of_not_eq_true hqueue⟩
          rw [← ht, ← hfreed]
          exact Function.update_self ..
      · rw [if_neg hover]
        exact ih s hnow

/-- The statistics are read quietly. -/
theorem getStats_quiet (s : Interface) : Quiet o passed s (getStats o s).2 := by
  unfold getStats
  split_ifs
  · exact (currentTime_spec o s).1
  · exact .refl s

/-! ## Queueing -/

/-- The airtime of a packet is that of its frames. -/
theorem framesAirtime_ok {frames : List (List UInt8)} {total airtime_us : ℕ}
    (h : framesAirtime config frames total = .ok airtime_us) :
    airtime_us = total + (frames.map (frameAirtime config)).sum := by
  induction frames generalizing total with
  | nil =>
    rw [framesAirtime, Except.ok.injEq] at h
    rw [← h, map_nil, sum_nil, add_zero]
  | cons frame frames ih =>
    rw [framesAirtime] at h
    cases hframe : airtimeUs config frame.length with
    | error status => simp [hframe] at h
    | ok airtime =>
      simp only [hframe] at h
      split_ifs at h
      rw [ih h, map_cons, sum_cons, frameAirtime, hframe, add_assoc]

/-- A packet that is queued keeps the invariant. -/
theorem enqueue_inv (h : Inv config now s)
    {frames : List (List UInt8)} {airtime_us : ℕ} (packet_length : ℕ) (sequence : UInt8)
    (hcount : frames.length = 1 ∨ frames.length = 2)
    (hframe : ∀ f ∈ frames, 0 < f.length ∧ f.length ≤ phyMtu)
    (hair : framesAirtime config frames 0 = .ok airtime_us)
    (hroom : s.queue.length < packetQueueCapacity) :
    Inv config now (s.enqueue frames airtime_us packet_length sequence) := by
  have hok : PacketOk config ⟨frames, airtime_us, packet_length, nextNumber s.next_packet_id,
      sequence, 0⟩ :=
    ⟨hcount, hframe, (framesAirtime_ok hair).trans (zero_add _)⟩
  refine ⟨?_, h.clock⟩
  have hbase := h.good.toBase.push hok hroom
  refine { hbase with
    idle := fun hempty => absurd hempty (append_ne_nil_of_right_ne_nil _ (by simp))
    stopped := h.good.stopped
    operation_eq := fun hs => (outstanding_concat _ _).trans (h.good.operation_eq hs)
    progress := h.good.progress.later rfl rfl ?_ (sinceResult_concat s.log _) rfl }
  intro p rest hqueue
  exact ⟨_, congrArg (· ++ [_]) hqueue⟩

/-- What `send` does after the sequence is chosen. -/
theorem sendWith_reaches (h : Inv config now s) {packet : List UInt8} (hpassed : passed packet)
    {sequence : UInt8} (hroom : s.queue.length < packetQueueCapacity)
    (hfree : framePayloadMtu < packet.length → s.sequence_blocked_until_ms sequence = none ∧
      s.splitSequenceInQueue sequence = false) :
    Reaches config now o passed s (s.sendWith packet sequence).2 := by
  have hconfig : s.config = config := h.good.config_eq
  unfold sendWith
  cases hencode : frameEncode packet sequence with
  | error status => exact h.refl
  | ok frames =>
    dsimp only
    cases hair : framesAirtime s.config frames 0 with
    | error status => exact h.refl
    | ok airtime_us =>
      dsimp only
      split_ifs
      · exact h.quiet (.same rfl rfl)
      obtain ⟨hcount, hframe⟩ := frameEncode_ok hencode
      refine ⟨enqueue_inv h _ _ hcount hframe (hconfig ▸ hair) hroom, ?_⟩
      refine .single (.push (nextNumber s.next_packet_id) hpassed hencode fun htwo => ?_) ?_
      · have hlong : framePayloadMtu < packet.length := by
          by_contra hshort
          have hone : frames.length = 1 := by
            unfold frameEncode at hencode
            split_ifs at hencode with hbad hle
            · cases hencode
              rfl
            · exact absurd (not_lt.1 hshort) hle
          omega
        refine ⟨(hfree hlong).1, fun p hp htwo heq => ?_⟩
        obtain ⟨packet, hpacket, rfl⟩ := mem_map.1 hp
        have hnone := (hfree hlong).2
        unfold splitSequenceInQueue at hnone
        rw [any_eq_false] at hnone
        exact hnone packet hpacket (by simpa using ⟨htwo, heq⟩)
      · simp [enqueue, track, saw, Track.see]

/-- What `rns_sx1262_interface_send` does. -/
theorem send_reaches (h : Inv config now s) {packet : List UInt8} (hpassed : passed packet) :
    Reaches config now o passed s (send o s packet).2 := by
  have hle : s.queue.length ≤ packetQueueCapacity := h.good.length_le
  obtain ⟨hread, htime⟩ : Quiet o passed s.asked (currentTime o s.asked).2 ∧ _ :=
    currentTime_spec o s.asked
  have hq := s.asked_quiet.trans hread
  unfold send
  split
  · exact h.refl
  split
  · exact h.refl
  split
  · exact h.quiet (.same rfl rfl)
  rename_i hfull
  cases o.entropy s.answers with
  | error status => exact (h.quiet s.asked_quiet).quiet (.same rfl rfl)
  | ok entropy =>
    dsimp only
    split_ifs with hlong
    · -- A packet of two frames: the choice of its sequence is quiet.
      unfold chooseSplitSequence
      obtain ⟨hchosen, hfree⟩ : Quiet o passed (currentTime o s.asked).2 _ ∧ _ :=
        chooseLoop_quiet _ _ htime.le
      generalize chooseLoop _ _ _ = chosen at hchosen hfree ⊢
      obtain ⟨_ | sequence, t⟩ := chosen
      · exact (h.quiet (hq.trans hchosen)).quiet (.same rfl rfl)
      · refine (h.quiet (hq.trans hchosen)).trans fun hinv =>
          sendWith_reaches hinv hpassed ?_ fun _ => hfree sequence rfl
        rw [(hq.trans hchosen).queue_eq]
        exact lt_of_le_of_ne hle hfull
    · refine (h.quiet hq).trans fun hinv =>
        sendWith_reaches hinv hpassed ?_ fun hlong' => absurd hlong' hlong
      rw [hq.queue_eq]
      exact lt_of_le_of_ne hle hfull

/-- A stopped interface takes no packets. -/
theorem send_of_stopped (hstopped : s.started = false) (packet : List UInt8) :
    (send o s packet).2 = s := by
  unfold send
  by_cases hlength : packet.length = 0 ∨ packet.length > packetMtu
  · rw [if_pos hlength]
  · rw [if_neg hlength, if_pos (by rw [hstopped]; rfl)]

/-! ## Finishing packets -/

/-- The front packet out of the queue. -/
theorem core_popFront (p : QueuedPacket) (rest : List QueuedPacket) (outcome : PacketOutcome)
    (status : Status) : (s.popFront p rest outcome status).core =
      { s.core with
        queue := rest
        state := .idle
        token := 0
        finished := s.core.finished + 1 } := by
  unfold popFront core
  split_ifs <;> simp only [Core.mk.injEq, true_and, and_true] <;> omega

variable {rest : List QueuedPacket} {outcome : PacketOutcome} {status : Status}
  {type : PhyEventType}

/-- When the front packet is out of the queue and its result is told, the invariant holds, before
the callback runs. -/
theorem finished_inv (h : Settled config now s.core) (hclock : Timed now s) {p : QueuedPacket}
    (hqueue : s.queue = p :: rest)
    (hsent : outcome = .sent → Delivered p.frames (sinceResult s.log)) {s' : Interface}
    (hcore : s'.core = (s.popFront p rest outcome status).core)
    (hlater : s.last_now_ms ≤ s'.last_now_ms) :
    Inv config now (s'.saw (.result p.id outcome status)) := by
  refine ⟨?_, fun n hn => (hclock n hn).trans hlater⟩
  change Good config now { s'.core with log := s'.core.log ++ [.result p.id outcome status] }
  rw [hcore, core_popFront]
  exact { h.toBase.pop hqueue hsent .idle 0 with
    idle := fun _ => rfl
    stopped := fun _ => rfl
    operation_eq := fun hstarted => (outstanding_concat _ _).trans (h.outstanding_eq hstarted)
    progress := congrArg (transmittedUs config) (sinceResult_concat s.log _) }

/-- A stopped interface whose packets are still to be finished. -/
structure Halting (config : SchedulerConfig) (now : Option ℕ) (s : Interface) : Prop where
  base : Base config now s.core
  clock : Timed now s
  stopped : s.started = false
  empty : s.queue = [] → Good config now s.core

/-- A stopped interface without packets. -/
structure Stopped (config : SchedulerConfig) (now : Option ℕ) (s : Interface) : Prop extends
    Inv config now s where
  stopped : s.started = false
  empty : s.queue = []

/-- Stopping the radio. -/
theorem phyStop_halting (h : Inv config now s) : Halting config now (phyStop o s).2.offline := by
  have hbase : Base config now { s.core with log := s.log ++ [.phyStop (o.phy s.answers)] } :=
    h.good.toBase.saw (x := .phyStop _) trivial trivial
  have hhalted := hbase.control s.state s.expected_operation_token false
  refine ⟨hhalted, h.clock, rfl, fun hempty => ?_⟩
  exact { hhalted with
    idle := h.good.idle
    stopped := fun _ => h.good.idle hempty
    operation_eq := Bool.noConfusion
    progress := h.good.progress.later rfl rfl (fun _ rest hq => ⟨rest, hq⟩)
      (sinceResult_concat s.log _) rfl }

/-- What the actions of a callback keep. -/
structure Keeps (o : Oracle) (passed : List UInt8 → Prop) (stop : Interface → Interface)
    (J : Interface → Prop) : Prop where
  quiet : ∀ s s', Quiet o passed s s' → J s → J s'
  send : ∀ s packet, passed packet → J s →
    J (send o s packet).2 ∧ Steps o passed s (send o s packet).2
  stop : ∀ s, J s → J (stop s) ∧ Steps o passed s (stop s)

section Callbacks

variable (hreaction : ∀ question packet, Action.send packet ∈ o.reaction question → passed packet)
include hreaction

section

variable {J : Interface → Prop} {stop : Interface → Interface} (hkeeps : Keeps o passed stop J)
include hkeeps

/-- A callback keeps what queueing, reading the statistics and stopping keep. -/
theorem react_keeps (h : J s) : J (react o stop s) ∧ Steps o passed s (react o stop s) := by
  have hpassed := hreaction s.answers
  suffices hall : ∀ t, J t → J ((o.reaction s.answers).foldl (perform o stop) t) ∧
      Steps o passed t ((o.reaction s.answers).foldl (perform o stop) t) by
    obtain ⟨hJ, hsteps⟩ := hall s.asked (hkeeps.quiet _ _ s.asked_quiet h)
    exact ⟨hJ, s.asked_steps.trans hsteps⟩
  generalize o.reaction s.answers = actions at hpassed ⊢
  induction actions with
  | nil => exact fun t ht => ⟨ht, .refl t⟩
  | cons action actions ih =>
    intro t ht
    have hperform : J (perform o stop t action) ∧ Steps o passed t (perform o stop t action) := by
      cases action with
      | send packet => exact hkeeps.send t packet (hpassed packet mem_cons_self) ht
      | stop => exact hkeeps.stop t ht
      | getStats => exact ⟨hkeeps.quiet _ _ t.getStats_quiet ht, t.getStats_quiet.steps⟩
    obtain ⟨hJ, hsteps⟩ := ih (fun packet hmem => hpassed packet (mem_cons_of_mem _ hmem))
      _ hperform.1
    exact ⟨hJ, hperform.2.trans hsteps⟩

/-- `finish_front` keeps in its callback what holds when the callback starts. -/
theorem finishFrontWith_keeps {p : QueuedPacket} (hqueue : s.queue = p :: rest)
    (hsent : outcome = .sent → framesOut s.state = 1 ∧ p.frames.length = 1 ∨ framesOut s.state = 2)
    (h : ∀ s' : Interface, s'.core = (s.popFront p rest outcome status).core →
      s.last_now_ms ≤ s'.last_now_ms → J (s'.saw (.result p.id outcome status))) :
    let r := finishFrontWith o stop outcome status s
    J r ∧
      Steps o passed s r := by
  simp only [finishFrontWith, hqueue]
  have hpop := track_popFront (s := s) p rest outcome status
  obtain ⟨htrack, hreads⟩ := currentTime_track o (s.popFront p rest outcome status)
  have hread : Quiet o passed _ (currentTime o (s.popFront p rest outcome status)).2 :=
    (currentTime_spec o _).1
  generalize currentTime o (s.popFront p rest outcome status) = read at htrack hreads hread ⊢
  obtain ⟨now_ms, t⟩ := read
  rw [hpop] at htrack hreads
  have hblocked : (t.blockSequence p now_ms).core = t.core ∧
      (t.blockSequence p now_ms).last_now_ms = t.last_now_ms := by
    unfold blockSequence
    split_ifs <;> exact ⟨rfl, rfl⟩
  have hlater : s.last_now_ms ≤ t.last_now_ms :=
    (congrArg Track.last_now_ms hpop).symm.le.trans hread.later
  obtain ⟨hJ, hsteps⟩ := react_keeps hreaction hkeeps
    (h _ (hblocked.1.trans hread.core_eq) (hlater.trans hblocked.2.ge))
  refine ⟨hJ, .trans ?_ hsteps⟩
  refine .single (.pop p.id outcome status (track_queue hqueue) hreads hsent) ?_
  have hsaw : ((t.blockSequence p now_ms).saw (.result p.id outcome status)).track =
      (t.blockSequence p now_ms).track.see (.result p.id outcome status) := rfl
  rw [hsaw, track_blockSequence, htrack]
  rfl

end

omit hreaction in
/-- `stop` empties the queue if the loop it runs does. -/
theorem stopWith_spec {n : ℕ}
    (hdrain : ∀ s outcome status, outcome ≠ PacketOutcome.sent → Halting config now s →
      s.queue.length ≤ n → let t := drain o n outcome status s
      Stopped config now t ∧ Steps o passed s t)
    (h : Inv config now s) (hlength : s.queue.length ≤ n) :
    let t := (stopWith o (drain o n) s).2
    Stopped config now t ∧ Steps o passed s t := by
  have hend : ∀ t status, Stopped config now t ∧ Steps o passed s t →
      let t' := { t with reassembler := t.reassembler.reset }
      let final := if status ≠ .ok then setError t' status else t'
      Stopped config now final ∧ Steps o passed s final := by
    rintro t status ⟨ht, hsteps⟩
    dsimp only
    split_ifs
    all_goals exact ⟨⟨⟨ht.good, ht.clock⟩, ht.stopped, ht.empty⟩, hsteps.trans (.of_eq rfl)⟩
  unfold stopWith
  split_ifs with hstarted
  · have hstopped : Steps o passed s (phyStop o s).2 :=
      s.asked_steps.trans (s.asked.saw_steps trivial)
    have hoffline : Steps o passed (phyStop o s).2 (phyStop o s).2.offline := .of_eq rfl
    obtain ⟨hdrained, hsteps⟩ :=
      hdrain _ .droppedStopped _ (by decide) (phyStop_halting h) hlength
    exact hend _ _ ⟨hdrained, (hstopped.trans hoffline).trans hsteps⟩
  · have hcore : s.offline.core = s.core := by simp only [core, offline, hstarted]
    have hhalting : Halting config now s.offline :=
      ⟨hcore ▸ h.good.toBase, h.clock, rfl, fun _ => hcore ▸ h.good⟩
    have hoffline : Steps o passed s s.offline := .of_eq rfl
    obtain ⟨hdrained, hsteps⟩ :=
      hdrain _ .droppedStopped .invalidState (by decide) hhalting hlength
    exact hend _ .ok ⟨hdrained, hoffline.trans hsteps⟩

/-- A bound that is at least the length of the queue is enough: the loop that finishes the packets
of a stopped interface ends with none left, whatever its callbacks do. -/
theorem drain_spec (n : ℕ) (s : Interface) (outcome : PacketOutcome) (status : Status)
    (hsent : outcome ≠ .sent) (h : Halting config now s) (hlength : s.queue.length ≤ n) :
    let t := drain o n outcome status s
    Stopped config now t ∧ Steps o passed s t := by
  induction n generalizing s outcome status with
  | zero =>
    have hempty : s.queue = [] := length_eq_zero_iff.1 (le_zero.1 hlength)
    exact ⟨⟨⟨h.empty hempty, h.clock⟩, h.stopped, hempty⟩, .refl s⟩
  | succ n ih =>
    unfold drain
    split_ifs with hempty
    · exact ⟨⟨⟨h.empty hempty, h.clock⟩, h.stopped, hempty⟩, .refl s⟩
    obtain ⟨p, rest, hqueue⟩ := exists_cons_of_ne_nil hempty
    rw [hqueue, length_cons, add_le_add_iff_right] at hlength
    have hpop := core_popFront (s := s) p rest outcome status
    -- What the callback keeps: stopped, and at most `n` packets left.
    let J (t : Interface) : Prop := Inv config now t ∧ t.started = false ∧ t.queue.length ≤ n
    have hkeeps : Keeps o passed (fun t => (stopWith o (drain o n) t).2) J := by
      refine ⟨?_, ?_, ?_⟩
      · rintro t t' hq ⟨hinv, hstopped, hle⟩
        exact ⟨(hinv.quiet hq).inv, hq.started_eq.trans hstopped, hq.queue_eq ▸ hle⟩
      · rintro t packet - ht
        rw [send_of_stopped ht.2.1]
        exact ⟨ht, .refl t⟩
      · rintro t ⟨hinv, -, hle⟩
        obtain ⟨hstopped, hsteps⟩ := stopWith_spec ih hinv hle
        exact ⟨⟨hstopped.toInv, hstopped.stopped, hstopped.empty ▸ zero_le n⟩, hsteps⟩
    have hfinished : ∀ s' : Interface, s'.core = (s.popFront p rest outcome status).core →
        s.last_now_ms ≤ s'.last_now_ms → J (s'.saw (.result p.id outcome status)) := by
      intro s' hcore hlater
      have hcore' := hcore.trans hpop
      refine ⟨finished_inv ⟨h.base, fun hstarted => ?_⟩ h.clock hqueue
        (fun heq => absurd heq hsent) hcore hlater, ?_, ?_⟩
      · exact absurd (h.stopped.symm.trans hstarted) Bool.false_ne_true
      · exact (congrArg Core.started hcore').trans h.stopped
      · exact (congrArg (fun c => c.queue.length) hcore').trans_le hlength
    obtain ⟨⟨hinv, hstopped, hle⟩, hsteps⟩ := finishFrontWith_keeps hreaction hkeeps hqueue
      (fun heq => absurd heq hsent) hfinished
    obtain ⟨hdrained, hrest⟩ := ih _ outcome status hsent
      ⟨hinv.good.toBase, hinv.clock, hstopped, fun _ => hinv.good⟩ hle
    exact ⟨hdrained, hsteps.trans hrest⟩

/-- `stop` leaves no packet without a result. -/
theorem stop_spec (h : Inv config now s) :
    Stopped config now (stop o s).2 ∧ Steps o passed s (stop o s).2 :=
  stopWith_spec (drain_spec hreaction packetQueueCapacity) h h.good.length_le

/-- The actions of a callback keep the invariant. -/
theorem inv_keeps : Keeps o passed (fun s => (stop o s).2) (Inv config now) where
  quiet _ _ hq hs := (hs.quiet hq).inv
  send _ _ hpassed hs := ⟨(send_reaches hs hpassed).inv, (send_reaches hs hpassed).steps⟩
  stop _ hs := ⟨(stop_spec hreaction hs).1.toInv, (stop_spec hreaction hs).2⟩

/-- What keeps the invariant in a callback keeps it when the front packet is finished. -/
theorem finishFront_reaches (h : Settled config now s.core)
    (hclock : Timed now s) {p : QueuedPacket} (hqueue : s.queue = p :: rest)
    (hout : outcome = .sent → framesOut s.state = 1 ∧ p.frames.length = 1 ∨ framesOut s.state = 2)
    (hsent : outcome = .sent → Delivered p.frames (sinceResult s.log)) :
    Reaches config now o passed s (finishFront o outcome status s) := by
  obtain ⟨hinv, hsteps⟩ := finishFrontWith_keeps hreaction (inv_keeps hreaction) hqueue hout
    fun _ hcore hlater => finished_inv h hclock hqueue hsent hcore hlater
  exact ⟨hinv, hsteps⟩

/-- The front packet is dropped. -/
theorem drop_reaches (h : Settled config now s.core)
    (hclock : Timed now s) (hqueue : s.core.queue ≠ [])
    (hsent : outcome ≠ .sent) : Reaches config now o passed s (finishFront o outcome status s) := by
  obtain ⟨p, rest, hcons⟩ := exists_cons_of_ne_nil hqueue
  exact finishFront_reaches hreaction h hclock hcons (fun heq => absurd heq hsent)
    fun heq => absurd heq hsent

/-- The packets that a stop finishes. -/
theorem finishStopped_reaches (h : Inv config now s) (hsent : outcome ≠ .sent) :
    Reaches config now o passed s (finishStopped o outcome status s) := by
  unfold finishStopped
  split_ifs with hstarted
  · exact h.refl
  · obtain ⟨hstopped, hsteps⟩ := drain_spec hreaction packetQueueCapacity s outcome status hsent
      ⟨h.good.toBase, h.clock, Bool.of_not_eq_true hstarted, fun _ => h.good⟩ h.good.length_le
    exact ⟨hstopped.toInv, hsteps⟩

omit hreaction

/-- The operation of an active scheduler is the one with its token. -/
theorem operation_of_active (hactive : s.active = true) :
    s.core.operation = some (.cad s.expected_operation_token) ∨
      s.core.operation = some (.tx s.expected_operation_token) := by
  simp only [active, Bool.or_eq_true, decide_eq_true_eq] at hactive
  unfold Core.operation core
  rcases hactive with (hs | hs) | hs <;> rw [hs]
  · exact .inl rfl
  all_goals exact .inr rfl

/-- With an operation under way the scheduler is not idle. -/
theorem state_of_active (hactive : s.active = true) : s.core.state ≠ .idle := by
  intro hidle
  have hbusy := operation_of_active hactive
  rw [Core.operation, hidle] at hbusy
  rcases hbusy with hb | hb <;> cases hb

/-- A radio that was stopped and started again is free. -/
theorem recover_spec (h : Base config now s.core) :
    let r := recover o s
    Base config now r.2.core ∧
      (r.1 = .ok → outstanding r.2.log = none) ∧
      r.2.queue = s.queue ∧ r.2.last_now_ms = s.last_now_ms ∧
      Steps o passed s r.2 := by
  have hstop : Base config now (phyStop o s).2.core := h.saw (x := .phyStop _) trivial trivial
  have hsteps : Steps o passed s (phyStop o s).2 := s.asked_steps.trans (s.asked.saw_steps trivial)
  unfold recover
  dsimp only
  split_ifs with hstopped
  · have hstart : Base config now (phyStart o (phyStop o s).2).2.core :=
      hstop.saw (x := .phyStart _) trivial trivial
    refine ⟨hstart, fun hok => ?_, rfl, rfl,
      (hsteps.trans (asked_steps _)).trans (saw_steps _ trivial)⟩
    exact (outstanding_concat _ _).trans ((nextOutstanding_phyStart _ _).trans (if_pos hok))
  · exact ⟨hstop, fun hok => absurd hok hstopped, rfl, rfl, hsteps⟩

/-- A cancelled operation is over, or the interface is stopped. -/
theorem cancelActiveOperation_spec (h : Inv config now s) (hactive : s.active = true) :
    let r := cancelActiveOperation o s
    Settled config now r.2.core ∧
      r.2.queue = s.queue ∧
      r.2.last_now_ms = s.last_now_ms ∧
      Steps o passed s r.2 := by
  have hstarted := (h.good.busy (state_of_active hactive)).2
  have hcancel : Base config now (s.asked.saw
      (.cancelOperation s.expected_operation_token (o.phy s.answers))).core :=
    h.good.toBase.saw (x := .cancelOperation _ _) trivial trivial
  have hsteps : Steps o passed s
      (s.asked.saw (.cancelOperation s.expected_operation_token (o.phy s.answers))) :=
    s.asked_steps.trans (s.asked.saw_steps trivial)
  obtain ⟨hbase, hfree, hqueue, htime, hrecover⟩ := @recover_spec config now o passed _ hcancel
  unfold cancelActiveOperation
  dsimp only
  split_ifs with hfailed hrecovery
  · exact ⟨⟨hbase.control _ _ false, Bool.noConfusion⟩, hqueue, htime,
      (hsteps.trans hrecover).trans (.of_eq rfl)⟩
  · exact ⟨⟨hbase, fun _ => hfree (not_not.1 hrecovery)⟩, hqueue, htime, hsteps.trans hrecover⟩
  · refine ⟨⟨hcancel, fun _ => ?_⟩, rfl, rfl, hsteps⟩
    change outstanding (s.core.log ++ [.cancelOperation _ _]) = none
    rw [outstanding_concat, not_not.1 hfailed, h.good.operation_eq hstarted]
    exact if_pos (operation_of_active hactive)

/-! ## Sending a packet -/

/-- The front packet waits for its first frame. -/
structure Pending (config : SchedulerConfig) (now : Option ℕ) (s : Interface) : Prop where
  waiting : Waiting config now s.core
  clock : Timed now s
  out : framesOut s.state = 0

/-- A quiet part leaves the front packet waiting. -/
theorem Pending.quiet {s' : Interface} (h : Pending config now s) (hq : Quiet o passed s s') :
    Pending config now s' :=
  ⟨hq.core_eq ▸ h.waiting, fun n hn => (h.clock n hn).trans hq.later,
    (congrArg (fun c => framesOut c.state) hq.core_eq).trans h.out⟩

include hreaction

/-- A packet that waits is dropped. -/
theorem Pending.drop_reaches {s' : Interface} (h : Pending config now s) (hq : Quiet o passed s s')
    (hsent : outcome ≠ .sent) : Reaches config now o passed s (finishFront o outcome status s') :=
  hq.steps.reaches (Interface.drop_reaches hreaction (h.quiet hq).waiting.settled (h.quiet hq).clock
    (h.quiet hq).waiting.nonempty hsent)

/-- A call of the radio that is refused drops the front packet. -/
theorem radioCall_reaches {t t' : Interface} {c : Core} (hclock : Timed now s)
    (htime : t.last_now_ms = s.last_now_ms) (hcore : t.core = c) (hqueue : c.queue ≠ [])
    (hrefused : status ≠ .ok → Settled config now c ∧ Steps o passed s t)
    (htime' : t'.last_now_ms = t.last_now_ms)
    (htaken : status = .ok → Good config now t'.core ∧ Steps o passed s t') :
    Reaches config now o passed s (if status ≠ .ok then (status, finishFront o .droppedPhy status t)
      else (Status.ok, t')).2 := by
  subst hcore
  have hclock : Timed now t := fun n hn => htime ▸ hclock n hn
  split_ifs with hstatus
  · obtain ⟨hsettled, hsteps⟩ := hrefused hstatus
    exact hsteps.reaches (drop_reaches hreaction hsettled hclock hqueue (by decide))
  · obtain ⟨hgood, hsteps⟩ := htaken (not_not.1 hstatus)
    exact ⟨⟨hgood, fun n hn => htime' ▸ hclock n hn⟩, hsteps⟩

/-- The front packet draws a delay, or is dropped. -/
theorem contend_reaches {s' : Interface} (h : Pending config now s) (hq : Quiet o passed s s')
    (now_ms : ℕ) (maximum_ms : UInt32) :
    Reaches config now o passed s (contend o s' now_ms maximum_ms).2 := by
  have hdrawn : Quiet o passed s (randomDelay o s' maximum_ms).2 :=
    hq.trans (s'.randomDelay_quiet maximum_ms)
  unfold contend
  generalize randomDelay o s' maximum_ms = drawn at hdrawn ⊢
  obtain ⟨result, t⟩ := drawn
  cases result with
  | error status => exact h.drop_reaches hreaction hdrawn (by decide)
  | ok delay_ms =>
    have ht := h.quiet hdrawn
    refine ⟨⟨ht.waiting.good (.inr rfl), ht.clock⟩, hdrawn.steps.trans (.of_eq ?_)⟩
    simp only [track, setState, ht.out]
    rfl

/-- The radio takes the first frame of the front packet, or the packet waits or is dropped. -/
theorem beginFirstFrame_reaches (hpending : Pending config now s) {now_ms : ℕ}
    (hnow : ∀ n, now = some n → n = now_ms) :
    Reaches config now o passed s (beginFirstFrame o s now_ms).2 := by
  obtain ⟨h, hclock, hout⟩ := hpending
  obtain ⟨p, rest, hqueue⟩ := exists_cons_of_ne_nil h.nonempty
  have hconfig : s.config = config := h.config_eq
  have hp : PacketOk config p := h.packets p (hqueue ▸ mem_cons_self)
  have hpos : 0 < p.frames.length := by rcases hp.count with hc | hc <;> omega
  obtain ⟨airtime, hair⟩ := hp.airtimeUs_getD h.valid hpos
  unfold beginFirstFrame
  split
  · exact absurd ‹s.queue = []› h.nonempty
  rename_i packet tail hfront
  obtain ⟨rfl, rfl⟩ := List.cons.inj (hfront.symm.trans hqueue)
  unfold checkDuty
  cases hroom : dutyAvailable s.config s.duty now_ms packet.airtime_us with
  | false =>
    dsimp only
    split_ifs
    all_goals
      refine ⟨⟨h.good (.inl rfl), hclock⟩, .of_eq ?_⟩
      simp only [track, setState, summed, hout]
      rfl
  | true =>
    rw [hconfig] at hroom
    dsimp only
    split
    · rename_i status herror
      exact absurd (hair.symm.trans (hconfig ▸ herror)) (by simp)
    · generalize frameDeadline _ now_ms _ = deadline
      generalize ht : (((s.summed now_ms).reserve now_ms packet.airtime_us).setDeadline
        deadline).takeToken = t
      -- The airtime is reserved before the radio is asked.
      have hreserved : Steps o passed s t :=
        .single (.see (x := .reserved now_ms packet.airtime_us) trivial) (by rw [← ht]; rfl)
      obtain ⟨hrefused, htaken⟩ := @phyTransmit_steps o passed t packet tail (ht ▸ hqueue) 0
        (ht ▸ hout) (.inl rfl)
      obtain ⟨hcore, htime⟩ : let sent := phyTransmit o t (packet.frames.getD 0 [])
          sent.2.core = s.core.sendFirst packet now_ms (nextNumber s.next_operation_token) sent.1 ∧
          sent.2.last_now_ms = s.last_now_ms := by
        rw [← ht]
        exact ⟨rfl, rfl⟩
      generalize phyTransmit o t (packet.frames.getD 0 []) = sent at hrefused htaken hcore htime ⊢
      obtain ⟨status, u⟩ := sent
      refine radioCall_reaches hreaction hclock htime hcore h.nonempty
        (fun hstatus => ⟨(h.sendFirst_base hqueue hnow hroom).refused h.sendFirst_outstanding hstatus,
          hreserved.trans (hrefused hstatus)⟩) rfl fun hstatus => ?_
      refine ⟨?_, hreserved.trans (htaken hstatus _ rfl)⟩
      change Good config now { u.core with state := .txFrame1 }
      rw [hcore, hstatus]
      exact h.sendFirst_taken hqueue hnow hroom _

/-- The radio senses the channel for the front packet, or refuses to and the packet is dropped. -/
theorem senseChannel_reaches (hpending : Pending config now s) {packet : QueuedPacket}
    (hqueue : s.queue = packet :: rest) (now_ms : ℕ) :
    Reaches config now o passed s (senseChannel o s packet rest now_ms).2 := by
  obtain ⟨h, hclock, hout⟩ := hpending
  unfold senseChannel
  dsimp only
  generalize addSaturated now_ms s.config.cad_timeout_ms.toNat = deadline
  obtain ⟨hsteps, hcore, htime⟩ : let asked := phyStartCad o (s.takeToken.setDeadline deadline)
      Steps o passed s asked.2 ∧ asked.2.core = { s.core with
        token := nextNumber s.next_operation_token
        log := s.log ++ [.startCad (nextNumber s.next_operation_token) asked.1] } ∧
      asked.2.last_now_ms = s.last_now_ms :=
    ⟨(Steps.of_eq rfl : Steps o passed s (s.takeToken.setDeadline deadline)).trans
      ((asked_steps _).trans (saw_steps _ trivial)), rfl, rfl⟩
  generalize phyStartCad o (s.takeToken.setDeadline deadline) = asked at hsteps hcore htime ⊢
  obtain ⟨status, t⟩ := asked
  refine radioCall_reaches hreaction hclock htime hcore h.nonempty
    (fun hstatus => ⟨(h.startCad_base _ _).refused (h.startCad_outstanding _ _) hstatus,
      hsteps.trans (.of_eq rfl)⟩) rfl fun hstatus => ?_
  refine ⟨?_, hsteps.trans (.of_eq ?_)⟩
  · change Good config now { t.core with
      queue := { packet with cad_attempts := packet.cad_attempts + 1 } :: rest
      state := .cad }
    rw [hcore, hstatus]
    exact h.startCad_taken hqueue _ _
  · have hqueue' : t.queue = packet :: rest := (congrArg Core.queue hcore).trans hqueue
    have hout' : framesOut t.state = 0 := (congrArg (fun c => framesOut c.state) hcore).trans hout
    simp only [track, setState, hqueue', map_cons, hout']
    rfl

/-- The next step of a scheduler that is started. -/
theorem advanceScheduler_reaches (h : Inv config now s) (hstarted : s.started = true)
    (now_ms : ℕ) : Reaches config now o passed s (advanceScheduler o s now_ms).2 := by
  unfold advanceScheduler
  split
  · rename_i hempty
    have hidle : s.state = .idle := h.good.idle hempty
    refine h.quiet (.same ?_ ?_)
    · simp only [core, setState, hidle]
    · simp only [track, setState, hidle]
  rename_i packet rest hqueue
  have hnonempty : s.core.queue ≠ [] := fun hempty =>
    cons_ne_nil packet rest (hqueue.symm.trans hempty)
  have hwaiting := fun hstate => Pending.mk (h.good.waiting hstarted hnonempty hstate) h.clock
  split
  · -- Idle: the packet waits for airtime or contends.
    rename_i hstate
    have hpending := hwaiting (.inl hstate) (congrArg framesOut hstate)
    unfold checkDuty
    cases dutyAvailable s.config s.duty now_ms packet.airtime_us with
    | false =>
      refine ⟨⟨hpending.waiting.good (.inl rfl), h.clock⟩, .of_eq ?_⟩
      simp only [track, setState, deferred, summed, hpending.out]
      rfl
    | true =>
      refine contend_reaches hreaction hpending ?_ now_ms _
      exact .same rfl rfl
  · rename_i hstate
    have hpending := hwaiting (.inr (.inl hstate)) (congrArg framesOut hstate)
    unfold checkDuty
    cases dutyAvailable s.config s.duty now_ms packet.airtime_us with
    | false => exact h.quiet (.same rfl rfl)
    | true =>
      refine contend_reaches hreaction hpending ?_ now_ms _
      exact .same rfl rfl
  · -- The contention is over: the radio senses the channel.
    rename_i hstate
    have hpending := hwaiting (.inr (.inr hstate)) (congrArg framesOut hstate)
    split_ifs
    · exact senseChannel_reaches hreaction hpending hqueue now_ms
    · exact h.refl
  · exact h.refl

/-! ## Events -/

/-- What the application does with a packet that was received. -/
theorem receiveFrame_reaches (h : Inv config now s) (frame : List UInt8) (now_ms : ℕ) :
    Reaches config now o passed s (receiveFrame o s frame now_ms).2 := by
  have hreact : ∀ t, Quiet o passed s t →
      Reaches config now o passed s (react o (fun s => (stop o s).2) t) := by
    intro t ht
    obtain ⟨hinv, hsteps⟩ := react_keeps hreaction (inv_keeps hreaction) (h.quiet ht).inv
    exact ⟨hinv, ht.steps.trans hsteps⟩
  have hkept : ∀ (t : Interface) (r : Reassembler), Quiet o passed t { t with reassembler := r } :=
    fun t r => .same rfl rfl
  unfold receiveFrame
  split
  · exact h.quiet (.same rfl rfl)
  · dsimp only
    split_ifs
    · refine .quiet (hreact _ ?_) (hkept _ _)
      exact .same rfl rfl
    · refine hreact _ ?_
      exact .same rfl rfl

/-- A frame that was heard is received or counted. -/
theorem handleRxEvent_reaches (h : Inv config now s) (frame : List UInt8) (rssi_dbm snr_db : ℤ)
    (now_ms : ℕ) :
    Reaches config now o passed s (handleRxEvent o s frame rssi_dbm snr_db now_ms).2 := by
  unfold handleRxEvent
  split_ifs
  · exact h.quiet (.same rfl rfl)
  · have hheard : Reaches config now o passed s (s.heard rssi_dbm snr_db) := h.quiet (.same rfl rfl)
    have hreceived := hheard.trans fun hinv => receiveFrame_reaches hreaction hinv frame now_ms
    generalize receiveFrame o (s.heard rssi_dbm snr_db) frame now_ms = received at hreceived ⊢
    dsimp only
    split_ifs
    · exact hreceived.quiet (.same rfl rfl)
    · exact hreceived.quiet (.same rfl rfl)
    · exact hreceived

/-- The channel is busy: the packet contends again, or is dropped. -/
theorem handleCadBusy_reaches (h : Pending config now s) (packet : QueuedPacket) (now_ms : ℕ) :
    Reaches config now o passed s (handleCadBusy o s packet now_ms).2 := by
  unfold handleCadBusy
  dsimp only
  split_ifs
  · refine h.drop_reaches hreaction ?_ (by decide)
    exact .same rfl rfl
  · refine contend_reaches hreaction h ?_ now_ms _
    exact .same rfl rfl

/-- The first frame is out: the packet is finished, or the radio takes its second frame. -/
theorem handleFirstDone_reaches {packet : QueuedPacket} (h : FirstSent config now packet s.core)
    (hclock : Timed now s) (hstate : s.state = .txFrame1) (now_ms : ℕ) :
    Reaches config now o passed s (handleFirstDone o s packet now_ms).2 := by
  obtain ⟨rest, hqueue⟩ := h.front
  have hp : PacketOk config packet := h.packets packet (hqueue ▸ mem_cons_self)
  have hconfig : s.config = config := h.config_eq
  have hnonempty : s.core.queue ≠ [] := fun hempty =>
    cons_ne_nil packet rest (hqueue.symm.trans hempty)
  unfold handleFirstDone
  split_ifs with hone
  · refine (.of_eq rfl : Steps o passed s s.frameSent).reaches ?_
    exact finishFront_reaches (s := s.frameSent) hreaction h.settled hclock hqueue
      (fun _ => .inl ⟨congrArg framesOut hstate, hone⟩) fun _ => h.delivered hone
  have htwo := hp.count.resolve_left hone
  obtain ⟨airtime, hair⟩ := hp.airtimeUs_getD h.valid (htwo ▸ one_lt_two)
  dsimp only
  have hsteps : Steps o passed s s.frameSent.takeToken := .of_eq rfl
  obtain ⟨hrefused, htaken⟩ := @phyTransmit_steps o passed s.frameSent.takeToken packet rest hqueue
    1 (congrArg framesOut hstate) (.inr ⟨rfl, hone⟩)
  obtain ⟨hcore, htime⟩ : let sent := phyTransmit o s.frameSent.takeToken (packet.frames.getD 1 [])
      sent.2.core = s.core.sendSecond packet (nextNumber s.next_operation_token) sent.1 ∧
      sent.2.last_now_ms = s.last_now_ms := ⟨rfl, rfl⟩
  generalize phyTransmit o s.frameSent.takeToken (packet.frames.getD 1 []) = sent
    at hrefused htaken hcore htime ⊢
  obtain ⟨status, t⟩ := sent
  have hair' : airtimeUs t.config (packet.frames.getD 1 []).length = .ok airtime := by
    have htconfig : t.config = config := (congrArg Core.config hcore).trans hconfig
    rw [htconfig]
    exact hair
  rw [hair']
  refine radioCall_reaches hreaction hclock htime hcore hnonempty
    (fun hstatus => ⟨(h.sendSecond_base htwo).refused h.sendSecond_outstanding hstatus,
      hsteps.trans (hrefused hstatus)⟩) rfl fun hstatus => ⟨?_, hsteps.trans (htaken hstatus _ rfl)⟩
  change Good config now { t.core with state := .txFrame2 }
  rw [hcore, hstatus]
  exact h.sendSecond_taken htwo _

omit hreaction

/-- Without packets every event is for an earlier operation. -/
theorem stale_of_empty (h : Inv config now s) (hqueue : s.queue = []) :
    s.core.operation = none := by
  rw [Core.operation, h.good.idle hqueue]

include hreaction

/-- An event is handled: either it ends the operation under way, or it changes nothing. -/
theorem handlePhyEvent_reaches (h : Inv config now s) (event : PhyEvent) {now_ms : ℕ}
    (hnow : ∀ n, now = some n → n = now_ms) : Reaches config now o passed s (handlePhyEvent o
      (s.saw (.event event.type event.operation_token)) event now_ms).2 := by
  obtain ⟨type, token, status⟩ := event
  have hseen : Steps o passed s (s.saw (.event type token)) := s.saw_steps trivial
  have hignored : (endedBy type token = s.core.operation → s.core.operation = none) →
      Reaches config now o passed s (s.saw (.event type token)).staleEvent.2 := fun hstale =>
    ⟨⟨h.good.event_stale hstale, h.clock⟩, hseen.trans (.of_eq rfl)⟩
  unfold handlePhyEvent
  generalize hqueue : (s.saw (.event type token)).queue = queue
  generalize (if status = .ok then .io else status) = reported
  -- When the channel was sensed for the front packet, it waits again.
  have hcad : s.state = .cad ∧ token = s.expected_operation_token →
      endedBy type token = some (.cad token) →
      Pending config now (s.saw (.event type token)) := by
    rintro ⟨hstate, rfl⟩ htype
    exact ⟨h.good.cad_ended hstate htype, h.clock, congrArg framesOut hstate⟩
  cases type with
  | rxFrame frame rssi_dbm snr_db =>
    have hheard : Inv config now (s.saw (.event (.rxFrame frame rssi_dbm snr_db) token)) :=
      ⟨h.good.event_stale fun heq => heq.symm, h.clock⟩
    exact hseen.reaches (handleRxEvent_reaches hreaction hheard frame rssi_dbm snr_db now_ms)
  | cadClear =>
    cases queue with
    | nil => exact hignored fun _ => stale_of_empty h hqueue
    | cons packet rest =>
      dsimp only
      split_ifs with hmatch
      · exact hseen.reaches (beginFirstFrame_reaches hreaction (hcad hmatch rfl) hnow)
      · exact hignored fun heq => absurd (Core.operation_eq_cad heq.symm) hmatch
  | cadBusy =>
    cases queue with
    | nil => exact hignored fun _ => stale_of_empty h hqueue
    | cons packet rest =>
      dsimp only
      split_ifs with hmatch
      · exact hseen.reaches (handleCadBusy_reaches hreaction (hcad hmatch rfl) packet now_ms)
      · exact hignored fun heq => absurd (Core.operation_eq_cad heq.symm) hmatch
  | cadFailed =>
    dsimp only
    split_ifs with hmatch
    · refine hseen.reaches ((hcad hmatch rfl).drop_reaches hreaction ?_ (by decide))
      exact .same rfl rfl
    · exact hignored fun heq => absurd (Core.operation_eq_cad heq.symm) hmatch
  | txFailed =>
    dsimp only
    split_ifs with hmatch
    · obtain ⟨hstate, htoken⟩ := hmatch
      obtain rfl : token = s.expected_operation_token := htoken
      have hs : s.core.state = .txFrame1 ∨ s.core.state = .txFrame2 := hstate
      obtain ⟨hnonempty, hstarted⟩ := h.good.busy fun hidle =>
        hs.elim (fun hs => nomatch hs.symm.trans hidle) fun hs => nomatch hs.symm.trans hidle
      have hoperation : s.core.operation = some (.tx s.core.token) := by
        unfold Core.operation
        rcases hs with hs | hs <;> rw [hs]
      refine hseen.reaches (drop_reaches hreaction ?_ h.clock hnonempty (by decide))
      -- The end of the transmission under way leaves the radio free.
      exact ⟨h.good.toBase.saw (x := .event .txFailed s.core.token) trivial trivial,
        fun _ => h.good.event_ended hstarted hoperation.symm⟩
    · exact hignored fun heq => absurd (Core.operation_eq_tx heq.symm) hmatch
  | txDone =>
    cases queue with
    | nil => exact hignored fun _ => stale_of_empty h hqueue
    | cons packet rest =>
      dsimp only
      split_ifs with hfirst hsecond
      · obtain ⟨hstate, htoken⟩ := hfirst
        obtain rfl : token = s.expected_operation_token := htoken
        have hsent : FirstSent config now packet
            (s.saw (.event .txDone s.expected_operation_token)).core :=
          h.good.first_done hstate hqueue
        exact hseen.reaches (handleFirstDone_reaches hreaction hsent h.clock hstate now_ms)
      · obtain ⟨hstate, htoken⟩ := hsecond
        obtain rfl : token = s.expected_operation_token := htoken
        obtain ⟨hsettled, hdelivered⟩ := h.good.second_done hstate hqueue
        have hcounted : Steps o passed s
            (s.saw (.event .txDone s.expected_operation_token)).frameSent :=
          hseen.trans (.of_eq rfl)
        exact hcounted.reaches (finishFront_reaches hreaction hsettled h.clock hqueue
          (fun _ => .inr (congrArg framesOut hstate)) fun _ => hdelivered)
      · refine hignored fun heq => absurd (Core.operation_eq_tx heq.symm) ?_
        rintro ⟨hstate | hstate, htoken⟩
        · exact hfirst ⟨hstate, htoken⟩
        · exact hsecond ⟨hstate, htoken⟩

/-! ## Polling -/

omit hreaction

/-- A scheduler that is not active waits for no operation. -/
theorem operation_of_inactive (hactive : ¬s.active = true) : s.core.operation = none := by
  cases hoperation : s.core.operation with
  | none => rfl
  | some operation =>
    refine absurd ?_ hactive
    simp only [active, Bool.or_eq_true, decide_eq_true_eq]
    cases operation with
    | cad token => exact .inl (.inl (Core.operation_eq_cad hoperation).1)
    | tx token =>
      rcases (Core.operation_eq_tx hoperation).1 with hs | hs
      · exact .inl (.inr hs)
      · exact .inr hs

include hreaction

variable (h : Inv config now s)
include h

/-- An operation under way is cancelled and its packet is dropped. -/
theorem cancelled_reaches (hactive : s.active = true) (status' : Status) :
    Reaches config now o passed s (finishStopped o .droppedPhy status'
      (finishFront o .droppedPhy status (cancelActiveOperation o s).2)) := by
  obtain ⟨hsettled, hqueue, htime, hsteps⟩ :=
    @cancelActiveOperation_spec config now o passed s h hactive
  have hnonempty := (h.good.busy (state_of_active hactive)).1
  refine (hsteps.reaches (drop_reaches hreaction hsettled ?_ ?_ (by decide))).trans fun hinv =>
    finishStopped_reaches hreaction hinv (by decide)
  · exact fun n hn => htime ▸ h.clock n hn
  · exact fun hnil => hnonempty (hqueue.symm.trans hnil)

/-- A poll of the radio fails: the front packet is dropped. -/
theorem pollFailed_reaches (status : Status) :
    Reaches config now o passed s (pollFailed o s status) := by
  have herror : Reaches config now o passed s (s.setError status) := h.quiet (.same rfl rfl)
  unfold pollFailed
  generalize s.setError status = t at herror ⊢
  by_cases hempty : t.queue = []
  · rw [if_pos hempty]
    exact herror
  rw [if_neg hempty]
  split_ifs with hactive
  · exact herror.trans fun hinv => cancelled_reaches hreaction hinv hactive status
  · refine herror.trans fun hinv => .trans ?_ fun hdropped =>
      finishStopped_reaches hreaction hdropped (by decide)
    exact drop_reaches hreaction (hinv.good.settled (operation_of_inactive hactive)) hinv.clock
      hempty (by decide)

/-- The events of a poll are handled one after the other. -/
theorem pollLoop_reaches {now_ms : ℕ}
    (hnow : ∀ n, now = some n → n = now_ms) (budget : ℕ) (result : Status) :
    Reaches config now o passed s (pollLoop o now_ms budget result s).2 := by
  induction budget generalizing s result with
  | zero => exact h.refl
  | succ budget ih =>
    unfold pollLoop
    have hasked : Reaches config now o passed s s.asked := h.quiet s.asked_quiet
    split
    · exact hasked
    · exact hasked.trans fun hinv => pollFailed_reaches hreaction hinv _
    · rename_i event _
      have hhandled := hasked.trans fun hinv => handlePhyEvent_reaches hreaction hinv event hnow
      dsimp only
      split_ifs
      · exact hhandled
      · exact hhandled
      all_goals exact hhandled.trans fun hinv => ih hinv _

/-- The end of a poll: what is late is dropped, or the scheduler goes on. -/
theorem pollEnd_reaches (now_ms : ℕ) (result : Status) :
    Reaches config now o passed s (pollEnd o s now_ms result).2 := by
  unfold pollEnd
  split_ifs with hexpired hstarted
  · exact cancelled_reaches hreaction h hexpired.1 _
  · exact advanceScheduler_reaches hreaction h hstarted now_ms
  · exact h.refl

/-- A poll keeps the invariant, at the time that it reads. -/
theorem poll_reaches (budget : ℕ) :
    ∃ now', now'.isSome = now.isSome ∧ Reaches config now' o passed s (poll o s budget).2 := by
  unfold poll
  by_cases hstarted : s.started = true
  swap
  · rw [if_pos (by simpa using hstarted)]
    exact ⟨now, rfl, h.refl⟩
  rw [if_neg (by simp [hstarted])]
  by_cases hpoll : s.in_poll = true
  · rw [if_pos hpoll]
    exact ⟨now, rfl, h.refl⟩
  have hentered : Quiet o passed s { s with in_poll := true } := .same rfl rfl
  obtain ⟨hquiet, htime⟩ := @currentTime_spec passed o { s with in_poll := true }
  have hstart : (currentTime o { s with in_poll := true }).2.started = true :=
    hquiet.started_eq.trans hstarted
  generalize currentTime o { s with in_poll := true } = read at hquiet htime hstart ⊢
  obtain ⟨now_ms, t⟩ := read
  dsimp only at hquiet htime hstart ⊢
  have hinv := (h.quiet (hentered.trans hquiet)).inv
  -- From here on the time of the invariant is the time of the poll.
  have hread : Reaches config (now.map fun _ => now_ms) o passed s t := by
    refine ⟨⟨hinv.good.later fun n hn => ?_, fun n hn => ?_⟩, (hentered.trans hquiet).steps⟩
    · rw [htime]
      exact hinv.clock n hn
    · obtain ⟨-, -, rfl⟩ := Option.map_eq_some_iff.1 hn
      exact htime.le
  have hnow : ∀ n, (now.map fun _ => now_ms) = some n → n = now_ms := by
    intro n hn
    obtain ⟨-, -, rfl⟩ := Option.map_eq_some_iff.1 hn
    rfl
  refine ⟨now.map fun _ => now_ms, Option.isSome_map, ?_⟩
  split_ifs
  · have hadvanced := hread.trans fun hinv =>
      advanceScheduler_reaches hreaction hinv hstart now_ms
    exact hadvanced.quiet (.same rfl rfl)
  · have hexpired : Reaches config (now.map fun _ => now_ms) o passed s
        { t with reassembler := t.reassembler.expire now_ms } := hread.quiet (.same rfl rfl)
    have hpolled := hexpired.trans fun hinv => pollLoop_reaches hreaction hinv hnow budget .ok
    have hended := fun result => hpolled.trans fun hinv =>
      pollEnd_reaches hreaction hinv now_ms result
    exact (hended _).quiet (.same rfl rfl)

end Callbacks

/-- `start` keeps the invariant, if the clock is not behind the last reservation. -/
theorem start_inv (h : Inv config now s)
    (hclock : now.isSome = true → s.last_now_ms ≤ (start o s).2.last_now_ms) :
    Inv config now (start o s).2 := by
  have hclock' : ∀ n, now = some n → n ≤ (start o s).2.last_now_ms := fun n hn =>
    (h.clock n hn).trans (hclock (Option.isSome_iff_exists.2 ⟨n, hn⟩))
  refine ⟨?_, hclock'⟩
  unfold start
  split_ifs with hstarted
  · exact h.good
  rw [Bool.not_eq_true] at hstarted
  have hbase : Base config now { s.core with log := s.log ++ [.phyStart (o.phy s.answers)] } :=
    h.good.toBase.saw (x := .phyStart _) trivial trivial
  have hprogress : Progress config { s.core with log := s.log ++ [.phyStart (o.phy s.answers)] } :=
    h.good.progress.later rfl rfl (fun _ rest hq => ⟨rest, hq⟩) (sinceResult_concat s.log _) rfl
  have hidle : s.core.state = .idle := h.good.stopped hstarted
  dsimp only
  split_ifs with hstatus
  · exact ({ hbase with
      idle := fun _ => hidle
      stopped := fun _ => hidle
      operation_eq := fun hs => absurd (hstarted.symm.trans hs) Bool.false_ne_true
      progress := hprogress } : Good config now
        { s.core with log := s.log ++ [.phyStart (o.phy s.answers)] })
  · have hcall : o.phy s.answers = .ok := not_not.1 hstatus
    exact ({ hbase.control s.state s.expected_operation_token true with
      idle := fun _ => hidle
      stopped := Bool.noConfusion
      operation_eq := fun _ => by
        rw [outstanding_concat, nextOutstanding_phyStart, if_pos hcall, Core.operation, hidle]
      progress := hprogress } : Good config now
        { s.core with log := s.log ++ [.phyStart (o.phy s.answers)], started := true })

/-- A start is steps, too. -/
theorem start_steps (s : Interface) : Steps o passed s (start o s).2 := by
  unfold start
  split_ifs with hstarted
  · exact .refl s
  · have hcalled : Steps o passed s (phyStart o s).2 := s.asked_steps.trans (saw_steps _ trivial)
    dsimp only
    split_ifs
    · exact hcalled.trans (.of_eq rfl)
    · exact hcalled.trans (.single (.read (.inl rfl)) rfl)

end Interface

open Interface

/-- Every call is a list of moves and keeps the invariant; where the reservations are dated, a start
must not read a clock that is behind. -/
theorem step_reaches
    (hreaction : ∀ question packet, Action.send packet ∈ o.reaction question → passed packet)
    (h : Inv config now s) (call : Call) (hcall : ∀ packet, call = .send packet → passed packet)
    (hclock : now.isSome = true → call = .start → s.last_now_ms ≤ (step o s call).last_now_ms) :
    ∃ now', now'.isSome = now.isSome ∧ Reaches config now' o passed s (step o s call) := by
  cases call with
  | start => exact ⟨now, rfl, start_inv h fun hsome => hclock hsome rfl, s.start_steps⟩
  | send packet => exact ⟨now, rfl, send_reaches h (hcall packet rfl)⟩
  | poll budget => exact poll_reaches hreaction h budget
  | getStats => exact ⟨now, rfl, h.quiet s.getStats_quiet⟩
  | stop =>
    obtain ⟨hstopped, hsteps⟩ := stop_spec hreaction h
    exact ⟨now, rfl, hstopped.toInv, hsteps⟩

/-- A new interface has the invariant. -/
theorem create_inv {s : Interface} (h : create config = .ok s) (timed : Bool) :
    ∃ now : Option ℕ, now.isSome = timed ∧ Inv config now s := by
  unfold create at h
  split_ifs at h with hvalid
  simp only [Bool.not_eq_true, Bool.not_eq_false'] at hvalid
  split at h
  · cases h
  cases h
  refine ⟨if timed then some 0 else none, by cases timed <;> rfl, ?_, fun n hn => ?_⟩
  · exact
      { config_eq := rfl, valid := hvalid, length_le := zero_le _
        packets := fun _ hp => absurd hp not_mem_nil
        turns := rfl, order := rfl, queued_eq := rfl, finished_eq := rfl
        lawful := Log.always_nil _, duty := fun n _ => dutyOk_empty _ n
        idle := fun _ => rfl, stopped := fun _ => rfl, operation_eq := fun _ => rfl
        progress := (rfl : transmittedUs config [] = 0) }
  · cases timed with
    | false => cases hn
    | true => exact (Option.some.inj hn).symm.le

end Reticulum.Radio
