import Reticulum.Radio.Scheduler
import Mathlib.Logic.Relation

/-!
# What the scheduler can do, move by move

`Track` is the part of the interface that decides which frames go on the air and when: the queue
with its sequences, how many frames of the front packet the radio took, the sequences that are
blocked, the time, and the log with its stamps. `Move` lists everything that can happen to it, each
with what the code checked before. Every call of the scheduler is a list of moves (`step_reaches`),
whatever the radio and the callbacks do, so a fact about whole runs is proved by looking at the
moves alone.
-/

namespace Reticulum.Radio

/-- The readings of the clock, by the number of the question. -/
def Oracle.time (o : Oracle) (question : ℕ) : ℕ := (o.clock question).toNat

/-- How many frames of the front packet the radio took. -/
def framesOut : SchedulerState → ℕ
  | .txFrame1 => 1
  | .txFrame2 => 2
  | _ => 0

/-- What decides which frames go on the air: the queue holds the frames and the sequence of each
packet, and `out` counts the frames of the front packet that the radio took. -/
structure Track where
  guard_ms : ℕ
  queue : List (List (List UInt8) × UInt8)
  out : ℕ
  blocked : UInt8 → Option ℕ
  last_now_ms : ℕ
  answers : ℕ
  log : List Observation
  stamps : List ℕ

/-- The track of an interface. -/
def Interface.track (s : Interface) : Track :=
  { guard_ms := s.config.sequence_reuse_guard_ms.toNat
    queue := s.queue.map fun p => (p.frames, p.sequence)
    out := framesOut s.state
    blocked := s.sequence_blocked_until_ms
    last_now_ms := s.last_now_ms
    answers := s.answers
    log := s.log
    stamps := s.stamps }

namespace Track

/-- A question is asked. -/
def ask (t : Track) : Track := { t with answers := t.answers + 1 }

/-- Something is seen. -/
def see (t : Track) (x : Observation) : Track :=
  { t with log := t.log ++ [x], stamps := t.stamps ++ [t.answers] }

/-- What the scheduler takes for the time when it reads the clock: the reading, or the last time
when the clock went back. -/
def Reads (clock : ℕ → ℕ) (t : Track) (now_ms : ℕ) : Prop :=
  now_ms = clock t.answers ∨ clock t.answers < t.last_now_ms ∧ now_ms = t.last_now_ms

end Track

/-- An observation that is not a packet queued, a result, or a frame that the radio took. -/
def Plain : Observation → Prop
  | .queued _ _ | .result _ _ _ | .transmit _ _ .ok => False
  | _ => True

/-- A move of the scheduler. `passed` holds of the packets that are passed to `send`. -/
inductive Move (clock : ℕ → ℕ) (passed : List UInt8 → Prop) (t : Track) : Track → Prop
  | ask : Move clock passed t t.ask
  | read {now_ms : ℕ} (reads : t.Reads clock now_ms) :
    Move clock passed t { t.ask with last_now_ms := now_ms }
  | see {x : Observation} (plain : Plain x) : Move clock passed t (t.see x)
  | unblock {sequence : UInt8} {deadline : ℕ} (blocked : t.blocked sequence = some deadline)
    (finite : deadline ≠ uint64Max) (elapsed : deadline ≤ t.last_now_ms) :
    Move clock passed t { t with blocked := Function.update t.blocked sequence none }
  -- A packet of two frames takes a sequence that is not blocked and not in the queue.
  | push (id : UInt32) {packet : List UInt8} {sequence : UInt8} {frames : List (List UInt8)}
    (sent : passed packet) (encoded : frameEncode packet sequence = .ok frames)
    (free : frames.length = 2 → t.blocked sequence = none ∧
      ∀ p ∈ t.queue, p.1.length = 2 → p.2 ≠ sequence) :
    Move clock passed t ({ t with queue := t.queue ++ [(frames, sequence)] }.see (.queued id frames))
  -- The radio takes the first frame, or the second one when there is one.
  | transmit (token : UInt32) {p : List (List UInt8) × UInt8}
    {rest : List (List (List UInt8) × UInt8)} (front : t.queue = p :: rest)
    (next : t.out = 0 ∨ t.out = 1 ∧ p.1.length ≠ 1) :
    Move clock passed t
      { t.ask.see (.transmit (p.1.getD t.out []) token .ok) with out := t.out + 1 }
  | settle (empty : t.queue = []) : Move clock passed t { t with out := 0 }
  -- The front packet is finished, and the sequence of two frames is blocked.
  | pop (id : UInt32) (outcome : PacketOutcome) (status : Status) {p : List (List UInt8) × UInt8}
    {rest : List (List (List UInt8) × UInt8)} {now_ms : ℕ} (front : t.queue = p :: rest)
    (reads : t.Reads clock now_ms)
    (sent : outcome = .sent → t.out = 1 ∧ p.1.length = 1 ∨ t.out = 2) :
    Move clock passed t ({ t.ask with
      queue := rest
      out := 0
      last_now_ms := now_ms
      blocked := if p.1.length = 2 then
        Function.update t.blocked p.2 (some (addSaturated now_ms t.guard_ms)) else t.blocked }.see
        (.result id outcome status))

/-- The second interface is reached from the first by moves. -/
def Steps (o : Oracle) (passed : List UInt8 → Prop) (s s' : Interface) : Prop :=
  Relation.ReflTransGen (Move o.time passed) s.track s'.track

namespace Steps

variable {o : Oracle} {passed : List UInt8 → Prop} {s s' s'' : Interface}

theorem refl (s : Interface) : Steps o passed s s := Relation.ReflTransGen.refl

theorem trans (h : Steps o passed s s') (h' : Steps o passed s' s'') : Steps o passed s s'' :=
  Relation.ReflTransGen.trans h h'

/-- What is not in the track may change. -/
theorem of_eq (h : s'.track = s.track) : Steps o passed s s' := by
  unfold Steps
  rw [h]

theorem single {t : Track} (h : Move o.time passed s.track t) (heq : s'.track = t) :
    Steps o passed s s' := by
  unfold Steps
  rw [heq]
  exact .single h

end Steps

namespace Interface

variable {o : Oracle} {passed : List UInt8 → Prop} {s : Interface}

theorem asked_steps (s : Interface) : Steps o passed s s.asked := .single .ask rfl

theorem saw_steps (s : Interface) {x : Observation} (h : Plain x) : Steps o passed s (s.saw x) :=
  .single (.see h) rfl

/-- The clock is read. -/
theorem currentTime_track (o : Oracle) (s : Interface) :
    (currentTime o s).2.track = { s.track.ask with last_now_ms := (currentTime o s).1 } ∧
      s.track.Reads o.time (currentTime o s).1 := by
  unfold currentTime
  dsimp only
  split_ifs with hback
  · exact ⟨rfl, .inr ⟨hback, rfl⟩⟩
  · exact ⟨rfl, .inl rfl⟩

theorem track_popFront (p : QueuedPacket) (rest : List QueuedPacket) (outcome : PacketOutcome)
    (status : Status) : (s.popFront p rest outcome status).track =
      { s.track with queue := rest.map fun p => (p.frames, p.sequence), out := 0 } := by
  unfold popFront
  split_ifs
  · rfl
  · rfl

theorem track_blockSequence (p : QueuedPacket) (now_ms : ℕ) : (s.blockSequence p now_ms).track =
      { s.track with
        blocked := if p.frames.length = 2 then Function.update s.track.blocked p.sequence
          (some (addSaturated now_ms s.track.guard_ms)) else s.track.blocked } := by
  unfold blockSequence
  split_ifs
  · rfl
  · rfl

/-- The queue of the track, with the front packet. -/
theorem track_queue {p : QueuedPacket} {rest : List QueuedPacket} (h : s.queue = p :: rest) :
    s.track.queue = (p.frames, p.sequence) :: rest.map fun p => (p.frames, p.sequence) := by
  simp [track, h]

/-- The next frame of the front packet is handed to the radio, which refuses it or takes it. -/
theorem phyTransmit_steps {p : QueuedPacket} {rest : List QueuedPacket}
    (hqueue : s.queue = p :: rest) {out : ℕ} (hout : framesOut s.state = out)
    (hnext : out = 0 ∨ out = 1 ∧ p.frames.length ≠ 1) :
    let sent := phyTransmit o s (p.frames.getD out [])
    (sent.1 ≠ .ok → Steps o passed s sent.2) ∧
      (sent.1 = .ok → ∀ s', s'.track = { sent.2.track with out := out + 1 } →
        Steps o passed s s') := by
  subst hout
  refine ⟨fun hrefused => ?_, fun htaken s' htrack => ?_⟩
  · refine s.asked_steps.trans (saw_steps _ ?_)
    have hphy : o.phy s.answers ≠ .ok := hrefused
    generalize o.phy s.answers = status at hphy
    cases status with
    | ok => exact absurd rfl hphy
    | _ => trivial
  · refine .single (.transmit s.expected_operation_token (track_queue hqueue) hnext) ?_
    have hphy : o.phy s.answers = .ok := htaken
    rw [htrack]
    simp only [phyTransmit, hphy]
    rfl

end Interface

end Reticulum.Radio
