import Reticulum.Base.Run
import Reticulum.Channel.Spec

/-!
# Two channels over a network

A sending and a receiving channel, joined by a network that loses, duplicates and reorders. Every
envelope that the sender's `send` callback took stays in `wire` with its send index, the number of
successful `rns_channel_send` calls before the one that made it; delivering the `k`-th of them, any
number of times and in any order, is a step, and losing it is never delivering it.

`delivered_isPrefix` is the contract of the pair: as long as no envelope arrives more than half of
the sequence range away from what the receiver expects, what the receiver hands out is a prefix of
what was sent, over any number of wraps of the counter. The invariant is `Agree`: the slots of both
sides hold the envelopes of send indices, the receiver's ahead of what it has handed out by less
than its window and each index at most once. `drainLoop_receives` keeps it along the drain loop, one
message at a time. `sender_bookkeeping` asks nothing of the network.
-/

namespace Reticulum.Channel

open List Slots Run

/-- A message as the application sees it: its type and its payload. -/
abbrev Message := UInt16 × List UInt8

/-- The message of a decoded envelope. -/
def Envelope.message (e : Envelope) : Message := (e.message_type, e.payload)

/-- Two channels and the network between them. Besides the channels it records what an observer
sees: the messages sent and delivered, the envelopes emitted, and which the receiver
acknowledged. -/
structure World where
  sender : State
  receiver : State
  /-- The messages of the successful `rns_channel_send` calls. -/
  sent : List Message
  /-- The send index of the envelope in each transmit slot in use. -/
  origin : ℕ → ℕ
  /-- The envelopes emitted, each with its send index. -/
  wire : List (ℕ × List UInt8)
  /-- The messages that the `receive` callback took. -/
  delivered : List Message
  /-- The send indices of the envelopes for which `rns_channel_receive` returned `RNS_OK`. -/
  accepted : List ℕ

/-- Two channels just made. -/
def World.start (sender receiver : State) : World :=
  ⟨sender, receiver, [], fun _ => 0, [], [], []⟩

/-- A call on the sender, or the delivery of the `k`-th envelope emitted so far. -/
inductive Action
  | send (message_type : UInt16) (payload : List UInt8) (answer : Status) (now : ℚ)
  | tick (now : ℚ) (answers : ℕ → Status)
  | markDelivered (sequence : UInt16)
  | deliver (k : ℕ) (answers : ℕ → Status)

/-- The world after an action. -/
def step (w : World) : Action → World
  | .send message_type payload answer now =>
    match send w.sender message_type payload answer now with
    | .error _ => w
    | .ok r =>
      { w with
        sender := r.channel
        sent := w.sent ++ [(message_type, payload)]
        origin := Function.update w.origin r.slot w.sent.length
        wire := w.wire ++ [(w.sent.length, r.wire)] }
  | .tick now answers =>
    { w with
      sender := (tick w.sender now answers).1
      wire := w.wire ++ (tick w.sender now answers).2.wires.map fun x => (w.origin x.1, x.2) }
  | .markDelivered sequence =>
    match markDelivered w.sender sequence with
    | .error _ => w
    | .ok r => { w with sender := r.1 }
  | .deliver k answers =>
    match w.wire[k]? with
    | none => w
    | some (a, envelope) =>
      { w with
        receiver := (receive w.receiver envelope answers).channel
        delivered := w.delivered ++
          (receive w.receiver envelope answers).delivered.map Envelope.message
        accepted :=
          if (receive w.receiver envelope answers).status = .ok then a :: w.accepted
          else w.accepted }

/-- The network keeps envelopes within half of the range: an envelope delivered has a send index at
most `2^15` before and less than `2^15` after the number of messages already delivered. -/
def InHalfRange (w : World) : Action → Prop
  | .deliver k _ => ∀ a envelope, w.wire[k]? = some (a, envelope) →
    w.delivered.length ≤ a + 2^15 ∧ a < w.delivered.length + 2^15
  | _ => True

/-- `bytes` is the envelope of the message with send index `a`. -/
def IsEnvelope (sent : List Message) (a : ℕ) (bytes : List UInt8) : Prop :=
  ∃ m, sent[a]? = some m ∧ envelopeEncode m.1 (sequenceOf a) m.2 maxEnvelopeBytes = .ok bytes

variable {sent : List Message} {a : ℕ} {delivered : List Message} {c : State}

/-- An envelope of a sent message stays one when more is sent. -/
theorem IsEnvelope.append {bytes : List UInt8} (h : IsEnvelope sent a bytes) (more : List Message) :
    IsEnvelope (sent ++ more) a bytes := by
  obtain ⟨m, hm, henc⟩ := h
  obtain ⟨hlt, -⟩ := List.getElem?_eq_some_iff.1 hm
  exact ⟨m, by rw [getElem?_append_left hlt]; exact hm, henc⟩

/-- What decoding the envelope of index `a` gives. -/
theorem IsEnvelope.decode {bytes : List UInt8} (h : IsEnvelope sent a bytes) :
    ∃ m, sent[a]? = some m ∧ envelopeDecode bytes = .ok ⟨m.1, sequenceOf a, m.2⟩ := by
  obtain ⟨m, hm, henc⟩ := h
  exact ⟨m, hm, envelopeDecode_encode henc⟩

/-! ## The receiver -/

/-- What the receiver keeps: it has handed out a prefix, expects the next index, and its slots hold
envelopes of indices in the window above it, no index twice. -/
structure Receives (sent delivered : List Message) (c : State) : Prop where
  isPrefix : delivered <+: sent
  expected : c.expected_sequence = sequenceOf delivered.length
  distinct : Slots.DistinctKeys Slot.sequence c.receive
  buffered : ∀ i slot, Holds c.receive i slot → ∃ a, delivered.length ≤ a ∧
    a < delivered.length + c.config.max_window ∧ slot.sequence = sequenceOf a ∧
    IsEnvelope sent a slot.envelope

/-- The element after a prefix extends it. -/
theorem isPrefix_concat {m : Message} (h : delivered <+: sent)
    (hm : sent[delivered.length]? = some m) : delivered ++ [m] <+: sent := by
  obtain ⟨rest, rfl⟩ := h
  cases rest with
  | nil => simp at hm
  | cons x rest =>
    obtain rfl : x = m := by simpa using hm
    exact ⟨rest, by simp⟩

/-- One turn of the drain loop: the slot that holds the expected sequence holds the next message,
and handing it out keeps what the receiver keeps. -/
theorem Receives.hand_out (h : Receives sent delivered c) (hwin : c.config.max_window ≤ maxWindow)
    {i : ℕ} {found : Slot} (hi : Holds c.receive i found)
    (hseq : found.sequence = c.expected_sequence) {message : Envelope}
    (hdec : envelopeDecode found.envelope = .ok message) :
    Receives sent (delivered ++ [message.message])
      { c with receive := c.receive.set i none
               expected_sequence := c.expected_sequence + 1 } := by
  have hmax : maxWindow = 32 := rfl
  obtain ⟨a, hlo, hhi, ha, henv⟩ := h.buffered i found hi
  -- The index in the slot is the next one, since both are in one window.
  have hnext : a = delivered.length := by
    rw [ha, h.expected] at hseq
    exact eq_of_sequenceOf_eq hseq (by omega) (by omega)
  subst hnext
  obtain ⟨m, hm, hdec'⟩ := henv.decode
  rw [hdec] at hdec'
  obtain rfl : message = ⟨m.1, sequenceOf delivered.length, m.2⟩ := by simpa using hdec'
  refine ⟨isPrefix_concat h.isPrefix hm, ?_, h.distinct.set_none i, ?_⟩
  · rw [length_append, length_singleton, ← sequenceOf_succ, ← h.expected]
  · intro j slot hj
    obtain ⟨-, -, hx⟩ | ⟨hji, hj⟩ := holds_set.1 hj
    · cases hx
    obtain ⟨b, hblo, hbhi, hb, hbenv⟩ := h.buffered j slot hj
    -- No other slot holds the index handed out.
    have hne : b ≠ delivered.length := by
      rintro rfl
      exact hji (h.distinct j i slot found hj hi (by rw [hb, ha]))
    rw [length_append, length_singleton]
    exact ⟨b, by omega, by dsimp only; omega, hb, hbenv⟩

/-- The drain loop hands out the messages that follow, keeps what the receiver keeps, and fails
only with what the callback answered. -/
theorem drainLoop_receives (sent : List Message) (answers : ℕ → Status) (n k : ℕ) (c : State)
    (delivered : List Message) (h : Receives sent delivered c)
    (hwin : c.config.max_window ≤ maxWindow) :
    let r := drainLoop answers n k c
    Receives sent (delivered ++ r.2.2.map Envelope.message)
        r.2.1 ∧
      (r.1 = .ok ∨ ∃ j, r.1 = answers j) := by
  induction n generalizing k c delivered with
  | zero => simpa [drainLoop] using h
  | succ n ih =>
    cases hf : Slots.find (fun slot => decide (slot.sequence = c.expected_sequence)) c.receive with
    | none => simpa [drainLoop, hf] using h
    | some x =>
      obtain ⟨i, found⟩ := x
      obtain ⟨hi, hseq, -⟩ := find_eq_some hf
      -- Every slot holds an envelope of the sender, which decodes.
      obtain ⟨a, -, -, -, henv⟩ := h.buffered i found hi
      obtain ⟨m, -, hdec⟩ := henv.decode
      by_cases hans : answers k = .ok
      · have hturn := h.hand_out hwin hi (by simpa using hseq) hdec
        have hrest := ih (k + 1) _ _ hturn hwin
        simp only [drainLoop, hf, hdec, hans, ne_eq, not_true_eq_false, if_false, map_cons]
        simpa using hrest
      · simp only [drainLoop, hf, hdec, hans, ne_eq, not_false_eq_true, if_true, map_nil,
          append_nil]
        exact ⟨h, .inr ⟨k, rfl⟩⟩

section

variable (h : Receives sent delivered c)
include h

/-- Storing an envelope of an index in the window that no slot holds keeps what the receiver
keeps. -/
theorem Receives.stored {i : ℕ} {envelope : List UInt8}
    (hlo : delivered.length ≤ a) (hhi : a < delivered.length + c.config.max_window)
    (henv : IsEnvelope sent a envelope)
    (hnew : ∀ j slot, Holds c.receive j slot → slot.sequence ≠ sequenceOf a) :
    Receives sent delivered (store c i (sequenceOf a) envelope) where
  isPrefix := h.isPrefix
  expected := h.expected
  distinct := h.distinct.set_some fun j b hb hkey => absurd hkey (hnew j b hb)
  buffered := by
    intro j slot hj
    obtain ⟨-, -, hx⟩ | ⟨-, hj⟩ := holds_set.1 hj
    · simp only [Option.some.injEq] at hx
      exact ⟨a, hlo, hhi, by rw [← hx], by rw [← hx]; exact henv⟩
    · exact h.buffered j slot hj

/-- The tests of `rns_channel_receive` on an envelope within half of the range, in terms of send
indices. -/
theorem Receives.tests (hlo : delivered.length ≤ a + 2^15) (hhi : a < delivered.length + 2^15) :
    (sequenceBefore (sequenceOf a) c.expected_sequence = true ↔ a < delivered.length) ∧
      (delivered.length ≤ a →
        sequenceDistance (sequenceOf a) c.expected_sequence = a - delivered.length) := by
  rw [h.expected]
  exact ⟨sequenceBefore_iff hlo hhi, fun hle => sequenceDistance_eq hle (by omega)⟩

/-- Receiving the envelope of an index within half of the range: what the receiver keeps is kept,
an index acknowledged is below the end of the window, and, unless the callback answers so,
`RNS_ERROR_PROTOCOL` is returned exactly for the indices beyond the window. -/
theorem Receives.receive (hwin : c.config.max_window ≤ maxWindow)
    {envelope : List UInt8} (henv : IsEnvelope sent a envelope) (hlo : delivered.length ≤ a + 2^15)
    (hhi : a < delivered.length + 2^15) (answers : ℕ → Status) :
    let r := receive c envelope answers
    Receives sent (delivered ++ r.delivered.map Envelope.message)
        r.channel ∧
      (r.status = .ok → a < delivered.length + c.config.max_window) ∧
      ((∀ k, answers k ≠ .protocol) → (r.status = .protocol ↔
        delivered.length + c.config.max_window ≤ a)) := by
  dsimp only
  obtain ⟨m, -, hdec⟩ := henv.decode
  rcases receive_cases c envelope answers with ⟨status, hbad, -⟩ | ⟨message, hdec', hr⟩
  · rw [hdec] at hbad; cases hbad
  rw [hdec] at hdec'
  obtain rfl : message = ⟨m.1, sequenceOf a, m.2⟩ := by simpa using hdec'.symm
  obtain ⟨hbefore_iff, hdistance⟩ := h.tests hlo hhi
  -- An envelope that is not before the expected one is ahead, at the distance of the indices.
  have hahead : sequenceBefore (sequenceOf a) c.expected_sequence = false →
      delivered.length ≤ a := by
    intro hfalse
    by_contra hlt
    rw [hbefore_iff.2 (by omega)] at hfalse
    cases hfalse
  rcases hr with ⟨hdup, hr⟩ | ⟨-, hbefore, hdist, hr⟩ | ⟨-, hbefore, hdist, -, hr⟩ |
    ⟨hdup, hbefore, hdist, i, -, hs, hc, hd⟩
  · have hlt : a < delivered.length + c.config.max_window := by
      by_cases hb : a < delivered.length
      · omega
      · rcases hdup with hd | ⟨hd, -⟩
        · exact absurd (hbefore_iff.1 hd) hb
        · rw [hdistance (by omega)] at hd
          omega
    rw [hr]
    exact ⟨by simpa using h, fun _ => hlt, fun _ => by simpa using hlt⟩
  · rw [hdistance (hahead hbefore)] at hdist
    have hge := hahead hbefore
    rw [hr]
    exact ⟨by simpa using h, fun hok => (by cases hok), fun _ => (by simp; omega)⟩
  · rw [hdistance (hahead hbefore)] at hdist
    rw [hr]
    exact ⟨by simpa using h, fun hok => (by cases hok), fun _ => (by simp; omega)⟩
  · have hage := hahead hbefore
    have hnew : ∀ j slot, Holds c.receive j slot → slot.sequence ≠ sequenceOf a :=
      fun j slot hj hseq => hdup (.inr ⟨hdist, j, slot, hj, hseq⟩)
    rw [hdistance hage] at hdist
    obtain ⟨hkept, hstatus⟩ := drainLoop_receives sent answers
      (Slots.used (store c i (sequenceOf a) envelope).receive) 0 _ delivered
      (h.stored (i := i) hage (by omega) henv hnew) hwin
    rw [hs, hc, hd]
    refine ⟨hkept, fun _ => by omega, fun hans => ?_⟩
    have hne : (drainReceive (store c i (sequenceOf a) envelope) answers).1 ≠ .protocol := by
      rcases hstatus with hok | ⟨j, hj⟩
      · rw [drainReceive, hok]; decide
      · rw [drainReceive, hj]; exact hans j
    exact ⟨fun hp => absurd hp hne, fun hge => absurd hge (by omega)⟩

end

/-! ## The pair -/

/-- What a pair of channels keeps: the sender's slots and the network hold envelopes of send
indices, and the receiver keeps what it keeps. -/
structure Agree (w : World) : Prop where
  next : w.sender.next_sequence = sequenceOf w.sent.length
  slots : ∀ i slot, Holds w.sender.transmit i slot →
    slot.sequence = sequenceOf (w.origin i) ∧ IsEnvelope w.sent (w.origin i) slot.envelope
  wire : ∀ x ∈ w.wire, IsEnvelope w.sent x.1 x.2
  window : w.receiver.config.max_window ≤ maxWindow
  receives : Receives w.sent w.delivered w.receiver

/-- Two channels just made agree. -/
theorem agree_start {sender receiver : State} {cs cr : Config} (hs : init cs = .ok sender)
    (hr : init cr = .ok receiver) : Agree (World.start sender receiver) := by
  obtain ⟨-, -, hnext, -, -, -, htransmit, -⟩ := init_ok hs
  obtain ⟨hvalid, hconfig, -, hexpected, -, -, -, hreceive⟩ := init_ok hr
  refine ⟨hnext, fun i slot hi => ?_, by simp [World.start], ?_, ⟨by simp [World.start], hexpected,
    ?_, fun i slot hi => ?_⟩⟩
  · rw [World.start, htransmit] at hi
    exact absurd hi not_holds_replicate
  · rw [World.start, hconfig]; exact hvalid.max_le
  · rw [World.start, hreceive]; exact distinctKeys_replicate _
  · rw [World.start, hreceive] at hi
    exact absurd hi not_holds_replicate

/-- The receiver's part stands when the sender sends one more message. -/
theorem Receives.append (h : Receives sent delivered c) (more : List Message) :
    Receives (sent ++ more) delivered c where
  isPrefix := h.isPrefix.trans (prefix_append _ _)
  expected := h.expected
  distinct := h.distinct
  buffered := by
    intro i slot hi
    obtain ⟨a, hlo, hhi, ha, henv⟩ := h.buffered i slot hi
    exact ⟨a, hlo, hhi, ha, henv.append more⟩

/-- Receiving does not change the configuration. -/
theorem receive_config (c : State) (envelope : List UInt8) (answers : ℕ → Status) :
    (receive c envelope answers).channel.config = c.config := by
  rcases receive_cases c envelope answers with ⟨status, -, hr⟩ | ⟨message, -, hr⟩
  · rw [hr]
  · rcases hr with ⟨-, hr⟩ | ⟨-, -, -, hr⟩ | ⟨-, -, -, -, hr⟩ | ⟨-, -, -, i, -, -, hr, -⟩
    · rw [hr]
    · rw [hr]
    · rw [hr]
    · have hd := (drainLoop_spec answers _ 0 (Channel.store c i message.sequence envelope)
        (le_refl _)).1
      rw [hr, drainReceive, hd.frame]
      rfl

/-- Every action within half of the range keeps the agreement. -/
theorem step_agree (w : World) (action : Action) (h : Agree w) (hnet : InHalfRange w action) :
    Agree (step w action) := by
  cases action with
  | send message_type payload answer now =>
    cases hsend : send w.sender message_type payload answer now with
    | error status => simpa [step, hsend] using h
    | ok r =>
      obtain ⟨-, -, henc, hchannel⟩ := send_ok hsend
      have hindex : (w.sent ++ [(message_type, payload)])[w.sent.length]? =
          some (message_type, payload) := by simp
      have hnew : IsEnvelope (w.sent ++ [(message_type, payload)]) w.sent.length r.wire :=
        ⟨_, hindex, by rw [← h.next]; exact henc⟩
      simp only [step, hsend]
      -- The new slot and the new envelope are those of the next index.
      refine ⟨?_, fun i slot hi => ?_, fun x hx => ?_, h.window, h.receives.append _⟩
      · rw [hchannel]
        simp only [length_append, length_singleton]
        rw [h.next, sequenceOf_succ]
      · rw [hchannel] at hi
        obtain ⟨rfl, -, hx⟩ | ⟨hir, hi⟩ := holds_set.1 hi
        · simp only [Option.some.injEq] at hx
          simp only [Function.update_self, ← hx]
          exact ⟨h.next, hnew⟩
        · simp only [Function.update_of_ne hir]
          exact ⟨(h.slots i slot hi).1, (h.slots i slot hi).2.append _⟩
      · rcases mem_append.1 hx with hx | hx
        · exact (h.wire x hx).append _
        · obtain rfl : x = (w.sent.length, r.wire) := by simpa using hx
          exact hnew
  | tick now answers =>
    obtain ⟨-, hnext, hslots, hwires, -⟩ := tick_spec w.sender now answers
    -- What is sent again is still in its slot.
    refine ⟨hnext.trans h.next, fun i slot' hi => ?_, fun x hx => ?_, h.window, h.receives⟩
    · obtain ⟨slot, hslot, hseq, henv⟩ := hslots i slot' hi
      obtain ⟨h1, h2⟩ := h.slots i slot hslot
      exact ⟨hseq.trans h1, by rw [henv]; exact h2⟩
    · rcases mem_append.1 hx with hx | hx
      · exact h.wire x hx
      · obtain ⟨y, hy, rfl⟩ := mem_map.1 hx
        obtain ⟨slot, hslot, henv⟩ := hwires y hy
        rw [henv]
        exact (h.slots y.1 slot hslot).2
  | markDelivered sequence =>
    cases hmark : markDelivered w.sender sequence with
    | error status => simpa [step, hmark] using h
    | ok r =>
      obtain ⟨i, slot, hi, -, hc⟩ := markDelivered_ok hmark
      obtain ⟨-, hnext, -, htransmit, -, -⟩ := countSuccess_spec
        { w.sender with transmit := w.sender.transmit.set i none
                        outstanding := w.sender.outstanding - 1 }
      rw [← hc] at hnext htransmit
      simp only [step, hmark]
      refine ⟨hnext.trans h.next, fun j s hj => ?_, h.wire, h.window, h.receives⟩
      rw [htransmit] at hj
      obtain ⟨-, -, hx⟩ | ⟨-, hj⟩ := holds_set.1 hj
      · cases hx
      · exact h.slots j s hj
  | deliver k answers =>
    cases hk : w.wire[k]? with
    | none => simpa [step, hk] using h
    | some x =>
      obtain ⟨a, envelope⟩ := x
      obtain ⟨hlo, hhi⟩ := hnet a envelope hk
      have henv := h.wire (a, envelope) (mem_of_getElem? hk)
      simp only [step, hk]
      refine ⟨h.next, h.slots, h.wire, ?_, (h.receives.receive h.window henv hlo hhi answers).1⟩
      rw [receive_config]
      exact h.window

/-- For every pair of channels, every sequence of calls on the sender, and every network that keeps
within half of the range: the messages that the receiver hands out are a prefix of those sent. -/
theorem delivered_isPrefix {cs cr : Config} {sender receiver : State} (hs : init cs = .ok sender)
    (hr : init cr = .ok receiver) (actions : List Action)
    (hnet : Run.Each step InHalfRange (World.start sender receiver) actions) :
    (final step (World.start sender receiver) actions).delivered <+:
      (final step (World.start sender receiver) actions).sent :=
  (invariant step_agree (agree_start hs hr) hnet).receives.isPrefix

/-- A run short enough for all indices to be in half of the range keeps within it. -/
theorem inHalfRange_of_small {w : World} (hwire : ∀ x ∈ w.wire, x.1 < 2^15)
    (hdelivered : w.delivered.length ≤ 2^15) (action : Action) : InHalfRange w action := by
  cases action with
  | deliver k answers =>
    intro a envelope hk
    have := hwire _ (mem_of_getElem? hk)
    exact ⟨by omega, by simp only at this; omega⟩
  | _ => trivial

/-- A configuration with a fixed window of two. -/
def pairConfig : Config :=
  { initial_window := 2, max_window := 2, max_retries := 3, retry_timeout := 1 }

/-- The channel that `rns_channel_init` makes of `pairConfig`. -/
def pairChannel : State :=
  { config := pairConfig
    next_sequence := 0
    expected_sequence := 0
    window := 2
    success_count := 0
    outstanding := 0
    transmit := replicate maxWindow none
    receive := replicate maxWindow none }

theorem init_pairConfig : init pairConfig = .ok pairChannel := by
  rfl

/-- Two messages that arrive in the wrong order, the second one twice. -/
def swappedPair : List Action :=
  [.send 7 [1] .ok 0, .send 8 [2] .ok 0, .deliver 1 fun _ => .ok, .deliver 0 fun _ => .ok,
    .deliver 1 fun _ => .ok]

/-- The two messages that arrive in the wrong order are handed out in the order of the sends. -/
theorem delivered_isPrefix_swappedPair :
    (final step (World.start pairChannel pairChannel) swappedPair).delivered =
        [(7, [1]), (8, [2])] ∧
      (final step (World.start pairChannel pairChannel) swappedPair).delivered <+:
        (final step (World.start pairChannel pairChannel) swappedPair).sent := by
  refine ⟨by decide, delivered_isPrefix init_pairConfig init_pairConfig swappedPair ?_⟩
  refine ⟨?_, ?_, ?_, ?_, ?_, trivial⟩
  all_goals exact inHalfRange_of_small (by decide) (by decide) _

/-! ## The bookkeeping of the sender -/

/-- The count is that of the slots in use, and the window is within its bounds. -/
structure Kept (c : State) : Prop where
  count : c.outstanding = used c.transmit
  window : 0 < c.window ∧ c.window ≤ c.config.max_window

/-- The loop of a tick takes from the count what it frees. -/
theorem tickLoop_count {config : Config} {now : ℚ} {answers : ℕ → Status} {i k : ℕ}
    {slots : List (Option Slot)} {acc : TickAcc} (hcount : acc.outstanding = used slots + k)
    (hwindow : 0 < acc.window ∧ acc.window ≤ config.max_window) :
    let r := tickLoop config now answers i slots acc
    r.2.outstanding = used r.1 + k ∧ 0 < r.2.window ∧ r.2.window ≤ config.max_window := by
  have hsome (slot : Slot) (t) : used (some slot :: t) = used t + 1 := countP_cons_of_pos rfl
  have hnone (t : List (Option Slot)) : used (none :: t) = used t := countP_cons_of_neg nofun
  induction slots generalizing i k acc with
  | nil => exact ⟨hcount, hwindow⟩
  | cons x slots ih =>
    rcases x with _ | slot
    · simpa only [tickLoop, hnone] using ih (hnone slots ▸ hcount) hwindow
    · rw [hsome, Nat.add_assoc, Nat.add_comm 1] at hcount
      -- A slot that is kept counts among those outside the rest of the loop.
      have hkeep := @ih (i + 1) (k + 1)
      have hdrop := @ih (i + 1) k (acc.drop config slot) (congrArg (· - 1) hcount) (by
        simp only [TickAcc.drop]
        split_ifs <;> simp <;> omega)
      simp only [tickLoop]
      split_ifs <;> simp only [hsome, hnone, Nat.add_assoc, Nat.add_comm 1]
      · exact hkeep hcount hwindow
      · exact hdrop
      · exact @hkeep (acc.resend i slot) hcount hwindow
      · exact hkeep hcount hwindow

/-- Every action keeps the bookkeeping of the sender. -/
theorem step_kept (w : World) (action : Action) (h : Kept w.sender) :
    Kept (step w action).sender := by
  have hsame := h.count
  cases action with
  | send message_type payload answer now =>
    simp only [step]
    split
    · exact h
    · rename_i hsend
      obtain ⟨-, hfree, -, hchannel⟩ := send_ok hsend
      rw [hchannel]
      exact ⟨by rw [used_set_some hfree, hsame], h.window⟩
  | tick now answers =>
    have hloop := @tickLoop_count w.sender.config now answers 0 0 w.sender.transmit
      ⟨w.sender.window, w.sender.success_count, w.sender.outstanding, 0, [], []⟩ hsame h.window
    exact ⟨hloop.1, hloop.2⟩
  | markDelivered sequence =>
    simp only [step]
    split
    · exact h
    · rename_i r hmark
      obtain ⟨i, slot, hi, -, hnext⟩ := @markDelivered_ok _ r.1 _ r.2 hmark
      obtain ⟨hconfig, -, hcount, htransmit, hle, hmax⟩ := countSuccess_spec { w.sender with
        transmit := w.sender.transmit.set i none, outstanding := w.sender.outstanding - 1 }
      rw [← hnext] at hconfig hcount htransmit hle hmax
      refine ⟨?_, h.window.1.trans_le hle, hconfig ▸ hmax h.window.2⟩
      rw [hcount, htransmit, hsame]
      exact Nat.sub_eq_of_eq_add (used_set_none hi).symm
  | deliver k answers =>
    simp only [step]
    split <;> exact h

/-- Whatever is called on the sender and whatever the network does, the count of envelopes that wait
is that of the slots in use, and the window stays between one and its maximum. -/
theorem sender_bookkeeping {config : Config} {sender receiver : State}
    (hinit : init config = .ok sender) (actions : List Action) :
    Kept (final step (World.start sender receiver) actions).sender := by
  obtain ⟨hvalid, rfl, -, -, hwindow, hcount, htransmit, -⟩ := init_ok hinit
  have hstart : Kept (World.start sender receiver).sender :=
    ⟨by rw [World.start, hcount, htransmit]; rfl, hwindow ▸ hvalid.initial_pos,
      hwindow ▸ hvalid.initial_le⟩
  exact invariant (fun w action h _ => step_kept w action h) hstart (each_true actions)

theorem sender_bookkeeping_swappedPair :
    Kept (final step (World.start pairChannel pairChannel) swappedPair).sender :=
  sender_bookkeeping init_pairConfig swappedPair

end Reticulum.Channel
