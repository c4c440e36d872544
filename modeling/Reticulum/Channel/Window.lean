import Reticulum.Channel.Peers

/-!
# How far ahead a sender runs

The sender bounds the number of its unacknowledged slots, the receiver the distance of an envelope
from what it has handed out, and the two bounds are not the same: an envelope that arrives early is
acknowledged while it waits, which frees its slot, so a sender that follows the acknowledgements
runs up to two windows ahead, and the receiver refuses what is beyond one. `lead_and_refusals` gives
the bounds that do hold for acknowledged peers, and `protocol_error_between_honest_peers` the runs
in which the receiver refuses an honest envelope and in which two slots come to hold one sequence.

The invariant `Ahead config lead` is parameterised by how far above the delivered messages an
acknowledgement may be: every index from there on still has its slot, so counting slots bounds the
lead (`Ahead.sent_le`).
-/

namespace Reticulum.Channel

open List Slots Nat Function Run World

/-- The sender marks a sequence as delivered only when `rns_channel_receive` returned `RNS_OK` for
the envelope in the slot of that sequence, and no slot times out. -/
def Acknowledged (w : World) : Action → Prop
  | .tick now answers => ∀ s, (Event.timeout, s) ∉ (tick w.sender now answers).2.events
  | .markDelivered sequence => ∀ i slot, Holds w.sender.transmit i slot →
    slot.sequence = sequence → w.origin i ∈ w.accepted
  | _ => True

/-- Neither an envelope nor an acknowledgement is late by a wrap of the sequence counter: no
envelope arrives after `2^15` later messages were delivered, and at a send no slot has waited for
its acknowledgement over the last `2^16` sends. -/
def Timely (w : World) : Action → Prop
  | .send _ _ _ _ => ∀ i slot, Holds w.sender.transmit i slot → w.sent.length < w.origin i + 2^16
  | .deliver k _ => ∀ a envelope, w.wire[k]? = some (a, envelope) →
    w.delivered.length ≤ a + 2^15
  | _ => True

/-- The sender marks a sequence as delivered only when the message in its slot is among the
delivered ones, and not only received. -/
def AcksDelivered (w : World) : Action → Prop
  | .markDelivered sequence => ∀ i slot, Holds w.sender.transmit i slot →
    slot.sequence = sequence → w.origin i < w.delivered.length
  | _ => True

/-- Acknowledgements reach at most `lead` above the delivered messages, and no slot times out. -/
def AcksWithin (lead : ℕ) (w : World) : Action → Prop
  | .tick now answers => ∀ s, (Event.timeout, s) ∉ (tick w.sender now answers).2.events
  | .markDelivered sequence => ∀ i slot, Holds w.sender.transmit i slot →
    slot.sequence = sequence → w.origin i < w.delivered.length + lead
  | _ => True

/-- What a pair of channels with one configuration keeps while acknowledgements reach at most
`lead` above the delivered messages. -/
structure Ahead (config : Config) (lead : ℕ) (w : World) : Prop where
  agree : Agree w
  sender_config : w.sender.config = config
  receiver_config : w.receiver.config = config
  outstanding : w.sender.outstanding = used w.sender.transmit
  outstanding_le : w.sender.outstanding ≤ w.sender.window
  window_le : w.sender.window ≤ config.max_window
  /-- Slots hold different indices, all among the last `2^16`. -/
  distinct : ∀ i j a b, Holds w.sender.transmit i a → Holds w.sender.transmit j b →
    w.origin i = w.origin j → i = j
  recent : ∀ i slot, Holds w.sender.transmit i slot → w.sent.length ≤ w.origin i + 2^16
  /-- An index that no acknowledgement can have reached has its slot. -/
  covered : ∀ b, w.delivered.length + lead ≤ b → b < w.sent.length →
    ∃ i slot, Holds w.sender.transmit i slot ∧ w.origin i = b

variable {w : World} {config : Config} {lead n : ℕ}

/-- The index in a slot is that of a message sent. -/
theorem Agree.origin_lt (h : Agree w) {i : ℕ} {slot : Slot} (hi : Holds w.sender.transmit i slot) :
    w.origin i < w.sent.length := by
  obtain ⟨-, m, hm, -⟩ := h.slots i slot hi
  exact (List.getElem?_eq_some_iff.1 hm).1

section

variable (h : Ahead config lead w)
include h

/-- The lead of the sender: the indices beyond the reach of acknowledgements each have a slot, and
there are at most `max_window` slots in use. -/
theorem Ahead.sent_le : w.sent.length ≤ w.delivered.length + lead + config.max_window := by
  have hcard := card_le_used (t := w.sender.transmit) (f := w.origin)
    (s := Finset.Ico (w.delivered.length + lead) w.sent.length) fun b hb => by
      obtain ⟨hlo, hhi⟩ := Finset.mem_Ico.1 hb
      exact h.covered b hlo hhi
  rw [card_Ico, ← h.outstanding] at hcard
  have h1 := h.outstanding_le
  have h2 := h.window_le
  omega

/-- Slots hold different sequence numbers. -/
theorem Ahead.distinct_sequences : Slots.DistinctKeys Slot.sequence w.sender.transmit := by
  intro i j a b ha hb hseq
  rw [(h.agree.slots i a ha).1, (h.agree.slots j b hb).1] at hseq
  have hi := h.agree.origin_lt ha
  have hj := h.agree.origin_lt hb
  have hri := h.recent i a ha
  have hrj := h.recent j b hb
  exact h.distinct i j a b ha hb (eq_of_sequenceOf_eq hseq (by omega) (by omega))

/-- A timely delivery is within half of the range, since the sender is not far ahead. -/
theorem Ahead.inHalfRange (hlead : lead ≤ maxWindow) {action : Action}
    (ht : Timely w action) : InHalfRange w action := by
  cases action with
  | deliver k answers =>
    intro a envelope hk
    refine ⟨ht a envelope hk, ?_⟩
    obtain ⟨m, hm, -⟩ := h.agree.wire (a, envelope) (mem_of_getElem? hk)
    have hlt := (List.getElem?_eq_some_iff.1 hm).1
    have hle := h.sent_le
    have hwin := h.agree.window
    rw [h.receiver_config] at hwin
    have hmax : maxWindow = 32 := rfl
    omega
  | _ => trivial

/-- A send keeps the bounds: the new index takes the free slot. -/
theorem Ahead.send {message_type : UInt16} {payload : List UInt8}
    {answer : Status} {now : ℚ} (ht : Timely w (.send message_type payload answer now)) :
    Ahead config lead (step w (.send message_type payload answer now)) := by
  have hagree := step_agree w (.send message_type payload answer now) h.agree trivial
  cases hsend : Channel.send w.sender message_type payload answer now with
  | error status => simpa [step, hsend] using h
  | ok r =>
    obtain ⟨hroom, hfree, -, hchannel⟩ := send_ok hsend
    simp only [step, hsend] at hagree ⊢
    obtain ⟨hlt, -⟩ := List.getElem?_eq_some_iff.1 hfree
    -- A slot in use after the send is the new one or an old one.
    have hslots : ∀ {i slot}, Holds r.channel.transmit i slot →
        i = r.slot ∨ (i ≠ r.slot ∧ Holds w.sender.transmit i slot) := by
      intro i slot hi
      rw [hchannel] at hi
      obtain ⟨rfl, -, -⟩ | hold := holds_set.1 hi
      · exact .inl rfl
      · exact .inr hold
    refine ⟨hagree, by rw [hchannel]; exact h.sender_config, h.receiver_config, ?_, ?_, ?_, ?_, ?_,
      ?_⟩
    · rw [hchannel]
      rw [used_set_some hfree, h.outstanding]
    · rw [hchannel]; exact hroom
    · rw [hchannel]; exact h.window_le
    · intro i j a b ha hb heq
      rcases hslots ha with rfl | ⟨hir, ha⟩ <;> rcases hslots hb with rfl | ⟨hjr, hb⟩
      · rfl
      · have := h.agree.origin_lt hb
        simp only [update_self, update_of_ne hjr] at heq
        omega
      · have := h.agree.origin_lt ha
        simp only [update_self, update_of_ne hir] at heq
        omega
      · simp only [update_of_ne hir, update_of_ne hjr] at heq
        exact h.distinct i j a b ha hb heq
    · intro i slot hi
      simp only [length_append, length_singleton]
      rcases hslots hi with rfl | ⟨hir, hi⟩
      · simp only [update_self]; omega
      · simp only [update_of_ne hir]
        exact ht i slot hi
    · intro b hlo hhi
      simp only [length_append, length_singleton] at hlo hhi
      by_cases hb : b = w.sent.length
      · have hnew : ∃ slot, Holds r.channel.transmit r.slot slot := by
          rw [hchannel]
          exact ⟨_, holds_set_self hlt⟩
        obtain ⟨slot, hslot⟩ := hnew
        exact ⟨r.slot, slot, hslot, by simp [hb]⟩
      · obtain ⟨i, slot, hi, hib⟩ := h.covered b hlo (by omega)
        have hir : i ≠ r.slot := by
          rintro rfl
          rw [Holds, hfree] at hi
          simp at hi
        refine ⟨i, slot, ?_, by simp only [update_of_ne hir, hib]⟩
        rw [hchannel]
        exact holds_set.2 (.inr ⟨hir, hi⟩)

end

/-- Every action with timely envelopes and acknowledgements within `lead` keeps the bounds. -/
theorem step_ahead (hlead : lead ≤ maxWindow) (w : World) (action : Action)
    (h : Ahead config lead w) (ht : Timely w action) (hack : AcksWithin lead w action) :
    Ahead config lead (step w action) := by
  have hagree := step_agree w action h.agree (h.inHalfRange hlead ht)
  cases action with
  | send message_type payload answer now => exact h.send ht
  | tick now answers =>
    obtain ⟨hconfig, -, hslots, -, hquiet⟩ := tick_spec w.sender now answers
    obtain ⟨hwindow, hout, hused, hkept⟩ := hquiet hack
    refine ⟨hagree, hconfig.trans h.sender_config, h.receiver_config, ?_, ?_, ?_, ?_, ?_, ?_⟩
    · simp only [step]; rw [hout, hused, h.outstanding]
    · simp only [step]; rw [hout, hwindow]; exact h.outstanding_le
    · simp only [step]; rw [hwindow]; exact h.window_le
    · intro i j a b ha hb
      obtain ⟨a', ha', -⟩ := hslots i a ha
      obtain ⟨b', hb', -⟩ := hslots j b hb
      exact h.distinct i j a' b' ha' hb'
    · intro i slot hi
      obtain ⟨slot', hi', -⟩ := hslots i slot hi
      exact h.recent i slot' hi'
    · intro b hlo hhi
      obtain ⟨i, slot, hi, hib⟩ := h.covered b hlo hhi
      obtain ⟨slot', hi'⟩ := hkept i slot hi
      exact ⟨i, slot', hi', hib⟩
  | markDelivered sequence =>
    cases hmark : markDelivered w.sender sequence with
    | error status => simpa [step, hmark] using h
    | ok r =>
      obtain ⟨i, slot, hi, hseq, hc⟩ := markDelivered_ok hmark
      obtain ⟨hconfig, -, hout, htransmit, hge, hle⟩ := countSuccess_spec
        { w.sender with transmit := w.sender.transmit.set i none
                        outstanding := w.sender.outstanding - 1 }
      rw [← hc] at hconfig hout htransmit hge hle
      dsimp only at hconfig hout htransmit hge hle
      have hused := used_set_none hi
      have hwas := h.outstanding
      -- Freeing the slot leaves the other slots as they were.
      have hslots : ∀ {j s}, Holds r.1.transmit j s ↔ j ≠ i ∧ Holds w.sender.transmit j s := by
        intro j s
        rw [htransmit, holds_set]
        simp
      simp only [step, hmark] at hagree ⊢
      refine ⟨hagree, hconfig.trans h.sender_config, h.receiver_config, ?_, ?_, ?_, ?_, ?_, ?_⟩
      · dsimp only; rw [hout, htransmit]; omega
      · have := h.outstanding_le
        dsimp only; rw [hout]; omega
      · have hwin := h.window_le
        rw [← h.sender_config] at hwin ⊢
        exact hle hwin
      · intro j k a b ha hb
        exact h.distinct j k a b (hslots.1 ha).2 (hslots.1 hb).2
      · exact fun j s hj => h.recent j s (hslots.1 hj).2
      · intro b hlo hhi
        obtain ⟨j, s, hj, hjb⟩ := h.covered b hlo hhi
        have hji : j ≠ i := by
          rintro rfl
          have := hack j s hj (by rw [hj.unique hi]; exact hseq)
          dsimp only at hlo
          omega
        exact ⟨j, s, hslots.2 ⟨hji, hj⟩, hjb⟩
  | deliver k answers =>
    cases hk : w.wire[k]? with
    | none => simpa [step, hk] using h
    | some x =>
      simp only [step, hk] at hagree ⊢
      refine ⟨hagree, h.sender_config, by rw [receive_config]; exact h.receiver_config,
        h.outstanding, h.outstanding_le, h.window_le, h.distinct, h.recent, fun b hlo hhi => ?_⟩
      rw [length_append] at hlo
      exact h.covered b (by omega) hhi

/-- Two channels just made keep the bounds. -/
theorem ahead_start {c : State} (h : init config = .ok c) (lead : ℕ) :
    Ahead config lead (start c c) := by
  obtain ⟨hvalid, hconfig, -, -, hwindow, hout, htransmit, -⟩ := init_ok h
  have hempty : ∀ i slot, ¬ Holds (start c c).sender.transmit i slot := by
    intro i slot hi
    rw [start, htransmit] at hi
    exact not_holds_replicate hi
  refine ⟨agree_start h h, hconfig, hconfig, ?_, ?_, ?_, fun i j a b ha => absurd ha (hempty i a),
    fun i slot hi => absurd hi (hempty i slot), fun b _ hb => by simp [start] at hb⟩
  · simp only [start]
    rw [hout, htransmit]
    rfl
  · simp only [start]; omega
  · simp only [start]
    rw [hwindow]
    exact hvalid.initial_le

/-- What acknowledged peers keep: acknowledgements reach at most a window above the delivered
messages. -/
structure Honest (config : Config) (w : World) : Prop where
  ahead : Ahead config config.max_window w
  accepted : ∀ a ∈ w.accepted, a < w.delivered.length + config.max_window

/-- Every acknowledged and timely action keeps peers honest. -/
theorem step_honest (hmax : config.max_window ≤ maxWindow) (w : World) (action : Action)
    (h : Honest config w) (hok : Acknowledged w action ∧ Timely w action) :
    Honest config (step w action) := by
  have hacks : AcksWithin config.max_window w action := by
    cases action with
    | markDelivered sequence => exact fun i slot hi hseq => h.accepted _ (hok.1 i slot hi hseq)
    | tick now answers => exact hok.1
    | _ => trivial
  refine ⟨step_ahead hmax w action h.ahead hok.2 hacks, ?_⟩
  cases action with
  | send message_type payload answer now =>
    cases hsend : send w.sender message_type payload answer now with
    | error status => simpa [step, hsend] using h.accepted
    | ok r => simpa [step, hsend] using h.accepted
  | tick now answers => exact h.accepted
  | markDelivered sequence =>
    cases hmark : markDelivered w.sender sequence with
    | error status => simpa [step, hmark] using h.accepted
    | ok r => simpa [step, hmark] using h.accepted
  | deliver k answers =>
    cases hk : w.wire[k]? with
    | none => simpa [step, hk] using h.accepted
    | some x =>
      obtain ⟨a, envelope⟩ := x
      obtain ⟨hlo, hhi⟩ := h.ahead.inHalfRange hmax hok.2 a envelope hk
      have henv := h.ahead.agree.wire (a, envelope) (mem_of_getElem? hk)
      obtain ⟨-, hwithin, -⟩ :=
        h.ahead.agree.receives.receive h.ahead.agree.window henv hlo hhi answers
      rw [h.ahead.receiver_config] at hwithin
      simp only [step, hk]
      intro b hb
      rw [length_append]
      have hold : b ∈ w.accepted → b < w.delivered.length + config.max_window := h.accepted b
      split_ifs at hb with hstatus
      · rcases mem_cons.1 hb with rfl | hb
        · have := hwithin hstatus
          omega
        · have := hold hb
          omega
      · have := hold hb
        omega

/-- For peers of one configuration whose acknowledgements and envelopes are not late by a wrap of
the counter, after every run: `rns_channel_receive` refuses an emitted envelope with
`RNS_ERROR_PROTOCOL` exactly when its index is a window or more above the delivered messages; the
sender is at most two windows ahead of them; its slots hold different sequences; and when only
delivered messages were acknowledged, the sender is at most one window ahead and no emitted
envelope is refused. -/
theorem lead_and_refusals {config : Config} {c : State} (hinit : init config = .ok c)
    (actions : List Action) (hack : Run.Each step Acknowledged (World.start c c) actions)
    (htimely : Run.Each step Timely (World.start c c) actions) :
    let w := final step (World.start c c) actions
    (∀ x ∈ w.wire, w.delivered.length ≤ x.1 + 2^15 → ∀ answers, (∀ k, answers k ≠ .protocol) →
      ((receive w.receiver x.2 answers).status = .protocol ↔
        w.delivered.length + config.max_window ≤ x.1)) ∧
    w.sent.length ≤ w.delivered.length + 2 * config.max_window ∧
    Slots.DistinctKeys Slot.sequence w.sender.transmit ∧
    (Run.Each step AcksDelivered (World.start c c) actions →
      w.sent.length ≤ w.delivered.length + config.max_window ∧
      ∀ x ∈ w.wire, w.delivered.length ≤ x.1 + 2^15 → ∀ answers, (∀ k, answers k ≠ .protocol) →
        (receive w.receiver x.2 answers).status ≠ .protocol) := by
  intro w
  have hmax : config.max_window ≤ maxWindow := (init_ok hinit).1.max_le
  have h : Honest config w := invariant (step_honest hmax)
    ⟨ahead_start hinit _, by simp [World.start]⟩ (hack.and htimely)
  have hlead := h.ahead.sent_le
  have hrefused : ∀ x ∈ w.wire, w.delivered.length ≤ x.1 + 2^15 → ∀ answers,
      (∀ k, answers k ≠ .protocol) → ((receive w.receiver x.2 answers).status = .protocol ↔
        w.delivered.length + config.max_window ≤ x.1) := by
    intro x hx hlate answers hans
    have henv := h.ahead.agree.wire x hx
    obtain ⟨k, hk⟩ := mem_iff_getElem?.1 hx
    have htime : Timely w (.deliver k answers) := by
      intro a envelope hk'
      rw [hk] at hk'
      cases hk'
      exact hlate
    obtain ⟨hlo, hhi⟩ := h.ahead.inHalfRange hmax htime x.1 x.2 hk
    have := (h.ahead.agree.receives.receive h.ahead.agree.window henv hlo hhi answers).2.2 hans
    rwa [h.ahead.receiver_config] at this
  refine ⟨hrefused, by omega, h.ahead.distinct_sequences, fun hdelivered => ?_⟩
  -- With acknowledgements of delivered messages only, the same invariant holds with lead zero.
  have hwithin : Run.Each step (AcksWithin 0) (World.start c c) actions := by
    refine (hack.and hdelivered).mono fun w a ha => ?_
    cases a with
    | markDelivered sequence => exact ha.2
    | tick now answers => exact ha.1
    | _ => trivial
  have hstep : ∀ w a, Ahead config 0 w → Timely w a ∧ AcksWithin 0 w a →
      Ahead config 0 (step w a) :=
    fun w a h ha => step_ahead (zero_le _) w a h ha.1 ha.2
  have hzero : Ahead config 0 w := invariant hstep (ahead_start hinit 0) (htimely.and hwithin)
  have hle := hzero.sent_le
  refine ⟨by omega, fun x hx hlate answers hans hrefuse => ?_⟩
  have hbeyond := (hrefused x hx hlate answers hans).1 hrefuse
  obtain ⟨m, hm, -⟩ := h.ahead.agree.wire x hx
  have := (List.getElem?_eq_some_iff.1 hm).1
  omega

/-- In a run short of a wrap nothing is late by one. -/
theorem timely_of_small (hsent : w.sent.length < 2^16) (hdelivered : w.delivered.length ≤ 2^15)
    (action : Action) : Timely w action := by
  cases action with
  | send => exact fun i slot hi => lt_of_lt_of_le hsent (le_add_left _ _)
  | deliver => exact fun a envelope hk => hdelivered.trans (le_add_left _ _)
  | _ => trivial

/-- A message that is delivered, acknowledged and followed by another one. -/
def acknowledgedPair : List Action :=
  [.send 7 [1] .ok 0, .deliver 0 fun _ => .ok, .markDelivered 0, .send 8 [2] .ok 0]

/-- The bounds hold after a run in which a message is delivered and acknowledged. -/
theorem lead_and_refusals_acknowledgedPair :
    let w := final step (World.start pairChannel pairChannel) acknowledgedPair
    w.sent.length = 2 ∧ w.delivered.length = 1 ∧
      w.sent.length ≤ w.delivered.length + pairConfig.max_window := by
  have horigin : ∀ i, (step (step (World.start pairChannel pairChannel) (.send 7 [1] .ok 0))
      (.deliver 0 fun _ => .ok)).origin i = 0 := by
    intro i
    by_cases hi : i = 0
    · subst hi; rfl
    · exact update_of_ne hi _ _
  have hmain := lead_and_refusals init_pairConfig acknowledgedPair
    ⟨trivial, trivial, fun i _ _ _ => by
      rw [horigin i]
      decide, trivial, trivial⟩
    ⟨timely_of_small (by decide) (by decide) _, timely_of_small (by decide) (by decide) _,
      timely_of_small (by decide) (by decide) _, timely_of_small (by decide) (by decide) _,
      trivial⟩
  refine ⟨by decide, by decide, (hmain.2.2.2 ⟨trivial, trivial, fun i _ _ _ => ?_, trivial,
    trivial⟩).1⟩
  rw [horigin i]
  decide

/-! ## What acknowledgements alone do not give -/

/-- The second of two messages arrives first and is acknowledged, and a third one is sent. -/
def outrun : List Action :=
  [.send 0 [] .ok 0, .send 0 [] .ok 0, .deliver 1 fun _ => .ok, .markDelivered 1, .send 0 [] .ok 0]

/-- The first message is delivered and never acknowledged. -/
def firstUnacknowledged : List Action := [.send 0 [] .ok 0, .deliver 0 fun _ => .ok]

/-- Message `k` is sent, delivered and acknowledged. -/
def roundTrip (k : ℕ) : List Action :=
  [.send 0 [] .ok 0, .deliver k fun _ => .ok, .markDelivered (sequenceOf k)]

/-- The first message stays unacknowledged while `n` more make their round trip. -/
def longRun : ℕ → List Action
  | 0 => firstUnacknowledged
  | n + 1 => longRun n ++ roundTrip (n + 1)

/-- The envelope of an empty message of type `0`. -/
def emptyEnvelope (sequence : UInt16) : List UInt8 :=
  writeU16 0 ++ writeU16 sequence ++ writeU16 0

/-- The slot of message `r`. -/
def tripSlot (r : ℕ) : Slot :=
  ⟨0, sequenceOf r, 0 + pairConfig.retry_timeout, emptyEnvelope (sequenceOf r)⟩

/-- The sender of `longRun` after `r` messages: slot `0` still holds the first one. -/
def steadySender (r success_count : ℕ) (slots : List (Option Slot)) (outstanding : ℕ) : State :=
  { pairChannel with
    next_sequence := sequenceOf r
    success_count
    outstanding
    transmit := some (tripSlot 0) :: slots }

/-- The world of `longRun` after `r` messages, all of them delivered. -/
structure Steady (r : ℕ) (w : World) : Prop where
  sender : ∃ success_count,
    w.sender = steadySender r success_count (none :: replicate 30 none) 1
  receiver : w.receiver = { pairChannel with expected_sequence := sequenceOf r }
  sent : w.sent.length = r
  origin : w.origin 0 = 0
  wire : w.wire.length = r
  first : w.wire[0]? = some (0, emptyEnvelope (sequenceOf 0))
  accepted : ∀ a < r, a ∈ w.accepted

/-- The envelope that the receiver expects next is delivered at once. -/
theorem receive_emptyEnvelope (sequence : UInt16) :
    receive { pairChannel with expected_sequence := sequence } (emptyEnvelope sequence)
        (fun _ => .ok) =
      ⟨.ok, { pairChannel with expected_sequence := sequence + 1 }, [⟨0, sequence, []⟩], none⟩ := by
  have hencode : envelopeEncode 0 sequence [] maxEnvelopeBytes = .ok (emptyEnvelope sequence) := rfl
  have hdecode := envelopeDecode_encode hencode
  have hbefore : sequenceBefore sequence sequence = false := by simp [sequenceBefore]
  have hdistance : sequenceDistance sequence sequence = 0 := by simp [sequenceDistance]
  have hnone : ∀ p : Slot → Bool, find p (replicate maxWindow none) = none :=
    fun p => rfl
  have hfree : firstFree (replicate maxWindow (none : Option Slot)) = some 0 := rfl
  have hdrain : drainReceive (store { pairChannel with expected_sequence := sequence } 0 sequence
      (emptyEnvelope sequence)) (fun _ => .ok) =
      (.ok, { pairChannel with expected_sequence := sequence + 1 }, [⟨0, sequence, []⟩]) := by
    have hused : used (store { pairChannel with expected_sequence := sequence } 0 sequence
      (emptyEnvelope sequence)).receive = 1 := rfl
    have hfind : find (fun slot => decide (slot.sequence = sequence))
        ((replicate maxWindow none).set 0
          (some (⟨0, sequence, 0, emptyEnvelope sequence⟩ : Slot))) =
        some (0, ⟨0, sequence, 0, emptyEnvelope sequence⟩) := by
      simp [maxWindow, find]
    rw [drainReceive, hused]
    unfold drainLoop
    erw [hfind]
    simp only [hdecode]
    rfl
  simp only [receive, hdecode, hbefore, hdistance, pairChannel, hnone, hfree]
  simp only [pairChannel] at hdrain
  rw [hdrain]
  rfl

/-- The steady sender puts the next message into slot `1`. -/
theorem send_steadySender (r success_count : ℕ) :
    send (steadySender r success_count (none :: replicate 30 none) 1) 0 [] .ok 0 =
      .ok ⟨sequenceOf r, 1, emptyEnvelope (sequenceOf r),
        steadySender (r + 1) success_count (some (tripSlot r) :: replicate 30 none) 2⟩ := by
  have h : steadySender (r + 1) success_count (some (tripSlot r) :: replicate 30 none) 2 =
      { steadySender r success_count (some (tripSlot r) :: replicate 30 none) 2 with
        next_sequence := sequenceOf r + 1 } := by
    rw [sequenceOf_succ]
    rfl
  rw [h]
  rfl

/-- One more round trip leaves the sender and the receiver one message further. -/
theorem Steady.roundTrip {r : ℕ} (h : Steady r w) (hr : sequenceOf r ≠ sequenceOf 0) (hpos : 0 < r) :
    Run.Each step Acknowledged w (roundTrip r) ∧
      Steady (r + 1) (final step w (roundTrip r)) := by
  obtain ⟨success_count, hsender⟩ := h.sender
  have hsend : step w (.send 0 [] .ok 0) = { w with
      sender := steadySender (r + 1) success_count (some (tripSlot r) :: replicate 30 none) 2
      sent := w.sent ++ [(0, [])]
      origin := Function.update w.origin 1 r
      wire := w.wire ++ [(r, emptyEnvelope (sequenceOf r))] } := by
    simp only [step, hsender, send_steadySender, h.sent]
  have hdeliver : step (step w (.send 0 [] .ok 0)) (.deliver r fun _ => .ok) =
      { step w (.send 0 [] .ok 0) with
        receiver := { pairChannel with expected_sequence := sequenceOf (r + 1) }
        delivered := w.delivered ++ [(0, [])]
        accepted := r :: w.accepted } := by
    have hwire : (w.wire ++ [(r, emptyEnvelope (sequenceOf r))])[r]? =
        some (r, emptyEnvelope (sequenceOf r)) := by
      rw [getElem?_append_right (by rw [h.wire]), h.wire]
      simp
    rw [hsend]
    simp only [step, hwire, h.receiver, receive_emptyEnvelope, sequenceOf_succ, if_true]
    rfl
  have hmark : step (step (step w (.send 0 [] .ok 0)) (.deliver r fun _ => .ok))
      (.markDelivered (sequenceOf r)) =
      { step (step w (.send 0 [] .ok 0)) (.deliver r fun _ => .ok) with
        sender := steadySender (r + 1) ((success_count + 1) % 2^8)
          (none :: replicate 30 none) 1 } := by
    rw [hdeliver, hsend]
    have hfind : find (fun slot => decide (slot.sequence = sequenceOf r))
        (steadySender (r + 1) success_count
          (some (tripSlot r) :: replicate 30 none) 2).transmit = some (1, tripSlot r) := by
      simp [steadySender, find, hr.symm, tripSlot]
    simp only [step, markDelivered, hfind]
    simp [countSuccess, steadySender, pairChannel, pairConfig]
  constructor
  · refine ⟨trivial, trivial, ?_, trivial⟩
    rw [hdeliver, hsend]
    -- The slot with the sequence is slot `1`, whose index was just accepted.
    rintro (_ | _ | i) slot hi hseq
    · obtain rfl := Option.some.inj (holds_cons_zero.1 hi)
      exact absurd hseq.symm hr
    · simp
    · exact absurd (holds_cons_succ.1 (holds_cons_succ.1 hi)) not_holds_replicate
  · simp only [Channel.roundTrip, final_cons, final_nil]
    rw [hmark, hdeliver, hsend]
    refine ⟨⟨_, rfl⟩, rfl, by simp [h.sent], ?_, by simp [h.wire], ?_, ?_⟩
    · simpa using h.origin
    · rw [getElem?_append_left (by rw [h.wire]; exact hpos)]
      exact h.first
    · intro a ha
      rcases Nat.lt_succ_iff_lt_or_eq.1 ha with ha | rfl
      · exact mem_cons_of_mem _ (h.accepted a ha)
      · exact mem_cons_self

/-- The steady world of `longRun n`, and that its acknowledgements are honest. -/
theorem longRun_steady (hn : n < 2^16) :
    Run.Each step Acknowledged (start pairChannel pairChannel) (longRun n) ∧
      Steady (n + 1) (final step (start pairChannel pairChannel) (longRun n)) := by
  induction n with
  | zero =>
    refine ⟨⟨trivial, trivial, trivial⟩, ⟨0, rfl⟩, rfl, rfl, rfl, rfl, rfl, ?_⟩
    intro a ha
    obtain rfl : a = 0 := by omega
    decide
  | succ n ih =>
    obtain ⟨hack, hsteady⟩ := ih (by omega)
    have hne : sequenceOf (n + 1) ≠ sequenceOf 0 := by
      intro h0
      have := congrArg UInt16.toNat h0
      rw [toNat_sequenceOf, toNat_sequenceOf] at this
      omega
    obtain ⟨hack', hsteady'⟩ := hsteady.roundTrip hne (succ_pos n)
    rw [longRun, each_append, final_append]
    exact ⟨⟨hack, hack'⟩, hsteady'⟩

/-- An envelope that arrives `40000` messages late is refused. -/
theorem longRun_refused (hn : n = 40000) :
    Run.Each step Acknowledged (start pairChannel pairChannel) (longRun n) ∧
      ∃ x ∈ (final step (start pairChannel pairChannel) (longRun n)).wire,
        (receive (final step (start pairChannel pairChannel) (longRun n)).receiver x.2
          fun _ => .ok).status = .protocol := by
  obtain ⟨hack, h⟩ := longRun_steady (n := n) (by omega)
  refine ⟨hack, _, mem_of_getElem? h.first, ?_⟩
  rw [h.receiver, hn]
  decide

/-- After `2^16` messages the slot of the next one has the sequence of slot `0`. -/
theorem longRun_same_sequence (hn : n = 65535) :
    Run.Each step Acknowledged (start pairChannel pairChannel)
        (longRun n ++ [.send 0 [] .ok 0]) ∧
      ¬ Slots.DistinctKeys Slot.sequence (final step (start pairChannel pairChannel)
        (longRun n ++ [.send 0 [] .ok 0])).sender.transmit := by
  obtain ⟨hack, h⟩ := longRun_steady (n := n) (by omega)
  refine ⟨each_append.2 ⟨hack, trivial, trivial⟩, fun hdistinct => ?_⟩
  rw [final_append] at hdistinct
  obtain ⟨success_count, hsender⟩ := h.sender
  simp only [final_cons, final_nil, step, hsender, send_steadySender] at hdistinct
  have hsame : (tripSlot 0).sequence = (tripSlot (n + 1)).sequence := by rw [hn]; decide
  exact absurd (hdistinct 0 1 (tripSlot 0) (tripSlot (n + 1)) rfl rfl hsame) (by decide)

/-- What acknowledgements alone do not give, with a window of two: the second of two messages,
received and acknowledged before the first, lets the sender run three ahead, and the third is
refused with `RNS_ERROR_PROTOCOL`; an envelope that arrives `40000` messages late is refused as
well; and when the first message is never acknowledged, the slot of the message `2^16` later has its
sequence. -/
theorem protocol_error_between_honest_peers : init pairConfig = .ok pairChannel ∧
    (Run.Each step Acknowledged (World.start pairChannel pairChannel) outrun ∧
      (final step (World.start pairChannel pairChannel) outrun).sent.length = 3 ∧
      (final step (World.start pairChannel pairChannel) outrun).delivered.length = 0 ∧
      ∃ x ∈ (final step (World.start pairChannel pairChannel) outrun).wire,
        (receive (final step (World.start pairChannel pairChannel) outrun).receiver x.2
          fun _ => .ok).status = .protocol) ∧
    (Run.Each step Acknowledged (World.start pairChannel pairChannel) (longRun 40000) ∧
      ∃ x ∈ (final step (World.start pairChannel pairChannel) (longRun 40000)).wire,
        (receive (final step (World.start pairChannel pairChannel) (longRun 40000)).receiver x.2
          fun _ => .ok).status = .protocol) ∧
    (Run.Each step Acknowledged (World.start pairChannel pairChannel)
        (longRun 65535 ++ [.send 0 [] .ok 0]) ∧
      ¬ Slots.DistinctKeys Slot.sequence (final step (World.start pairChannel pairChannel)
        (longRun 65535 ++ [.send 0 [] .ok 0])).sender.transmit) := by
  refine ⟨init_pairConfig, ⟨⟨trivial, trivial, trivial, ?_, trivial, trivial⟩, by decide, by decide,
    (2, emptyEnvelope 2), by decide, by decide⟩, longRun_refused rfl, longRun_same_sequence rfl⟩
  rintro (_ | _ | i) slot hi hseq
  · obtain rfl := Option.some.inj (holds_cons_zero.1 hi)
    exact absurd hseq (by decide)
  · decide
  · exact absurd (holds_cons_succ.1 (holds_cons_succ.1 hi)) not_holds_replicate

end Reticulum.Channel
