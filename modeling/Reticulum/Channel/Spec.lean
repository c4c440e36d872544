import Reticulum.Channel.Model

/-!
# What the calls of a channel do

One lemma for each call of `Model.lean`, in the form in which the proofs about runs use it. A
successful `send`, `markDelivered` or `init` is inverted into its checks and its new state. For
`receive`, `receive_cases` lists its outcomes, and `drainLoop_spec` says what draining does to the
slots: it hands out consecutive sequence numbers, frees exactly their slots, and returns `RNS_OK`
only when no slot holds the next one. `tick_spec` says that a tick changes no envelope and sends
only envelopes that a slot holds.
-/

namespace Reticulum.Channel

open List Slots

/-- A configuration that `rns_channel_init` accepts. -/
structure Config.Valid (config : Config) : Prop where
  initial_pos : 0 < config.initial_window
  initial_le : config.initial_window ≤ config.max_window
  max_le : config.max_window ≤ maxWindow

/-- A successful `rns_channel_init` and the channel it makes. -/
theorem init_ok {config : Config} {c : State} (h : init config = .ok c) :
    config.Valid ∧ c.config = config ∧ c.next_sequence = 0 ∧ c.expected_sequence = 0 ∧
      c.window = config.initial_window ∧ c.outstanding = 0 ∧
      c.transmit = List.replicate maxWindow none ∧ c.receive = List.replicate maxWindow none := by
  unfold init at h
  split_ifs at h with hbad
  push Not at hbad
  obtain ⟨h1, h2, h3, -⟩ := hbad
  simp only [Except.ok.injEq] at h
  subst h
  exact ⟨⟨by omega, h2, h3⟩, rfl, rfl, rfl, rfl, rfl, rfl, rfl⟩

/-- A successful `rns_channel_send`: the checks that it passed and the channel after it. -/
theorem send_ok {c : State} {message_type : UInt16} {payload : List UInt8} {answer : Status}
    {now : ℚ} {r : Sent} (h : send c message_type payload answer now = .ok r) :
    c.outstanding < c.window ∧ c.transmit[r.slot]? = some none ∧
      envelopeEncode message_type c.next_sequence payload maxEnvelopeBytes = .ok r.wire ∧
      r.channel = { c with
        transmit := c.transmit.set r.slot (some
          ⟨0, c.next_sequence, now + c.config.retry_timeout, r.wire⟩)
        next_sequence := c.next_sequence + 1
        outstanding := c.outstanding + 1 } := by
  unfold send at h
  by_cases hwin : c.outstanding ≥ c.window
  · simp [hwin] at h
  rw [if_neg hwin] at h
  cases hfree : firstFree c.transmit with
  | none => simp [hfree] at h
  | some slot =>
    cases henc : envelopeEncode message_type c.next_sequence payload maxEnvelopeBytes with
    | error status => simp [hfree, henc] at h
    | ok wire =>
      by_cases hans : answer = .ok
      · simp only [hfree, henc, hans, ne_eq, not_true_eq_false, if_false, Except.ok.injEq] at h
        subst h
        exact ⟨by omega, firstFree_eq_some hfree, rfl, rfl⟩
      · simp [hfree, henc, hans] at h

/-- A successful `rns_channel_mark_delivered` frees the slot of the sequence. -/
theorem markDelivered_ok {c c' : State} {sequence : UInt16} {event : Event}
    (h : markDelivered c sequence = .ok (c', event)) :
    ∃ i slot, Holds c.transmit i slot ∧ slot.sequence = sequence ∧
      c' = countSuccess { c with
        transmit := c.transmit.set i none, outstanding := c.outstanding - 1 } := by
  unfold markDelivered at h
  cases hf : find (fun slot => decide (slot.sequence = sequence)) c.transmit with
  | none => simp [hf] at h
  | some x =>
    obtain ⟨i, slot⟩ := x
    simp only [hf, Except.ok.injEq, Prod.mk.injEq] at h
    obtain ⟨hh, hseq, -⟩ := find_eq_some hf
    exact ⟨i, slot, hh, by simpa using hseq, h.1.symm⟩

/-- Counting a success keeps everything but the window and the count, and a window within the
configured bounds stays there. -/
theorem countSuccess_spec (c : State) :
    let r := countSuccess c
    r.config = c.config ∧ r.next_sequence = c.next_sequence ∧
      r.outstanding = c.outstanding ∧ r.transmit = c.transmit ∧
      c.window ≤ r.window ∧
      (c.window ≤ c.config.max_window → r.window ≤ c.config.max_window) := by
  unfold countSuccess
  dsimp only
  split_ifs with h
  · exact ⟨rfl, rfl, rfl, rfl, Nat.le_succ _, fun _ => h.2⟩
  · exact ⟨rfl, rfl, rfl, rfl, le_refl _, fun hw => hw⟩

/-! ## Draining -/

/-- What a run of the drain loop with result `r` did to the channel `c`. -/
structure Drains (c : State) (r : Status × State × List Envelope) : Prop where
  /-- Only the receive slots and the expected sequence change, the latter by one for each message
  handed out. -/
  frame : r.2.1 = { c with
    receive := r.2.1.receive
    expected_sequence := c.expected_sequence + UInt16.ofNat r.2.2.length }
  /-- The table keeps its slots. -/
  length : r.2.1.receive.length = c.receive.length
  /-- Each message handed out came from one slot. -/
  count : r.2.2.length + used r.2.1.receive = used c.receive
  /-- A slot in use at the end was in use at the start, with the same content. -/
  kept : ∀ i slot, Holds r.2.1.receive i slot → Holds c.receive i slot
  /-- A slot in use at the start still is, or its sequence is one of those handed out. -/
  freed : ∀ i slot, Holds c.receive i slot → Holds r.2.1.receive i slot ∨
    ∃ j < r.2.2.length, slot.sequence = c.expected_sequence + UInt16.ofNat j

/-- A drain that hands out nothing leaves the channel as it is. -/
theorem Drains.refl (c : State) (status : Status) : Drains c (status, c, []) where
  frame := by simp
  length := rfl
  count := by simp
  kept := fun _ _ h => h
  freed := fun _ _ h => .inl h

/-- One turn of the drain loop, which hands out `message` from slot `i`, before a drain of what is
left. -/
theorem Drains.cons {c : State} {i : ℕ} {found : Slot} {message : Envelope}
    {r : Status × State × List Envelope} (hi : Holds c.receive i found)
    (hseq : found.sequence = c.expected_sequence)
    (h : Drains { c with receive := c.receive.set i none,
                         expected_sequence := c.expected_sequence + 1 } r) :
    Drains c (r.1, r.2.1, message :: r.2.2) where
  frame := by
    have hf := h.frame
    rw [length_cons, Nat.add_comm, UInt16.ofNat_add, ← UInt16.add_assoc]
    exact hf
  length := by rw [h.length]; simp
  count := by
    have hc := h.count
    have hu := used_set_none hi
    simp only [length_cons] at hc ⊢
    omega
  kept := by
    intro j slot hj
    obtain ⟨-, -, hx⟩ | ⟨-, hj⟩ := holds_set.1 (h.kept j slot hj)
    · cases hx
    · exact hj
  freed := by
    intro j slot hj
    by_cases hji : j = i
    · -- The slot handed out in this turn.
      subst hji
      obtain rfl := hj.unique hi
      exact .inr ⟨0, by simp, by simp [hseq]⟩
    · rcases h.freed j slot (holds_set.2 (.inr ⟨hji, hj⟩)) with hk | ⟨m, hm, hs⟩
      · exact .inl hk
      · refine .inr ⟨m + 1, by simpa using hm, ?_⟩
        rw [hs, Nat.add_comm m 1, UInt16.ofNat_add, ← UInt16.add_assoc]
        rfl

/-- What the drain loop does, and that it stops with `RNS_OK` only when no slot holds the next
sequence. `n` is at least the number of slots in use, so the loop always comes to its end. -/
theorem drainLoop_spec (answers : ℕ → Status) (n k : ℕ) (c : State)
    (hn : used c.receive ≤ n) :
    let r := drainLoop answers n k c
    Drains c r ∧
      (r.1 = .ok → ∀ i slot,
        Holds r.2.1.receive i slot →
        slot.sequence ≠ r.2.1.expected_sequence) := by
  induction n generalizing k c with
  | zero =>
    refine ⟨.refl c _, fun _ i slot hi => ?_⟩
    have := used_set_none (t := c.receive) hi
    omega
  | succ n ih =>
    cases hf : find (fun slot => decide (slot.sequence = c.expected_sequence)) c.receive with
    | none =>
      simp only [drainLoop, hf]
      refine ⟨.refl c _, fun _ i slot hi => ?_⟩
      simpa using find_eq_none_iff.1 hf i slot hi
    | some x =>
      obtain ⟨i, found⟩ := x
      obtain ⟨hi, hseq, -⟩ := find_eq_some hf
      have hseq' : found.sequence = c.expected_sequence := by simpa using hseq
      cases hdec : envelopeDecode found.envelope with
      | error status =>
        simp only [drainLoop, hf, hdec]
        refine ⟨.refl c _, fun hok j slot hj => ?_⟩
        -- The decoder fails with `RNS_ERROR_PROTOCOL` only.
        unfold envelopeDecode at hdec
        split_ifs at hdec <;> simp_all
      | ok message =>
        by_cases hans : answers k = .ok
        · have hused := used_set_none hi
          have hrest := ih (k + 1) { c with
            receive := c.receive.set i none, expected_sequence := c.expected_sequence + 1 }
            (by dsimp only; omega)
          simp only [drainLoop, hf, hdec, hans, ne_eq, not_true_eq_false, if_false]
          exact ⟨.cons hi hseq' hrest.1, hrest.2⟩
        · simp only [drainLoop, hf, hdec, hans, ne_eq, not_false_eq_true, if_true]
          exact ⟨.refl c _, fun hok => hok.elim⟩

/-! ## Receiving -/

/-- The envelope is one that `rns_channel_receive` answers as a duplicate: its sequence is before
the expected one, or within the window and in a receive slot. -/
def Duplicate (c : State) (sequence : UInt16) : Prop :=
  sequenceBefore sequence c.expected_sequence = true ∨
    (sequenceDistance sequence c.expected_sequence < c.config.max_window ∧
      ∃ i slot, Holds c.receive i slot ∧ slot.sequence = sequence)

/-- The outcomes of `rns_channel_receive`: a malformed envelope, a duplicate, one beyond the window,
a full table, or an envelope that is stored and drained. -/
theorem receive_cases (c : State) (envelope : List UInt8) (answers : ℕ → Status) :
    (∃ status, envelopeDecode envelope = .error status ∧
      receive c envelope answers = ⟨status, c, [], none⟩) ∨
    ∃ message, envelopeDecode envelope = .ok message ∧ ((Duplicate c message.sequence ∧
          receive c envelope answers = ⟨.ok, c, [], some (.duplicate, message.sequence)⟩) ∨
        (¬ Duplicate c message.sequence ∧
          sequenceBefore message.sequence c.expected_sequence = false ∧
          c.config.max_window ≤ sequenceDistance message.sequence c.expected_sequence ∧
          receive c envelope answers = ⟨.protocol, c, [], none⟩) ∨ (¬ Duplicate c message.sequence ∧
          sequenceBefore message.sequence c.expected_sequence = false ∧
          sequenceDistance message.sequence c.expected_sequence < c.config.max_window ∧
          used c.receive = c.receive.length ∧
          receive c envelope answers = ⟨.overflow, c, [], none⟩) ∨ (¬ Duplicate c message.sequence ∧
          sequenceBefore message.sequence c.expected_sequence = false ∧
          sequenceDistance message.sequence c.expected_sequence < c.config.max_window ∧
          ∃ i, c.receive[i]? = some none ∧ (receive c envelope answers).status =
              (drainReceive (store c i message.sequence envelope) answers).1 ∧
            (receive c envelope answers).channel =
              (drainReceive (store c i message.sequence envelope) answers).2.1 ∧
            (receive c envelope answers).delivered =
              (drainReceive (store c i message.sequence envelope) answers).2.2)) := by
  cases hdec : envelopeDecode envelope with
  | error status => exact .inl ⟨status, rfl, by simp [receive, hdec]⟩
  | ok message =>
    refine .inr ⟨message, rfl, ?_⟩
    by_cases hbefore : sequenceBefore message.sequence c.expected_sequence = true
    · exact .inl ⟨.inl hbefore, by simp [receive, hdec, hbefore]⟩
    rw [Bool.not_eq_true] at hbefore
    by_cases hdist : sequenceDistance message.sequence c.expected_sequence ≥ c.config.max_window
    · refine .inr (.inl ⟨?_, hbefore, hdist, by simp [receive, hdec, hbefore, hdist]⟩)
      rintro (h | ⟨h, -⟩)
      · rw [hbefore] at h; cases h
      · omega
    · cases hf : find (fun slot => decide (slot.sequence = message.sequence)) c.receive with
      | some x =>
        obtain ⟨hh, hseq, -⟩ := find_eq_some (i := x.1) (a := x.2) hf
        refine .inl ⟨.inr ⟨by omega, x.1, x.2, hh, by simpa using hseq⟩, ?_⟩
        simp [receive, hdec, hdist, hf]
      | none =>
        have hnew : ¬ Duplicate c message.sequence := by
          rintro (h | ⟨-, i, slot, hh, hseq⟩)
          · rw [hbefore] at h; cases h
          · have := find_eq_none_iff.1 hf i slot hh
            simp [hseq] at this
        cases hfree : firstFree c.receive with
        | none =>
          refine .inr (.inr (.inl ⟨hnew, hbefore, by omega,
            firstFree_eq_none_iff.1 hfree, ?_⟩))
          simp [receive, hdec, hbefore, hdist, hf, hfree]
        | some i =>
          refine .inr (.inr (.inr ⟨hnew, hbefore, by omega, i, firstFree_eq_some hfree, ?_⟩))
          simp [receive, hdec, hbefore, hdist, hf, hfree]

/-! ## Ticking -/

/-- What the loop of `rns_channel_tick` did with result `r`, from slot `i` on. -/
structure Ticks (i : ℕ) (slots : List (Option Slot)) (acc : TickAcc)
    (r : List (Option Slot) × TickAcc) : Prop where
  /-- Slots keep their sequence and envelope. -/
  kept : ∀ j slot', Holds r.1 j slot' → ∃ slot, Holds slots j slot ∧
    slot'.sequence = slot.sequence ∧ slot'.envelope = slot.envelope
  /-- What is sent again is the envelope of a slot. -/
  wires : ∀ x ∈ r.2.wires, x ∈ acc.wires ∨
    ∃ j slot, Holds slots j slot ∧ x = (i + j, slot.envelope)
  events : acc.events <+: r.2.events
  /-- Unless a slot timed out, no slot is freed and the counters stay. -/
  quiet : (∀ s, (Event.timeout, s) ∉ r.2.events) →
    r.2.window = acc.window ∧ r.2.outstanding = acc.outstanding ∧
    used r.1 = used slots ∧ ∀ j slot, Holds slots j slot → ∃ slot', Holds r.1 j slot'

/-- One turn of the loop, which makes `y` of the slot `x`, before the rest of it. -/
theorem Ticks.cons {i : ℕ} {slots : List (Option Slot)} {acc acc' : TickAcc} {x y : Option Slot}
    {r : List (Option Slot) × TickAcc} (h : Ticks (i + 1) slots acc' r)
    (hkept : ∀ slot', y = some slot' → ∃ slot, x = some slot ∧
      slot'.sequence = slot.sequence ∧ slot'.envelope = slot.envelope)
    (hwires : ∀ w ∈ acc'.wires, w ∈ acc.wires ∨ ∃ slot, x = some slot ∧ w = (i, slot.envelope))
    (hevents : acc.events <+: acc'.events) (hquiet : (∀ s, (Event.timeout, s) ∉ acc'.events) →
      acc'.window = acc.window ∧ acc'.outstanding = acc.outstanding ∧ y.isSome = x.isSome) :
    Ticks i (x :: slots) acc (y :: r.1, r.2) where
  kept := by
    rintro (_ | j) slot' hj
    · obtain ⟨slot, hslot, hsame⟩ := hkept slot' (by simpa using hj)
      exact ⟨slot, by simpa using hslot, hsame⟩
    · simpa using h.kept j slot' (by simpa using hj)
  wires := by
    intro w hw
    rcases h.wires w hw with hw | ⟨j, slot, hj, rfl⟩
    · exact (hwires w hw).imp_right fun ⟨slot, hslot, hw⟩ => ⟨0, slot, by simpa using hslot, hw⟩
    · exact .inr ⟨j + 1, slot, by simpa using hj, by rw [Nat.add_assoc, Nat.add_comm 1]⟩
  events := hevents.trans h.events
  quiet := by
    intro ht
    obtain ⟨hw, ho, hu, hall⟩ := h.quiet ht
    obtain ⟨hw', ho', hsome⟩ := hquiet fun s hs => ht s (h.events.subset hs)
    refine ⟨hw.trans hw', ho.trans ho', ?_, ?_⟩
    · simp only [used, countP_cons, hsome] at hu ⊢
      rw [hu]
    · rintro (_ | j) slot hj
      · obtain rfl : x = some slot := by simpa using hj
        obtain ⟨slot', rfl⟩ := Option.isSome_iff_exists.1 hsome
        exact ⟨slot', by simp⟩
      · simpa using hall j slot (by simpa using hj)

/-- The loop of a tick, slot by slot. -/
theorem tickLoop_spec (config : Config) (now : ℚ) (answers : ℕ → Status) (i : ℕ)
    (slots : List (Option Slot)) (acc : TickAcc) :
    Ticks i slots acc (tickLoop config now answers i slots acc) := by
  induction slots generalizing i acc with
  | nil =>
    exact ⟨nofun, fun _ hx => .inl hx, prefix_refl _, fun _ => ⟨rfl, rfl, rfl, nofun⟩⟩
  | cons x slots ih =>
    rcases x with _ | slot
    · exact (ih (i + 1) acc).cons nofun (fun w hw => .inl hw) (prefix_refl _)
        fun _ => ⟨rfl, rfl, rfl⟩
    · -- The slot is kept, with other retries or another deadline.
      have hkeep : ∀ slot' : Slot, slot'.sequence = slot.sequence →
          slot'.envelope = slot.envelope → ∀ s, some slot' = some s → ∃ s', some slot = some s' ∧
            s.sequence = s'.sequence ∧ s.envelope = s'.envelope := by
        rintro slot' hseq henv s ⟨⟩
        exact ⟨slot, rfl, hseq, henv⟩
      simp only [tickLoop]
      split_ifs with hdl hret hans
      · exact (ih (i + 1) acc).cons (hkeep _ rfl rfl) (fun w hw => .inl hw) (prefix_refl _)
          fun _ => ⟨rfl, rfl, rfl⟩
      · -- The slot is given up.
        refine (ih (i + 1) (acc.drop config slot)).cons nofun (fun w hw => .inl hw)
          (prefix_append _ _) fun ht => absurd ?_ (ht slot.sequence)
        exact mem_append_right _ mem_cons_self
      · refine (ih (i + 1) (acc.resend i slot)).cons (hkeep _ rfl rfl) (fun w hw => ?_)
          (prefix_append _ _) fun _ => ⟨rfl, rfl, rfl⟩
        simpa [TickAcc.resend] using hw
      · exact (ih (i + 1) acc).cons (hkeep _ rfl rfl) (fun w hw => .inl hw) (prefix_refl _)
          fun _ => ⟨rfl, rfl, rfl⟩

/-- What a tick does: slots keep their sequence and envelope, what it sends is the envelope of a
slot, and unless a slot timed out no slot is freed and the window and the count stay. -/
theorem tick_spec (c : State) (now : ℚ) (answers : ℕ → Status) :
    let r := tick c now answers
    r.1.config = c.config ∧
      r.1.next_sequence = c.next_sequence ∧
      (∀ i slot', Holds r.1.transmit i slot' → ∃ slot,
        Holds c.transmit i slot ∧ slot'.sequence = slot.sequence ∧
          slot'.envelope = slot.envelope) ∧
      (∀ x ∈ r.2.wires, ∃ slot, Holds c.transmit x.1 slot ∧
        x.2 = slot.envelope) ∧
      ((∀ s, (.timeout, s) ∉ r.2.events) →
        r.1.window = c.window ∧
        r.1.outstanding = c.outstanding ∧
        used r.1.transmit = used c.transmit ∧
        ∀ i slot, Holds c.transmit i slot →
          ∃ slot', Holds r.1.transmit i slot') := by
  have h := tickLoop_spec c.config now answers 0 c.transmit
    ⟨c.window, c.success_count, c.outstanding, 0, [], []⟩
  refine ⟨rfl, rfl, h.kept, fun x hx => ?_, h.quiet⟩
  rcases h.wires x hx with h | ⟨j, slot, hj, rfl⟩
  · simp at h
  · exact ⟨slot, by simpa using hj, rfl⟩

end Reticulum.Channel
