import Reticulum.Base.Slots
import Reticulum.Channel.Envelope

/-!
# The channel

`rns_channel_t` of `src/link/channel.c` and its calls. A channel has two tables of
`RNS_CHANNEL_MAX_WINDOW` slots: `transmit` holds the envelopes that wait for an acknowledgement,
`receive` those that arrived before an earlier one. A slot that is not `used` is all zero in the
source, so a slot here is an `Option Slot`.

The callbacks of the configuration are inputs: what the clock reads, what the `send` callback
answers, and what the `receive` callback answers at its `k`-th invocation in a call. What a call
hands to the callbacks is part of its result. Windows and retry counts are `uint8_t` that stay below
`RNS_CHANNEL_MAX_WINDOW` and `max_retries`; `success_count` is the one counter that wraps.
-/

namespace Reticulum.Channel

open Slots

/-- `RNS_CHANNEL_MAX_WINDOW`. -/
def maxWindow : ℕ := 32

/-- `rns_channel_event_t`. -/
inductive Event
  | delivered
  | retry
  | timeout
  | duplicate
  | outOfOrder
deriving DecidableEq, Repr

/-- The numbers of `rns_channel_config_t`. -/
structure Config where
  initial_window : ℕ
  max_window : ℕ
  max_retries : ℕ
  retry_timeout : ℚ
deriving DecidableEq

/-- A used `rns_channel_slot_t`. `length` is that of `envelope`. -/
structure Slot where
  retries : ℕ
  sequence : UInt16
  deadline : ℚ
  envelope : List UInt8
deriving DecidableEq

/-- `rns_channel_t`. -/
structure State where
  config : Config
  next_sequence : UInt16
  expected_sequence : UInt16
  window : ℕ
  success_count : ℕ
  outstanding : ℕ
  transmit : List (Option Slot)
  receive : List (Option Slot)
deriving DecidableEq

/-- `rns_channel_init`. -/
def init (config : Config) : Except Status State :=
  if config.initial_window = 0 ∨ config.initial_window > config.max_window ∨
      config.max_window > maxWindow ∨ config.retry_timeout ≤ 0 then
    .error .invalidArgument
  else
    .ok { config
          next_sequence := 0
          expected_sequence := 0
          window := config.initial_window
          success_count := 0
          outstanding := 0
          transmit := List.replicate maxWindow none
          receive := List.replicate maxWindow none }

/-- A successful `rns_channel_send`: the sequence it returns, the slot it filled, the envelope it
handed to the `send` callback, and the channel after it. -/
structure Sent where
  sequence : UInt16
  slot : ℕ
  wire : List UInt8
  channel : State

/-- `rns_channel_send`. A failed call leaves the channel as it was: the slot that it clears after
the `send` callback refused the envelope was free before. -/
def send (c : State) (message_type : UInt16) (payload : List UInt8) (answer : Status) (now : ℚ) :
    Except Status Sent :=
  if c.outstanding ≥ c.window then .error .overflow
  else
    match firstFree c.transmit with
    | none => .error .overflow
    | some slot =>
      match envelopeEncode message_type c.next_sequence payload maxEnvelopeBytes with
      | .error status => .error status
      | .ok wire =>
        if answer ≠ .ok then .error answer
        else
          .ok { sequence := c.next_sequence
                slot
                wire
                channel :=
                  { c with
                    transmit := c.transmit.set slot (some
                      { retries := 0
                        sequence := c.next_sequence
                        deadline := now + c.config.retry_timeout
                        envelope := wire })
                    next_sequence := c.next_sequence + 1
                    outstanding := c.outstanding + 1 } }

/-- The window growth of `rns_channel_mark_delivered`: a full window of successes widens the window
by one. -/
def countSuccess (c : State) : State :=
  let success_count := (c.success_count + 1) % 2^8
  if success_count ≥ c.window ∧ c.window < c.config.max_window then
    { c with window := c.window + 1, success_count := 0 }
  else { c with success_count }

/-- `rns_channel_mark_delivered`: the channel after the acknowledgement and its event. -/
def markDelivered (c : State) (sequence : UInt16) : Except Status (State × Event) :=
  match find (fun slot => decide (slot.sequence = sequence)) c.transmit with
  | none => .error .notFound
  | some (i, _) =>
    .ok (countSuccess { c with
      transmit := c.transmit.set i none, outstanding := c.outstanding - 1 }, .delivered)

/-- The loop of `drain_receive`, from the `k`-th invocation of the `receive` callback on. Each turn
frees a slot, so the number of slots in use bounds the turns; with none in use there is no
candidate and the loop returns. -/
def drainLoop (answers : ℕ → Status) : ℕ → ℕ → State → Status × State × List Envelope
  | 0, _, c => (.ok, c, [])
  | n + 1, k, c =>
    match find (fun slot => decide (slot.sequence = c.expected_sequence)) c.receive with
    | none => (.ok, c, [])
    | some (i, found) =>
      match envelopeDecode found.envelope with
      | .error status => (status, c, [])
      | .ok message =>
        if answers k ≠ .ok then (answers k, c, [])
        else
          let rest := drainLoop answers n (k + 1)
            { c with receive := c.receive.set i none,
                     expected_sequence := c.expected_sequence + 1 }
          (rest.1, rest.2.1, message :: rest.2.2)

/-- `drain_receive`: its status, the channel after it, and the messages that the `receive` callback
took (answered with `RNS_OK`), in order. -/
def drainReceive (c : State) (answers : ℕ → Status) : Status × State × List Envelope :=
  drainLoop answers (used c.receive) 0 c

/-- What a call of `rns_channel_receive` did. -/
structure Received where
  status : Status
  channel : State
  /-- The messages that the `receive` callback took. -/
  delivered : List Envelope
  /-- The event raised, if any, with the sequence of the envelope. -/
  event : Option (Event × UInt16)

/-- The channel with an envelope put into receive slot `i`. -/
def store (c : State) (i : ℕ) (sequence : UInt16) (envelope : List UInt8) : State :=
  { c with receive := c.receive.set i (some { retries := 0, sequence, deadline := 0, envelope }) }

/-- `rns_channel_receive`. -/
def receive (c : State) (envelope : List UInt8) (answers : ℕ → Status) : Received :=
  match envelopeDecode envelope with
  | .error status => ⟨status, c, [], none⟩
  | .ok message =>
    if sequenceBefore message.sequence c.expected_sequence then
      ⟨.ok, c, [], some (.duplicate, message.sequence)⟩
    else if sequenceDistance message.sequence c.expected_sequence ≥ c.config.max_window then
      ⟨.protocol, c, [], none⟩
    else
      match find (fun slot => decide (slot.sequence = message.sequence)) c.receive with
      | some _ => ⟨.ok, c, [], some (.duplicate, message.sequence)⟩
      | none =>
        match firstFree c.receive with
        | none => ⟨.overflow, c, [], none⟩
        | some i =>
          let drained := drainReceive (store c i message.sequence envelope) answers
          ⟨drained.1, drained.2.1, drained.2.2,
            if sequenceDistance message.sequence c.expected_sequence ≠ 0 then
              some (.outOfOrder, message.sequence) else none⟩

/-- What `rns_channel_tick` changes besides the slots, and what it hands to the callbacks. -/
structure TickAcc where
  window : ℕ
  success_count : ℕ
  outstanding : ℕ
  /-- Its return value: the slots it retried or gave up. -/
  actions : ℕ
  /-- The envelopes that the `send` callback took, with the slot of each. -/
  wires : List (ℕ × List UInt8)
  events : List (Event × UInt16)

/-- The accumulator after a slot that has used up its retries is given up. -/
def TickAcc.drop (acc : TickAcc) (config : Config) (slot : Slot) : TickAcc :=
  { acc with
    outstanding := acc.outstanding - 1
    window := min (if acc.window > 1 then acc.window / 2 else 1) config.max_window
    success_count := 0
    actions := acc.actions + 1
    events := acc.events ++ [(.timeout, slot.sequence)] }

/-- The accumulator after the envelope of slot `i` is sent again. -/
def TickAcc.resend (acc : TickAcc) (i : ℕ) (slot : Slot) : TickAcc :=
  { acc with
    actions := acc.actions + 1
    wires := acc.wires ++ [(i, slot.envelope)]
    events := acc.events ++ [(.retry, slot.sequence)] }

/-- The loop of `rns_channel_tick` over the transmit slots from slot `i` on. `answers i` is what the
`send` callback answers for slot `i`. -/
def tickLoop (config : Config) (now : ℚ) (answers : ℕ → Status) :
    ℕ → List (Option Slot) → TickAcc → List (Option Slot) × TickAcc
  | _, [], acc => ([], acc)
  | i, none :: slots, acc =>
    let rest := tickLoop config now answers (i + 1) slots acc
    (none :: rest.1, rest.2)
  | i, some slot :: slots, acc =>
    if now < slot.deadline then
      let rest := tickLoop config now answers (i + 1) slots acc
      (some slot :: rest.1, rest.2)
    else if slot.retries ≥ config.max_retries then
      let rest := tickLoop config now answers (i + 1) slots (acc.drop config slot)
      (none :: rest.1, rest.2)
    else if answers i = .ok then
      let rest := tickLoop config now answers (i + 1) slots (acc.resend i slot)
      (some { slot with retries := slot.retries + 1, deadline := now + config.retry_timeout } ::
        rest.1, rest.2)
    else
      -- A local send failure only moves the deadline.
      let rest := tickLoop config now answers (i + 1) slots acc
      (some { slot with deadline := now + config.retry_timeout } :: rest.1, rest.2)

/-- `rns_channel_tick`: the channel after it, and the accumulator with what it did. -/
def tick (c : State) (now : ℚ) (answers : ℕ → Status) : State × TickAcc :=
  let r := tickLoop c.config now answers 0 c.transmit
    ⟨c.window, c.success_count, c.outstanding, 0, [], []⟩
  ({ c with
      transmit := r.1
      window := r.2.window
      success_count := r.2.success_count
      outstanding := r.2.outstanding }, r.2)

end Reticulum.Channel
