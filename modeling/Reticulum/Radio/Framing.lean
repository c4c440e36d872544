import Reticulum.Status

/-!
# Radio frames

`src/interfaces/radio_framing.c`. A packet of at most 500 bytes is sent in one frame, or in two that
share a sequence number of four bits and have the split flag set. A frame is a header byte and at
most 254 bytes, and the first frame of two is always full, which is how the receiver tells them
apart.

`rns_radio_reassembler_feed` hands a complete packet to a callback. Here it ends before that call,
with the reassembler as the callback finds it and the packet; `Reassembler.completed` is what
happens after a callback that succeeds.
-/

namespace Reticulum.Radio

open List

/-- `RNS_RADIO_PHY_MTU`. -/
def phyMtu : ℕ := 255

/-- `RNS_RADIO_FRAME_PAYLOAD_MTU`. -/
def framePayloadMtu : ℕ := 254

/-- `RNS_RADIO_PACKET_MTU`. -/
def packetMtu : ℕ := 500

/-- `RNS_RADIO_SEQUENCE_COUNT`. -/
def sequenceCount : ℕ := 16

/-- `rns_radio_frame_encode`: the frames in the order in which they are sent. -/
def frameEncode (packet : List UInt8) (sequence : UInt8) : Except Status (List (List UInt8)) :=
  if packet.length = 0 ∨ packet.length > packetMtu ∨ sequence ≥ 16 then .error .invalidArgument
  else
    let header := sequence <<< 4
    if packet.length ≤ framePayloadMtu then .ok [header :: packet]
    else
      let header := header ||| 0x01
      .ok [header :: packet.take framePayloadMtu, header :: packet.drop framePayloadMtu]

/-- One or two frames are made, none of them empty or longer than the radio takes. -/
theorem frameEncode_ok {packet : List UInt8} {sequence : UInt8} {frames : List (List UInt8)}
    (h : frameEncode packet sequence = .ok frames) : (frames.length = 1 ∨ frames.length = 2) ∧
      ∀ frame ∈ frames, 0 < frame.length ∧ frame.length ≤ phyMtu := by
  unfold frameEncode at h
  split_ifs at h with hbad hone
  · cases h
    refine ⟨.inl rfl, fun frame hframe => ?_⟩
    obtain rfl := mem_singleton.1 hframe
    simp only [framePayloadMtu] at hone
    simp only [length_cons, phyMtu]
    omega
  · cases h
    refine ⟨.inr rfl, fun frame hframe => ?_⟩
    simp only [packetMtu, framePayloadMtu, not_or, not_lt, not_le] at hbad hone
    simp only [mem_cons, not_mem_nil, or_false] at hframe
    rcases hframe with rfl | rfl
    · simp only [length_cons, length_take, framePayloadMtu, phyMtu]
      omega
    · simp only [length_cons, length_drop, framePayloadMtu, phyMtu]
      omega

/-- `rns_radio_reassembler_t`. `pending` holds the sequence, the time and the bytes of a first
frame, and a sequence is blocked while its entry of `blocked_until_ms` is there. -/
structure Reassembler where
  capacity : ℕ
  fragment_timeout_ms : ℕ
  sequence_reuse_guard_ms : ℕ
  pending : Option (UInt8 × ℕ × List UInt8)
  blocked_until_ms : UInt8 → Option ℕ
  completed_packets : ℕ
  malformed_frames : ℕ
  oversized_packets : ℕ
  timed_out_packets : ℕ
  duplicate_fragments : ℕ
  out_of_order_fragments : ℕ
  sequence_collisions : ℕ
  discarded_packets : ℕ

namespace Reassembler

section

variable (r : Reassembler)

/-- `rns_radio_reassembler_init` on a storage of the given capacity. -/
def init (capacity fragment_timeout_ms sequence_reuse_guard_ms : ℕ) : Except Status Reassembler :=
  if capacity = 0 ∨ capacity > packetMtu ∨ fragment_timeout_ms = 0 ∨ sequence_reuse_guard_ms = 0 then
    .error .invalidArgument
  else
    .ok
      { capacity
        fragment_timeout_ms
        sequence_reuse_guard_ms
        pending := none
        blocked_until_ms := fun _ => none
        completed_packets := 0
        malformed_frames := 0
        oversized_packets := 0
        timed_out_packets := 0
        duplicate_fragments := 0
        out_of_order_fragments := 0
        sequence_collisions := 0
        discarded_packets := 0 }

/-- `rns_radio_reassembler_reset`. -/
def reset : Reassembler :=
  { r with pending := none, blocked_until_ms := fun _ => none }

/-- `deadline_after`. -/
def deadlineAfter (now_ms interval_ms : ℕ) : ℕ := min (now_ms + interval_ms) (2^64 - 1)

/-- `clear_pending` and `block_sequence`. -/
def block (sequence : UInt8) (now_ms : ℕ) : Reassembler :=
  { r with
    pending := none
    blocked_until_ms := Function.update r.blocked_until_ms sequence
      (some (deadlineAfter now_ms r.sequence_reuse_guard_ms)) }

/-- `sequence_is_blocked`, with the reassembler after it. -/
def sequenceIsBlocked (sequence : UInt8) (now_ms : ℕ) : Bool × Reassembler :=
  match r.blocked_until_ms sequence with
  | none => (false, r)
  | some deadline =>
    if now_ms ≥ deadline then
      (false, { r with blocked_until_ms := Function.update r.blocked_until_ms sequence none })
    else (true, r)

/-- `rns_radio_reassembler_expire`. -/
def expire (now_ms : ℕ) : Reassembler :=
  match r.pending with
  | none => r
  | some (sequence, since, _) =>
    if now_ms < since ∨ now_ms - since < r.fragment_timeout_ms then r
    else { r.block sequence now_ms with timed_out_packets := r.timed_out_packets + 1 }

/-- `discard_pending`, when there is something pending. -/
def discardPending (now_ms : ℕ) : Reassembler :=
  match r.pending with
  | none => r
  | some (sequence, _, _) =>
    { r.block sequence now_ms with discarded_packets := r.discarded_packets + 1 }

/-- `buffer_first`. -/
def bufferFirst (payload : List UInt8) (sequence : UInt8) (now_ms : ℕ) : Reassembler × Status :=
  if framePayloadMtu > r.capacity then
    ({ r with oversized_packets := r.oversized_packets + 1 }, .overflow)
  else
    ({ r with pending := some (sequence, now_ms, payload.take framePayloadMtu) }, .ok)

/-- The first frame of two. -/
def feedFirst (payload : List UInt8) (sequence : UInt8) (now_ms : ℕ) : Reassembler × Status :=
  match r.sequenceIsBlocked sequence now_ms with
  | (true, r) => ({ r with sequence_collisions := r.sequence_collisions + 1 }, .invalidState)
  | (false, r) =>
    match r.pending with
    | none => r.bufferFirst payload sequence now_ms
    | some (pending_sequence, _, buffer) =>
      if pending_sequence = sequence then
        if buffer = payload.take framePayloadMtu then
          ({ r with duplicate_fragments := r.duplicate_fragments + 1 }, .ok)
        else
          ({ r.block sequence now_ms with sequence_collisions := r.sequence_collisions + 1 },
            .protocol)
      else (r.discardPending now_ms).bufferFirst payload sequence now_ms

/-- The second frame of two: a status, or the packet that is complete. -/
def feedSecond (payload : List UInt8) (sequence : UInt8) (now_ms : ℕ) :
    Reassembler × Except Status (List UInt8) :=
  if payload.length > packetMtu - framePayloadMtu then
    ({ r with malformed_frames := r.malformed_frames + 1 }, .error .protocol)
  else
    match r.pending with
    | none =>
      ({ r with out_of_order_fragments := r.out_of_order_fragments + 1 }, .error .protocol)
    | some (pending_sequence, _, buffer) =>
      if pending_sequence ≠ sequence then
        ({ r with out_of_order_fragments := r.out_of_order_fragments + 1 }, .error .protocol)
      else if payload.length > r.capacity - buffer.length then
        ({ r.block sequence now_ms with oversized_packets := r.oversized_packets + 1 },
          .error .overflow)
      else (r.block sequence now_ms, .ok (buffer ++ payload))

/-- `rns_radio_reassembler_feed` up to the callback: a status, or the packet for the callback. -/
def feed (frame : List UInt8) (now_ms : ℕ) : Reassembler × Except Status (List UInt8) :=
  if frame.length ≤ 1 ∨ frame.length > phyMtu ∨ frame.getD 0 0 &&& 0x0e ≠ 0 then
    ({ r with malformed_frames := r.malformed_frames + 1 }, .error .protocol)
  else
    let header := frame.getD 0 0
    let r := r.expire now_ms
    let sequence := (header &&& 0xf0) >>> 4
    let payload := frame.drop 1
    if header &&& 0x01 = 0 then
      let r := r.discardPending now_ms
      if payload.length > r.capacity then
        ({ r with oversized_packets := r.oversized_packets + 1 }, .error .overflow)
      else (r, .ok payload)
    else if frame.length = phyMtu then
      let (r, status) := r.feedFirst payload sequence now_ms
      (r, .error status)
    else r.feedSecond payload sequence now_ms

/-- The count of a packet whose callback succeeded. -/
def completed : Reassembler :=
  { r with completed_packets := r.completed_packets + 1 }

end

end Reassembler

end Reticulum.Radio
