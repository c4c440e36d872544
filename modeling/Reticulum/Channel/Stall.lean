import Reticulum.Base.Run
import Reticulum.Channel.Spec

/-!
# When receiving stalls

After a `receive` callback has refused the next message, that message stays in its slot and
`expected_sequence` stays where it is. The slot is tried again only by `drain_receive`, and
`rns_channel_receive` reaches `drain_receive` only for an envelope that it stores: for a duplicate
it answers `RNS_OK` before. So a retransmission of the very message that was refused is acknowledged
without being handed out (`receive_acknowledges_refused_message`). `receive_drains_iff` says that
this is the only way to stall: in a run of calls, every `RNS_OK` leaves no deliverable message in
the slots exactly when no duplicate arrives while one is there.
-/

namespace Reticulum.Channel

open Slots (Holds)

/-- One call of `rns_channel_receive`: the envelope, and the answers of the `receive` callback. -/
structure ReceiveCall where
  envelope : List UInt8
  answers : ℕ → Status

section

variable (c : State) (call : ReceiveCall)

/-- The channel after a call of `rns_channel_receive`. -/
def receiveStep : State :=
  (receive c call.envelope call.answers).channel

/-- A used receive slot holds the next sequence, so a message that could be handed out was not. -/
def Stalled : Prop :=
  ∃ i slot, Holds c.receive i slot ∧ slot.sequence = c.expected_sequence

/-- The envelope is delivered, since the channel expects a later one, or it waits in a slot. -/
def DeliveredOrWaiting (envelope : List UInt8) : Prop :=
  ∃ message, envelopeDecode envelope = .ok message ∧
    (sequenceBefore message.sequence c.expected_sequence = true ∨
      ∃ i slot, Holds c.receive i slot ∧ slot.sequence = message.sequence)

/-- If the call returns `RNS_OK`, every envelope contiguous with what was delivered has been handed
out, and the envelope acknowledged is delivered or waits for an earlier one. -/
def Drained : Prop :=
  (receive c call.envelope call.answers).status = .ok →
    ¬ Stalled (receiveStep c call) ∧ DeliveredOrWaiting (receiveStep c call) call.envelope

/-- The envelope of the call is answered as a duplicate. -/
def IsDuplicate : Prop :=
  ∃ message, envelopeDecode call.envelope = .ok message ∧ Duplicate c message.sequence

/-- The call does not present a duplicate to a stalled channel. -/
def NotDuplicateWhileStalled : Prop :=
  ¬ (Stalled c ∧ IsDuplicate c call)

/-- What every channel keeps: its slots, and a window that they can hold. -/
def Sized : Prop :=
  c.receive.length = maxWindow ∧ c.config.max_window ≤ maxWindow

/-- Draining keeps the size. -/
theorem Drains.sized {c : State} {r : Status × State × List Envelope} (h : Drains c r)
    (hc : Sized c) : Sized r.2.1 := by
  refine ⟨h.length.trans hc.1, ?_⟩
  rw [h.frame]
  exact hc.2

/-- Receiving keeps the size. -/
theorem receiveStep_sized (hc : Sized c) : Sized (receiveStep c call) := by
  unfold receiveStep
  rcases receive_cases c call.envelope call.answers with ⟨status, -, hr⟩ | ⟨message, -, hr⟩
  · rw [hr]; exact hc
  · rcases hr with ⟨-, hr⟩ | ⟨-, -, -, hr⟩ | ⟨-, -, -, -, hr⟩ | ⟨-, -, -, i, -, -, hr, -⟩
    · rw [hr]; exact hc
    · rw [hr]; exact hc
    · rw [hr]; exact hc
    · rw [hr]
      refine (drainLoop_spec call.answers _ 0 _ (le_refl _)).1.sized ?_
      exact ⟨by simpa [store] using hc.1, hc.2⟩

/-- A stored envelope whose drain ends with `RNS_OK` is delivered or waiting, and nothing is
stalled. -/
theorem drained_of_stored {c : State} (hc : Sized c) {i : ℕ} (hfree : c.receive[i]? = some none)
    {envelope : List UInt8} {message : Envelope} (hdec : envelopeDecode envelope = .ok message)
    (answers : ℕ → Status)
    (hok : (drainReceive (store c i message.sequence envelope) answers).1 = .ok) :
    ¬ Stalled (drainReceive (store c i message.sequence envelope) answers).2.1 ∧
      DeliveredOrWaiting (drainReceive (store c i message.sequence envelope) answers).2.1
        envelope := by
  obtain ⟨hlt, -⟩ := List.getElem?_eq_some_iff.1 hfree
  have hsize : Sized (store c i message.sequence envelope) := ⟨by simpa [store] using hc.1, hc.2⟩
  have hstored : Holds (store c i message.sequence envelope).receive i
      ⟨0, message.sequence, 0, envelope⟩ := Slots.holds_set_self hlt
  generalize store c i message.sequence envelope = stored at hsize hstored hok ⊢
  obtain ⟨hd, hnext⟩ := drainLoop_spec answers _ 0 stored (le_refl _)
  change Drains stored (drainReceive stored answers) at hd
  refine ⟨?_, message, hdec, ?_⟩
  · rintro ⟨j, slot, hj, hseq⟩
    exact hnext hok j slot hj hseq
  · rcases hd.freed i _ hstored with hkept | ⟨j, hj, hs⟩
    · exact .inr ⟨i, _, hkept, rfl⟩
    · -- At most all slots were handed out, far fewer than half of the range.
      have hcount := hd.count
      have hused := Slots.used_le_length (t := stored.receive)
      have hslots : stored.receive.length = 32 := hsize.1
      refine .inl ?_
      rw [hd.frame]
      change message.sequence = _ at hs
      rw [hs]
      -- Fewer than half of the range were handed out, so the comparison is that of the counts.
      have hadd : ∀ k, stored.expected_sequence + .ofNat k =
          sequenceOf (stored.expected_sequence.toNat + k) := by
        intro k
        rw [sequenceOf, UInt16.ofNat_add, UInt16.ofNat_toNat]
      rw [hadd, hadd]
      exact (sequenceBefore_iff (by omega) (by omega)).2 (by omega)

/-- A call meets the contract exactly when it does not present a duplicate to a stalled channel. -/
theorem drained_iff (hc : Sized c) : Drained c call ↔ NotDuplicateWhileStalled c call := by
  unfold Drained NotDuplicateWhileStalled IsDuplicate receiveStep
  rcases receive_cases c call.envelope call.answers with ⟨status, hdec, hr⟩ | ⟨message, hdec, hr⟩
  · -- Malformed envelopes are refused.
    have hbad : status = .protocol := by
      unfold envelopeDecode at hdec
      split_ifs at hdec <;> simp_all
    rw [hr]
    simp [hdec, hbad]
  · have hmessage : (∃ m, envelopeDecode call.envelope = .ok m ∧ Duplicate c m.sequence) ↔
        Duplicate c message.sequence := by simp [hdec]
    rw [hmessage]
    rcases hr with ⟨hdup, hr⟩ | ⟨hdup, -, -, hr⟩ | ⟨hdup, -, -, -, hr⟩ |
      ⟨hdup, -, -, i, hfree, hs, hr, -⟩
    · -- A duplicate is acknowledged and changes nothing.
      rw [hr]
      simp only [hdup, and_true, forall_const]
      refine ⟨fun h => h.1, fun h => ⟨h, message, hdec, ?_⟩⟩
      rcases hdup with hbefore | ⟨-, hheld⟩
      · exact .inl hbefore
      · exact .inr hheld
    · rw [hr]; simp [hdup]
    · rw [hr]; simp [hdup]
    · rw [hs, hr]
      simp only [hdup, and_false, not_false_eq_true, iff_true]
      exact drained_of_stored hc hfree hdec call.answers

end

/-- For every channel and every run of `rns_channel_receive` calls, whatever the `receive` callback
answers: every `RNS_OK` leaves no deliverable message behind and acknowledges an envelope that is
delivered or waiting, if and only if no call presents a duplicate while the channel is stalled. -/
theorem receive_drains_iff {config : Config} {c : State} (h : init config = .ok c)
    (calls : List ReceiveCall) :
    Run.Each receiveStep Drained c calls ↔ Run.Each receiveStep NotDuplicateWhileStalled c calls := by
  obtain ⟨hvalid, hconfig, -, -, -, -, -, hreceive⟩ := init_ok h
  refine Run.each_iff receiveStep_sized drained_iff calls ⟨?_, ?_⟩
  · rw [hreceive, List.length_replicate]
  · rw [hconfig]; exact hvalid.max_le

/-- The configuration of the runs below: a window of one. -/
def narrowConfig : Config :=
  { initial_window := 1, max_window := 1, max_retries := 3, retry_timeout := 1 }

/-- The channel that `rns_channel_init` makes of `narrowConfig`. -/
def narrowChannel : State :=
  { config := narrowConfig
    next_sequence := 0
    expected_sequence := 0
    window := 1
    success_count := 0
    outstanding := 0
    transmit := List.replicate maxWindow none
    receive := List.replicate maxWindow none }

theorem init_narrowConfig : init narrowConfig = .ok narrowChannel := by
  rfl

/-- The empty message of type `0` with sequence `0`, under a callback that always gives `answer`. -/
def firstMessage (answer : Status) : ReceiveCall :=
  { envelope := [0, 0, 0, 0, 0, 0], answers := fun _ => answer }

/-- The run of two deliveries of one message that the callback takes meets the condition. -/
theorem receive_drains_iff_narrow :
    Run.Each receiveStep Drained narrowChannel [firstMessage .ok, firstMessage .ok] ∧
      init narrowConfig = .ok narrowChannel := by
  refine ⟨(receive_drains_iff init_narrowConfig _).2 ⟨?_, ?_, trivial⟩, init_narrowConfig⟩
  · rintro ⟨⟨i, slot, hi, -⟩, -⟩
    exact Slots.not_holds_replicate hi
  · have hfirst : receiveStep narrowChannel (firstMessage .ok) =
        { narrowChannel with expected_sequence := 1 } := by decide
    rw [hfirst]
    rintro ⟨⟨i, slot, hi, -⟩, -⟩
    exact Slots.not_holds_replicate hi

/-- A message that the `receive` callback refuses and the peer sends again is acknowledged with
`RNS_OK` while it still waits, undelivered, as the next one expected. -/
theorem receive_acknowledges_refused_message : init narrowConfig = .ok narrowChannel ∧
      ¬ Run.Each receiveStep Drained narrowChannel [firstMessage .io, firstMessage .ok] := by
  refine ⟨init_narrowConfig, fun h => ?_⟩
  have hstatus : (receive (receiveStep narrowChannel (firstMessage .io))
      (firstMessage .ok).envelope (firstMessage .ok).answers).status = .ok := by decide
  have hslot : (receiveStep (receiveStep narrowChannel (firstMessage .io))
      (firstMessage .ok)).receive[0]? = some (some ⟨0, 0, 0, [0, 0, 0, 0, 0, 0]⟩) := by decide
  have hnext : (receiveStep (receiveStep narrowChannel (firstMessage .io))
      (firstMessage .ok)).expected_sequence = 0 := by decide
  exact (h.2.1 hstatus).1 ⟨0, _, hslot, hnext.symm⟩

end Reticulum.Channel
