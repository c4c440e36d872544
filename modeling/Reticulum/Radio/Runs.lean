import Reticulum.Radio.Preservation

/-!
# The duty cycle and the accounting of the scheduler

What holds after every run of the scheduler, for any radio, clock, entropy and callbacks.

The duty cycle needs one thing of the clock: when the interface is started, the clock must not read
less than the scheduler's last time (`ClockKept`). Between a start and a stop it may read anything,
since the scheduler does not let its own time go back. The accounting needs nothing of the clock.
-/

namespace Reticulum.Radio

open Interface List Run

variable {config : SchedulerConfig} {s₀ : Interface} {o : Oracle}

/-- What is seen in a run of calls. -/
def runLog (o : Oracle) (s₀ : Interface) (calls : List Call) : List Observation :=
  (final (step o) s₀ calls).log

/-- The clock does not go back across a start. -/
def ClockKept (o : Oracle) (s₀ : Interface) (calls : List Call) : Prop :=
  Run.Each (step o) (fun s call => call = .start → s.last_now_ms ≤ (step o s call).last_now_ms)
    s₀ calls

/-- The invariant holds after every run; its reservations are dated when the clock is kept. -/
theorem run_inv (hcreate : create config = .ok s₀) {timed : Bool} {calls : List Call}
    (hclock : timed = true → ClockKept o s₀ calls) :
    ∃ now : Option ℕ, now.isSome = timed ∧ Inv config now (final (step o) s₀ calls) := by
  have hstep : ∀ s call, (∃ now : Option ℕ, now.isSome = timed ∧ Inv config now s) →
      (timed = true → call = .start → s.last_now_ms ≤ (step o s call).last_now_ms) →
      ∃ now : Option ℕ, now.isSome = timed ∧ Inv config now (step o s call) := by
    rintro s call ⟨now, rfl, h⟩ hok
    obtain ⟨now', hsome, hreaches⟩ := @step_reaches config now o (fun _ => True) s
      (fun _ _ _ => trivial) h call (fun _ _ => trivial) hok
    exact ⟨now', hsome, hreaches.inv⟩
  refine invariant hstep (create_inv hcreate timed) ?_
  cases timed with
  | false => exact (each_true calls).mono fun _ _ _ hfalse => nomatch hfalse
  | true => exact (hclock rfl).mono fun _ _ hle _ => hle

/-- Without anything about the clock. -/
theorem undated_inv (hcreate : create config = .ok s₀) (o : Oracle) (calls : List Call) :
    Inv config none (final (step o) s₀ calls) := by
  have hrun : ∃ now : Option ℕ, now.isSome = false ∧ Inv config now (final (step o) s₀ calls) :=
    run_inv hcreate fun hfalse => nomatch hfalse
  obtain ⟨now, hnone, hinv⟩ := hrun
  obtain rfl := Option.isSome_eq_false_iff.1 hnone |> Option.isNone_iff_eq_none.1
  exact hinv

/-- A frame is covered when it is handed to the radio, so the frames of a packet never take more
airtime than was reserved for it. -/
theorem transmittedUs_le_reservedUs {log : List Observation} (h : Log.Always (Lawful config) log) :
    transmittedUs config (sinceResult log) ≤ reservedUs (sinceResult log) := by
  induction log using List.reverseRecOn with
  | nil => exact le_rfl
  | append_singleton log x ih =>
    have hbefore := ih h.of_append
    have hx : Lawful config log x := h log x [] rfl
    cases x with
    | result id outcome status =>
      have hempty : sinceResult (log ++ [.result id outcome status]) = [] :=
        sinceResult_concat log _
      rw [hempty]
      exact le_rfl
    | transmit frame token status =>
      obtain ⟨-, -, airtime, hair, hcovered⟩ := hx
      have hseen : sinceResult (log ++ [.transmit frame token status]) =
          sinceResult log ++ [.transmit frame token status] := sinceResult_concat log _
      rw [hseen, transmittedUs_concat, reservedUs_concat]
      simp only [transmittedUs, reservedUs, map_cons, map_nil, sum_cons,
        sum_nil, frameAirtime, hair] at hcovered ⊢
      exact hcovered
    | _ =>
      rw [sinceResult_concat]
      rw [transmittedUs_concat, reservedUs_concat]
      exact Nat.add_le_add hbefore (Nat.zero_le _)

/-- Radio duty cycle. Whatever the radio, the callbacks and the clock between a start and a stop do,
the airtime reserved in any 61 consecutive minutes is within the limit, every reservation is for the
packet whose turn it is, and every frame handed to the radio is covered by what its packet
reserved. -/
theorem duty_cycle_kept (hcreate : create config = .ok s₀) (o : Oracle) (calls : List Call)
    (hclock : ClockKept o s₀ calls) :
    (∀ m, ∑ k ∈ Finset.Icc m (m + 60), history (reservationsOf (runLog o s₀ calls)) k ≤
      3600000000 * config.duty_cycle_ppm.toNat / 1000000) ∧ (∀ before now_ms airtime_us after,
      runLog o s₀ calls = before ++ .reserved now_ms airtime_us :: after →
      ∃ packet, turnOf before = some packet ∧
        airtime_us = (packet.2.map (frameAirtime config)).sum) ∧ (∀ before frame token status after,
      runLog o s₀ calls = before ++ .transmit frame token status :: after →
      (∃ packet, turnOf before = some packet ∧ frame ∈ packet.2) ∧
      ∃ airtime, airtimeUs config frame.length = .ok airtime ∧
        transmittedUs config (sinceResult before) + airtime ≤ reservedUs (sinceResult before)) ∧
    (∀ before after, runLog o s₀ calls = before ++ after →
      transmittedUs config (sinceResult before) ≤ reservedUs (sinceResult before)) := by
  obtain ⟨now, hsome, hinv⟩ := run_inv hcreate fun _ : true = true => hclock
  obtain ⟨n, rfl⟩ := Option.isSome_iff_exists.1 hsome
  have hlawful : Log.Always (Lawful config) (runLog o s₀ calls) := hinv.good.lawful
  refine ⟨(hinv.good.duty n rfl).window, ?_, ?_, ?_⟩
  · intro before now_ms airtime_us after heq
    exact hlawful before _ after heq
  · intro before frame token status after heq
    exact (hlawful before _ after heq).2
  · intro before after heq
    rw [heq] at hlawful
    exact transmittedUs_le_reservedUs hlawful.of_append

/-- A radio that finds the channel clear and sends two frames. Between them comes an event with the
token of another operation. -/
def clearRadio : Oracle where
  clock n := UInt64.ofNat (n * 60)
  entropy _ := .ok 7
  phy _ := .ok
  pollEvent n :=
    if n = 11 then .ok ⟨.cadClear, 1, .ok⟩
    else if n = 14 then .ok ⟨.txDone, 9, .ok⟩
    else if n = 16 then .ok ⟨.txDone, 2, .ok⟩
    else if n = 19 then .ok ⟨.txDone, 3, .ok⟩
    else .error .notFound
  receive _ := .ok
  reaction _ := []

/-- A packet of two frames is sent. -/
def twoFrameCalls : List Call :=
  [.start, .send (List.replicate 300 1), .poll 1, .poll 1, .poll 1, .poll 1, .poll 1, .poll 1]

theorem duty_cycle_kept_two_frames : ∃ s₀, create defaultConfig = .ok s₀ ∧
    reservationsOf (runLog clearRadio s₀ twoFrameCalls) = [(600, 922624)] ∧
    ∑ k ∈ Finset.Icc 0 60, history (reservationsOf (runLog clearRadio s₀ twoFrameCalls)) k ≤
      3600000000 * defaultConfig.duty_cycle_ppm.toNat / 1000000 := by
  refine ⟨_, rfl, by decide +kernel, ?_⟩
  refine (duty_cycle_kept rfl clearRadio twoFrameCalls ?_).1 0
  refine ⟨fun _ => Nat.zero_le _, ?_, ?_, ?_, ?_, ?_, ?_, ?_, trivial⟩
  all_goals exact nofun

/-! ## The accounting -/

theorem sendWith_queued {s : Interface} {packet : List UInt8} {sequence : UInt8} {id : UInt32}
    (h : (s.sendWith packet sequence).1 = .ok id) :
    ∃ frames, frameEncode packet sequence = .ok frames ∧
      (s.sendWith packet sequence).2.log = s.log ++ [.queued id frames] := by
  unfold sendWith at h ⊢
  cases hencode : frameEncode packet sequence with
  | error status => simp [hencode] at h
  | ok frames =>
    simp only [hencode] at h ⊢
    cases hair : framesAirtime s.config frames 0 with
    | error status => simp [hair] at h
    | ok airtime_us =>
      simp only [hair] at h ⊢
      split_ifs at h ⊢ with hlarge
      · cases h
        exact ⟨frames, rfl, rfl⟩

/-- A successful `send` queues the frames of the packet with the id that it returns. -/
theorem send_queued {s : Interface} {packet : List UInt8} {id : UInt32}
    (h : (send o s packet).1 = .ok id) :
    ∃ sequence frames, frameEncode packet sequence = .ok frames ∧
      (send o s packet).2.log = s.log ++ [.queued id frames] := by
  obtain ⟨hread, htime⟩ : Quiet o (fun _ => True) s.asked (currentTime o s.asked).2 ∧ _ :=
    currentTime_spec o s.asked
  have hq := s.asked_quiet.trans hread
  unfold send at h ⊢
  cases hentropy : o.entropy s.answers with
  | error status =>
    simp only [hentropy] at h
    split_ifs at h
  | ok entropy =>
    simp only [hentropy] at h ⊢
    split_ifs at h ⊢
    · unfold chooseSplitSequence at h ⊢
      have hchosen := fun sequences => hq.trans (chooseLoop_quiet sequences _ htime.le).1
      split at h
      · cases h
      · rename_i sequence t heq
        have hlog : t.log = s.log := congrArg Core.log (heq ▸ hchosen _).core_eq
        rw [← hlog]
        exact ⟨sequence, sendWith_queued h⟩
    · have hlog : (currentTime o s.asked).2.log = s.log := congrArg Core.log hq.core_eq
      rw [← hlog]
      exact ⟨_, sendWith_queued h⟩

/-- Radio scheduler accounting. The results are for the first packets queued, in their order, and
the others are in the queue. A packet is reported as sent only if each of its frames was handed to
the radio and acknowledged with the token of its operation, one after the other. An operation is
started only when none is under way, and after a stop every packet has its result. -/
theorem accounting_kept (hcreate : create config = .ok s₀) (o : Oracle) (calls : List Call) :
    (queuedOf (runLog o s₀ calls)).map Prod.fst = (resultsOf (runLog o s₀ calls)).map Prod.fst ++
      (final (step o) s₀ calls).queue.map QueuedPacket.id ∧
    (final (step o) s₀ calls).stats.packets_queued =
      (final (step o) s₀ calls).stats.packets_sent +
        (final (step o) s₀ calls).stats.packets_dropped +
        (final (step o) s₀ calls).queue.length ∧ (∀ before id outcome status after,
      runLog o s₀ calls = before ++ .result id outcome status :: after →
      ∃ frames, turnOf before = some (id, frames) ∧
        (outcome = .sent → Delivered frames (sinceResult before))) ∧ (∀ before token status after,
      runLog o s₀ calls = before ++ .startCad token status :: after → outstanding before = none) ∧
    (∀ before frame token status after,
      runLog o s₀ calls = before ++ .transmit frame token status :: after →
      outstanding before = none) ∧
    (∀ packet id, (send o (final (step o) s₀ calls) packet).1 = .ok id →
      ∃ frames, runLog o s₀ (calls ++ [.send packet]) = runLog o s₀ calls ++ [.queued id frames]) ∧
    (final (step o) s₀ (calls ++ [.stop])).queue = [] ∧
    (queuedOf (runLog o s₀ (calls ++ [.stop]))).map Prod.fst =
      (resultsOf (runLog o s₀ (calls ++ [.stop]))).map Prod.fst := by
  have hinv := undated_inv hcreate o calls
  have hbase := hinv.good.toBase
  have hlawful : Log.Always (Lawful config) (runLog o s₀ calls) := hbase.lawful
  have hstop : Stopped config none (final (step o) s₀ (calls ++ [.stop])) := by
    rw [final_append]
    exact (@stop_spec config none o (fun _ => True) _ (fun _ _ _ => trivial) hinv).1
  refine ⟨hbase.order, ?_, ?_, ?_, ?_, ?_, hstop.empty, ?_⟩
  · calc (final (step o) s₀ calls).stats.packets_queued
        = (queuedOf (runLog o s₀ calls)).length := hbase.queued_eq
      _ = (resultsOf (runLog o s₀ calls)).length +
            (final (step o) s₀ calls).queue.length := hbase.count
      _ = _ := congrArg (· + (final (step o) s₀ calls).queue.length) hbase.finished_eq.symm
  · intro before id outcome status after heq
    exact hlawful before _ after heq
  · intro before token status after heq
    exact hlawful before _ after heq
  · intro before frame token status after heq
    exact (hlawful before _ after heq).1
  · intro packet id hok
    rw [runLog, final_append]
    obtain ⟨-, frames, -, hlog⟩ := send_queued hok
    exact ⟨frames, hlog⟩
  · have horder := hstop.good.order
    have hempty : (final (step o) s₀ (calls ++ [.stop])).core.queue = [] := hstop.empty
    rw [hempty, map_nil, append_nil] at horder
    exact horder

theorem accounting_kept_two_frames : ∃ s₀, create defaultConfig = .ok s₀ ∧
    resultsOf (runLog clearRadio s₀ twoFrameCalls) = [(1, .sent)] ∧
    (final (step clearRadio) s₀ twoFrameCalls).stats.packets_queued =
      (final (step clearRadio) s₀ twoFrameCalls).stats.packets_sent +
        (final (step clearRadio) s₀ twoFrameCalls).stats.packets_dropped +
        (final (step clearRadio) s₀ twoFrameCalls).queue.length := by
  refine ⟨_, rfl, by decide +kernel, ?_⟩
  have hcreate : create defaultConfig = .ok _ := rfl
  exact (accounting_kept hcreate clearRadio twoFrameCalls).2.1

end Reticulum.Radio
