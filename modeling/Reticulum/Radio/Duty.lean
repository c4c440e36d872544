import Reticulum.Base.Buckets
import Reticulum.Radio.Airtime

/-!
# The duty cycle

The airtime that `src/interfaces/sx1262_interface.c` reserves is kept by minute in a ring of 123
buckets. A reservation of some airtime at some time takes the interval of that length from that time
on, and its share of a minute is how much of the interval lies in it; the history of a list of
reservations is the sum of their shares. `reserveAirtime` adds exactly the shares
(`reserveLoop_eq`).

A reservation is made only if the buckets from 60 minutes before the current one to 61 after it have
room for it. It is at most an hour long, so it ends 60 minutes later at the latest and no
reservation made before it reaches further. Every 61 minutes that it touches therefore lie within
the minutes that were summed, apart from minutes without airtime, and stay within the limit
(`DutyOk.reserve`). The ring has room for these minutes, so it forgets only minutes that no later
reservation can ask for.
-/

namespace Reticulum.Radio

open Finset Nat
open Buckets (Bucket Keeps share)

/-- `RNS_SX1262_DUTY_STORAGE_BUCKET_COUNT`. -/
def dutyStorageBucketCount : ℕ := 123

/-- The length of a minute in microseconds. -/
def minuteUs : ℕ := 60000000

/-- `rolling_airtime`. -/
def rollingAirtime (duty : List (Option Bucket)) (now_ms : ℕ) : ℕ :=
  let minute := now_ms / 60000
  duty.foldl (fun total x =>
    match x with
    | none => total
    | some bucket =>
      if (bucket.number > minute ∧ bucket.number - minute ≤ 61) ∨
          (minute ≥ bucket.number ∧ minute - bucket.number ≤ 60) then
        addSaturated total bucket.amount
      else total) 0

/-- `duty_limit_us`. -/
def dutyLimitUs (config : SchedulerConfig) : ℕ := 3600000000 * config.duty_cycle_ppm.toNat / 1000000

/-- The condition of `duty_available`. -/
def dutyAvailable (config : SchedulerConfig) (duty : List (Option Bucket)) (now_ms airtime_us : ℕ) :
    Bool :=
  decide (airtime_us ≤ dutyLimitUs config) &&
    decide (rollingAirtime duty now_ms ≤ dutyLimitUs config - airtime_us)

/-- One bucket of `reserve_airtime`. -/
def reserveMinute (duty : List (Option Bucket)) (minute portion : ℕ) : List (Option Bucket) :=
  duty.set (minute % dutyStorageBucketCount)
    (some ⟨minute, addSaturated (Buckets.amountAt duty minute) portion⟩)

/-- The loop of `reserve_airtime`, for at most `fuel` turns. -/
def reserveLoop : ℕ → List (Option Bucket) → ℕ → ℕ → ℕ → List (Option Bucket)
  | 0, duty, _, _, _ => duty
  | fuel + 1, duty, minute, offset_us, remaining =>
    if remaining = 0 then duty
    else
      let portion := min remaining (minuteUs - offset_us)
      reserveLoop fuel (reserveMinute duty minute portion) (minute + 1) 0 (remaining - portion)

/-- The buckets after `reserve_airtime`. Every turn but the first takes a whole minute or the
rest. -/
def reserveAirtime (duty : List (Option Bucket)) (now_ms airtime_us : ℕ) : List (Option Bucket) :=
  reserveLoop (airtime_us / minuteUs + 2) duty (now_ms / 60000) (now_ms % 60000 * 1000) airtime_us

/-! ## What is reserved in a minute -/

/-- The airtime reserved in each minute by reservations of a time in milliseconds and an airtime. -/
def history (reservations : List (ℕ × ℕ)) (minute : ℕ) : ℕ :=
  (reservations.map fun r => share minuteUs (r.1 * 1000) r.2 minute).sum

theorem minuteUs_pos : 0 < minuteUs := by norm_num [minuteUs]

variable {config : SchedulerConfig} {duty : List (Option Bucket)}

/-- An hour of duty cycle. -/
theorem dutyLimitUs_le (h : validConfig config = true) : dutyLimitUs config ≤ 60 * minuteUs := by
  have hduty := (validBounds h).duty_le
  calc dutyLimitUs config ≤ 3600000000 * 1000000 / 1000000 :=
        Nat.div_le_div_right (Nat.mul_le_mul_left _ hduty)
    _ = 60 * minuteUs := by norm_num [minuteUs]

theorem sixty_minuteUs_lt : 60 * minuteUs < uint64Max := by norm_num [minuteUs, uint64Max]

/-- The time of a reservation in microseconds, as its minute and the offset in it. -/
theorem mul_thousand_eq (now_ms : ℕ) :
    now_ms * 1000 = now_ms / 60000 * minuteUs + now_ms % 60000 * 1000 := by
  have hunit : minuteUs = 60000 * 1000 := by norm_num [minuteUs]
  rw [hunit, ← mul_assoc, ← add_mul, div_add_mod']

theorem offset_lt (now_ms : ℕ) : now_ms % 60000 * 1000 < minuteUs := by
  exact mul_lt_mul_of_pos_right (mod_lt _ (by norm_num)) (by norm_num)

theorem history_append (reservations : List (ℕ × ℕ)) (now_ms airtime_us k : ℕ) :
    history (reservations ++ [(now_ms, airtime_us)]) k =
      history reservations k + share minuteUs (now_ms * 1000) airtime_us k := by
  simp [history]

/-! ## The sum that is checked -/

theorem addSaturated_eq_min {value addition : ℕ} (h : value ≤ uint64Max) :
    addSaturated value addition = min (value + addition) uint64Max := by
  unfold addSaturated
  split_ifs <;> omega

/-- The sum of the buckets around a minute, saturated. -/
theorem rollingAirtime_eq (duty : List (Option Bucket)) (now_ms : ℕ) : rollingAirtime duty now_ms =
      min (Buckets.total duty (now_ms / 60000 - 60) (now_ms / 60000 + 61)) uint64Max := by
  unfold rollingAirtime Buckets.total
  generalize now_ms / 60000 = minute
  -- The loop adds to whatever it starts from.
  suffices hloop : ∀ (l : List (Option Bucket)) (start : ℕ), start ≤ uint64Max →
      l.foldl (fun total x => match x with
        | none => total
        | some bucket =>
          if (bucket.number > minute ∧ bucket.number - minute ≤ 61) ∨
              (minute ≥ bucket.number ∧ minute - bucket.number ≤ 60) then
            addSaturated total bucket.amount
          else total) start =
        min (start + (l.map fun x => x.elim 0 fun b =>
          if minute - 60 ≤ b.number ∧ b.number ≤ minute + 61 then b.amount else 0).sum)
          uint64Max by
    rw [hloop duty 0 (zero_le _), zero_add]
  intro l
  induction l with
  | nil =>
    intro start hstart
    simpa using hstart
  | cons x l ih =>
    intro start hstart
    rcases x with _ | b
    · simpa using ih start hstart
    have hiff : ((b.number > minute ∧ b.number - minute ≤ 61) ∨
        (minute ≥ b.number ∧ minute - b.number ≤ 60)) ↔
        minute - 60 ≤ b.number ∧ b.number ≤ minute + 61 := by omega
    simp only [List.foldl_cons, List.map_cons, List.sum_cons, Option.elim_some]
    by_cases hin : minute - 60 ≤ b.number ∧ b.number ≤ minute + 61
    · rw [if_pos (hiff.2 hin), if_pos hin, addSaturated_eq_min hstart, ih _ (min_le_right _ _)]
      omega
    · rw [if_neg (fun h => hin (hiff.1 h)), if_neg hin, ih start hstart, zero_add]

/-- When there is room, the buckets around the minute leave it. -/
theorem dutyAvailable_iff (h : validConfig config = true) (duty : List (Option Bucket))
    (now_ms airtime_us : ℕ) : dutyAvailable config duty now_ms airtime_us = true ↔
      airtime_us + Buckets.total duty (now_ms / 60000 - 60) (now_ms / 60000 + 61) ≤
        dutyLimitUs config := by
  have hlimit := (dutyLimitUs_le h).trans_lt sixty_minuteUs_lt
  rw [dutyAvailable, rollingAirtime_eq, Bool.and_eq_true, decide_eq_true_eq, decide_eq_true_eq]
  omega

/-! ## The loop that reserves -/

/-- The loop adds the shares of the interval that starts in the current minute at the offset. -/
theorem reserveLoop_keeps {fuel : ℕ} {A : ℕ → ℕ} {lo hi minute offset remaining : ℕ}
    (h : Keeps duty A lo hi) (hcount : duty.length = dutyStorageBucketCount)
    (hoffset : offset < minuteUs) (hfuel : remaining + offset ≤ fuel * minuteUs) (hlo : lo ≤ minute)
    (hend : minute * minuteUs + offset + remaining ≤ (hi + 1) * minuteUs)
    (hroom : ∀ k, A k + share minuteUs (minute * minuteUs + offset) remaining k ≤ uint64Max) :
    Keeps (reserveLoop fuel duty minute offset remaining)
      (fun k => A k + share minuteUs (minute * minuteUs + offset) remaining k) lo hi := by
  induction fuel generalizing duty A minute offset remaining with
  | zero =>
    obtain rfl : remaining = 0 := by omega
    simpa [reserveLoop, Buckets.share_zero] using h
  | succ fuel ih =>
    unfold reserveLoop
    split_ifs with hzero
    · simpa [hzero, Buckets.share_zero] using h
    generalize hportion : min remaining (minuteUs - offset) = portion
    have hstep := fun k => Buckets.share_step (j := minute) hoffset remaining k
    rw [hportion] at hstep
    have hminute : minute ≤ hi := by
      have hlt : minute * minuteUs < (hi + 1) * minuteUs := by omega
      exact Nat.lt_succ_iff.1 (Nat.lt_of_mul_lt_mul_right hlt)
    have hself : A minute + portion ≤ uint64Max := by
      have hk := hroom minute
      rw [hstep, if_pos rfl] at hk
      omega
    -- Nothing saturates, so the bucket is the ring's own.
    have hadd : reserveMinute duty minute portion = Buckets.add duty minute portion := by
      unfold reserveMinute Buckets.add
      rw [hcount, h.amountAt_eq hlo, addSaturated_eq_min (by omega), min_eq_left hself]
    have hnext : ∀ k, Function.update A minute (A minute + portion) k +
        share minuteUs ((minute + 1) * minuteUs + 0) (remaining - portion) k =
        A k + share minuteUs (minute * minuteUs + offset) remaining k := by
      intro k
      rw [hstep, add_zero]
      by_cases hk : k = minute
      · subst hk
        rw [Function.update_self, if_pos rfl, add_assoc]
      · rw [Function.update_of_ne hk, if_neg hk, zero_add]
    have hsucc : (minute + 1) * minuteUs = minute * minuteUs + minuteUs := succ_mul _ _
    have hfuel' : (fuel + 1) * minuteUs = fuel * minuteUs + minuteUs := succ_mul _ _
    have hlast : (minute + 1) * minuteUs ≤ (hi + 1) * minuteUs :=
      mul_le_mul_right _ (succ_le_succ hminute)
    have hrest : Keeps
        (reserveLoop fuel (reserveMinute duty minute portion) (minute + 1) 0 (remaining - portion))
        (fun k => Function.update A minute (A minute + portion) k +
          share minuteUs ((minute + 1) * minuteUs + 0) (remaining - portion) k) lo hi :=
      ih (hadd ▸ h.add hlo hminute) (by rw [hadd, Buckets.length_add]; exact hcount) minuteUs_pos
        (by omega) (by omega) (by omega) (fun k => by rw [hnext]; exact hroom k)
    rw [funext hnext] at hrest
    exact hrest

theorem length_reserveLoop (fuel : ℕ) (duty : List (Option Bucket)) (minute offset remaining : ℕ) :
    (reserveLoop fuel duty minute offset remaining).length = duty.length := by
  induction fuel generalizing duty minute offset remaining with
  | zero => rfl
  | succ fuel ih =>
    unfold reserveLoop
    split_ifs
    · rfl
    · rw [ih]
      simp [reserveMinute]

/-! ## The limit -/

/-- The buckets hold the reservations made up to the time `last` as far back as a later reservation
asks, and no 61 consecutive minutes have more airtime than the limit. -/
structure DutyOk (limit : ℕ) (duty : List (Option Bucket)) (reservations : List (ℕ × ℕ))
    (last : ℕ) : Prop where
  count : duty.length = dutyStorageBucketCount
  keeps : Keeps duty (history reservations) (last / 60000 - 60) (last / 60000 + 60)
  window : ∀ m, ∑ k ∈ Finset.Icc m (m + 60), history reservations k ≤ limit

/-- There is nothing in empty buckets. -/
theorem dutyOk_empty (limit last : ℕ) :
    DutyOk limit (List.replicate dutyStorageBucketCount none) [] last where
  count := List.length_replicate
  keeps := Buckets.keeps_replicate (by simp only [dutyStorageBucketCount]; omega)
    (by norm_num [dutyStorageBucketCount])
  window := fun m => by simp [history]

/-- The time may pass. -/
theorem DutyOk.later {limit : ℕ} {reservations : List (ℕ × ℕ)} {last now_ms : ℕ}
    (h : DutyOk limit duty reservations last) (hle : last ≤ now_ms) :
    DutyOk limit duty reservations now_ms := by
  refine ⟨h.count, h.keeps.mono (by omega) (by omega) ?_, h.window⟩
  rw [h.count, dutyStorageBucketCount]
  omega

/-- A reservation for which there is room keeps every 61 minutes within the limit. -/
theorem DutyOk.window_reserve (hvalid : validConfig config = true) {reservations : List (ℕ × ℕ)}
    {now_ms airtime_us : ℕ} (h : DutyOk (dutyLimitUs config) duty reservations now_ms)
    (hroom : dutyAvailable config duty now_ms airtime_us = true) (m : ℕ) :
    ∑ k ∈ Finset.Icc m (m + 60), history (reservations ++ [(now_ms, airtime_us)]) k ≤
      dutyLimitUs config := by
  rw [dutyAvailable_iff hvalid, h.keeps.total_eq le_rfl] at hroom
  have hminute : now_ms * 1000 / minuteUs = now_ms / 60000 := by
    rw [show minuteUs = 60000 * 1000 by norm_num [minuteUs]]
    exact Nat.mul_div_mul_right _ _ (by norm_num)
  simp only [history_append, sum_add_distrib]
  by_cases htouch : ∃ k ∈ Finset.Icc m (m + 60), share minuteUs (now_ms * 1000) airtime_us k ≠ 0
  · -- The minutes touch the reservation, so what they had was in the sum that was checked.
    obtain ⟨k, hk, hne⟩ := htouch
    rw [mem_Icc] at hk
    have hge : now_ms / 60000 ≤ k := by
      by_contra hlt
      exact hne (Buckets.share_eq_zero_of_lt (by omega))
    have hold : ∑ j ∈ Finset.Icc m (m + 60), history reservations j ≤
        ∑ j ∈ Finset.Icc (now_ms / 60000 - 60) (now_ms / 60000 + 61), history reservations j := by
      apply sum_le_sum_of_ne_zero
      intro j hj hjne
      rw [mem_Icc] at hj ⊢
      have hjle : j ≤ now_ms / 60000 + 60 := by
        by_contra hgt
        exact hjne (h.keeps.above j (by omega))
      omega
    have hnew := Buckets.sum_share_le minuteUs (now_ms * 1000) airtime_us m (m + 60)
    omega
  · simp only [not_exists, not_and, not_not] at htouch
    rw [sum_eq_zero htouch, add_zero]
    exact h.window m

/-- A reservation for which there is room is kept by the buckets and within the limit. -/
theorem DutyOk.reserve (hvalid : validConfig config = true) {reservations : List (ℕ × ℕ)}
    {last now_ms airtime_us : ℕ} (h : DutyOk (dutyLimitUs config) duty reservations last)
    (hle : last ≤ now_ms) (hroom : dutyAvailable config duty now_ms airtime_us = true) :
    DutyOk (dutyLimitUs config) (reserveAirtime duty now_ms airtime_us)
      (reservations ++ [(now_ms, airtime_us)]) now_ms := by
  have hnow := h.later hle
  have hwindow := hnow.window_reserve hvalid hroom
  have hlimit := dutyLimitUs_le hvalid
  rw [dutyAvailable_iff hvalid] at hroom
  have hoffset := offset_lt now_ms
  have hmax := sixty_minuteUs_lt
  refine ⟨?_, ?_, hwindow⟩
  · rw [reserveAirtime, length_reserveLoop]
    exact h.count
  -- No bucket overflows, since each is within the limit of its window.
  have hroom' : ∀ k, history reservations k + share minuteUs
      (now_ms / 60000 * minuteUs + now_ms % 60000 * 1000) airtime_us k ≤ uint64Max := by
    intro k
    rw [← mul_thousand_eq, ← history_append]
    calc history (reservations ++ [(now_ms, airtime_us)]) k
        ≤ ∑ j ∈ Finset.Icc k (k + 60), history (reservations ++ [(now_ms, airtime_us)]) j :=
          single_le_sum (fun _ _ => zero_le _) (mem_Icc.2 ⟨le_rfl, by omega⟩)
      _ ≤ dutyLimitUs config := hwindow k
      _ ≤ uint64Max := hlimit.trans hmax.le
  -- The loop has a turn for every minute that the airtime touches.
  have hfuel : airtime_us + now_ms % 60000 * 1000 ≤ (airtime_us / minuteUs + 2) * minuteUs := by
    have hlt : airtime_us < (airtime_us / minuteUs + 1) * minuteUs :=
      lt_mul_of_div_lt (lt_succ_self _) minuteUs_pos
    have hsplit : (airtime_us / minuteUs + 2) * minuteUs =
        (airtime_us / minuteUs + 1) * minuteUs + minuteUs := succ_mul _ _
    omega
  have hend : now_ms / 60000 * minuteUs + now_ms % 60000 * 1000 + airtime_us ≤
      (now_ms / 60000 + 60 + 1) * minuteUs := by
    have hsplit : (now_ms / 60000 + 60 + 1) * minuteUs =
        now_ms / 60000 * minuteUs + 60 * minuteUs + minuteUs := by ring
    omega
  have hkeeps := reserveLoop_keeps hnow.keeps h.count hoffset hfuel (sub_le _ _) hend hroom'
  have hhistory : (fun k => history reservations k + share minuteUs
      (now_ms / 60000 * minuteUs + now_ms % 60000 * 1000) airtime_us k) =
      history (reservations ++ [(now_ms, airtime_us)]) := by
    funext k
    rw [← mul_thousand_eq, ← history_append]
  rw [hhistory] at hkeeps
  exact hkeeps

end Reticulum.Radio
