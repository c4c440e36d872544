import Reticulum.Radio.Framing

/-!
# Time on air

The scheduler configuration of `src/interfaces/sx1262_interface.c` with `valid_config`, and
`rns_sx1262_airtime_us`, which computes the time on air of a frame in microseconds with saturating
arithmetic. For a valid configuration nothing saturates and every frame has a time on air
(`airtimeUs_eq`), so the scheduler's error paths after that call are never taken.
-/

namespace Reticulum.Radio

/-- `UINT64_MAX`. -/
def uint64Max : ℕ := 2^64 - 1

/-- `add_saturated`. -/
def addSaturated (value addition : ℕ) : ℕ :=
  if addition > uint64Max - value then uint64Max else value + addition

/-- `multiply_saturated`. -/
def multiplySaturated (left right : ℕ) : ℕ :=
  if left ≠ 0 ∧ right > uint64Max / left then uint64Max else left * right

/-- A product in range is not changed. -/
theorem multiplySaturated_of_le {left right : ℕ} (h : left * right ≤ uint64Max) :
    multiplySaturated left right = left * right := by
  unfold multiplySaturated
  rw [if_neg]
  rintro ⟨hleft, hlt⟩
  have hpos : 0 < left := Nat.pos_of_ne_zero hleft
  have hle : right ≤ uint64Max / left := by
    rw [Nat.le_div_iff_mul_le hpos, Nat.mul_comm]
    exact h
  omega

/-- `rns_sx1262_scheduler_config_t`. -/
structure SchedulerConfig where
  bandwidth_hz : UInt32
  spreading_factor : UInt8
  coding_rate_denominator : UInt8
  preamble_symbols : UInt16
  explicit_header : Bool
  crc_enabled : Bool
  duty_cycle_ppm : UInt32
  difs_ms : UInt32
  contention_window_ms : UInt32
  cad_busy_backoff_ms : UInt32
  cad_timeout_ms : UInt32
  tx_timeout_margin_ms : UInt32
  max_cad_attempts : UInt8
  fragment_timeout_ms : UInt64
  sequence_reuse_guard_ms : UInt64
deriving DecidableEq

/-- The bandwidths that `valid_config` accepts. -/
def bandwidths : List UInt32 :=
  [7800, 10400, 15600, 20800, 31250, 41700, 62500, 125000, 250000, 500000]

section

variable (config : SchedulerConfig)

/-- `valid_config`. -/
def validConfig : Bool :=
  decide (config.bandwidth_hz ∈ bandwidths) &&
    decide (config.spreading_factor ≥ 5) && decide (config.spreading_factor ≤ 12) &&
    (decide (config.spreading_factor > 6) || decide (config.preamble_symbols ≥ 12)) &&
    decide (config.coding_rate_denominator ≥ 5) && decide (config.coding_rate_denominator ≤ 8) &&
    config.preamble_symbols != 0 && config.duty_cycle_ppm != 0 &&
    decide (config.duty_cycle_ppm ≤ 1000000) && decide (config.difs_ms ≤ 3600000) &&
    decide (config.contention_window_ms ≤ 3600000) &&
    decide (config.cad_busy_backoff_ms ≤ 3600000) && config.cad_timeout_ms != 0 &&
    decide (config.cad_timeout_ms ≤ 3600000) && decide (config.tx_timeout_margin_ms ≤ 3600000) &&
    config.max_cad_attempts != 0 && config.fragment_timeout_ms != 0 &&
    config.sequence_reuse_guard_ms != 0

/-- `rns_sx1262_scheduler_default_config`. -/
def defaultConfig : SchedulerConfig :=
  { bandwidth_hz := 125000
    spreading_factor := 8
    coding_rate_denominator := 5
    preamble_symbols := 18
    explicit_header := true
    crc_enabled := true
    duty_cycle_ppm := 10000
    difs_ms := 100
    contention_window_ms := 100
    cad_busy_backoff_ms := 250
    cad_timeout_ms := 5000
    tx_timeout_margin_ms := 250
    max_cad_attempts := 8
    fragment_timeout_ms := 30000
    sequence_reuse_guard_ms := 60000 }

/-- The default configuration passes its own check. -/
theorem validConfig_defaultConfig : validConfig defaultConfig = true := by decide

/-- What the bounds of a valid configuration are, as numbers. -/
structure ValidBounds : Prop where
  spreading_ge : 5 ≤ config.spreading_factor.toNat
  spreading_le : config.spreading_factor.toNat ≤ 12
  coding_le : config.coding_rate_denominator.toNat ≤ 8
  duty_le : config.duty_cycle_ppm.toNat ≤ 1000000

theorem validBounds {config : SchedulerConfig} (h : validConfig config = true) :
    ValidBounds config := by
  simp only [validConfig, Bool.and_eq_true, decide_eq_true_eq, ge_iff_le, UInt8.le_iff_toNat_le,
    UInt32.le_iff_toNat_le] at h
  obtain ⟨⟨⟨⟨⟨⟨⟨⟨⟨⟨⟨⟨⟨⟨⟨⟨⟨-, h5⟩, h12⟩, -⟩, -⟩, h8⟩, -⟩, -⟩, hduty⟩, -⟩, -⟩, -⟩,
    -⟩, -⟩, -⟩, -⟩, -⟩, -⟩ := h
  exact ⟨h5, h12, h8, hduty⟩

/-- `effective_bandwidth_hz`. -/
def effectiveBandwidthHz (bandwidth_hz : UInt32) : ℕ :=
  if bandwidth_hz = 41700 then 41667 else bandwidth_hz.toNat

/-- `low_data_rate_optimisation`. -/
def lowDataRateOptimisation : Bool :=
  decide (2 ^ config.spreading_factor.toNat * 1000000 ≥
    effectiveBandwidthHz config.bandwidth_hz * 16000)

/-- `payload_symbols` of a frame. -/
def payloadSymbols (frame_length : ℕ) : ℕ :=
  let sf := config.spreading_factor.toNat
  let payload_numerator : ℤ := frame_length * 8 - 4 * sf + (if config.crc_enabled then 16 else 0) +
    (if config.explicit_header then 20 else 0) + (if sf > 6 then 8 else 0)
  let denominator := 4 * (if sf > 6 ∧ lowDataRateOptimisation config then sf - 2 else sf)
  8 + (payload_numerator.toNat + denominator - 1) / denominator *
    config.coding_rate_denominator.toNat

/-- `quarter_symbols` of a frame. -/
def quarterSymbols (frame_length : ℕ) : ℕ :=
  let sf := config.spreading_factor.toNat
  let preamble := config.preamble_symbols.toNat
  (if sf ≤ 6 ∧ preamble < 12 then 12 else preamble) * 4 + 17 +
    payloadSymbols config frame_length * 4 + (if sf ≤ 6 then 8 else 0)

end

/-- `rns_sx1262_airtime_us`. -/
@[irreducible]
def airtimeUs (config : SchedulerConfig) (frame_length : ℕ) : Except Status ℕ :=
  if !validConfig config || frame_length = 0 || frame_length > phyMtu then .error .invalidArgument
  else
    let numerator := multiplySaturated
      (multiplySaturated (quarterSymbols config frame_length) (2 ^ config.spreading_factor.toNat))
      1000000
    if numerator = uint64Max then .error .overflow
    else
      let denominator := effectiveBandwidthHz config.bandwidth_hz * 4
      .ok ((numerator + denominator - 1) / denominator)

/-- A frame has fewer than 2^20 quarter symbols. -/
theorem quarterSymbols_lt {config : SchedulerConfig} (h : validConfig config = true)
    {frame_length : ℕ} (hlength : frame_length ≤ phyMtu) :
    quarterSymbols config frame_length < 2^20 := by
  obtain ⟨h5, h12, h8, -⟩ := validBounds h
  have hpreamble : config.preamble_symbols.toNat < 65536 := config.preamble_symbols.toNat_lt
  have hpayload : payloadSymbols config frame_length ≤ 8 + 2200 * 8 := by
    unfold payloadSymbols
    dsimp only
    generalize hd : 4 * (if config.spreading_factor.toNat > 6 ∧
      lowDataRateOptimisation config = true then config.spreading_factor.toNat - 2
      else config.spreading_factor.toNat) = denominator
    have hdpos : 1 ≤ denominator := by
      rw [← hd]
      split_ifs <;> omega
    have hnumerator : ((frame_length : ℤ) * 8 - 4 * config.spreading_factor.toNat +
        (if config.crc_enabled = true then 16 else 0) +
        (if config.explicit_header = true then 20 else 0) +
        (if config.spreading_factor.toNat > 6 then 8 else 0)).toNat ≤ 2100 := by
      simp only [phyMtu] at hlength
      split_ifs <;> omega
    generalize ((frame_length : ℤ) * 8 - 4 * config.spreading_factor.toNat +
        (if config.crc_enabled = true then 16 else 0) +
        (if config.explicit_header = true then 20 else 0) +
        (if config.spreading_factor.toNat > 6 then 8 else 0)).toNat = numerator at hnumerator ⊢
    -- A quotient rounded up is at most the numerator.
    have hquotient : (numerator + denominator - 1) / denominator ≤ 2200 := by
      apply Nat.div_le_of_le_mul
      calc numerator + denominator - 1 ≤ 2100 + (denominator - 1) := by omega
        _ ≤ 2100 * denominator + denominator := by omega
        _ ≤ denominator * 2200 := by omega
    exact Nat.add_le_add_left (Nat.mul_le_mul hquotient h8) 8
  unfold quarterSymbols
  dsimp only
  split_ifs <;> omega

/-- With a valid configuration nothing saturates for a frame that the radio takes. -/
theorem airtimeUs_eq {config : SchedulerConfig} (h : validConfig config = true)
    {frame_length : ℕ} (hpos : 0 < frame_length) (hlength : frame_length ≤ phyMtu) :
    airtimeUs config frame_length = .ok ((quarterSymbols config frame_length *
      2 ^ config.spreading_factor.toNat * 1000000 + effectiveBandwidthHz config.bandwidth_hz * 4 - 1) /
        (effectiveBandwidthHz config.bandwidth_hz * 4)) := by
  have hquarter := quarterSymbols_lt h hlength
  have hspread : 2 ^ config.spreading_factor.toNat ≤ 2^12 :=
    Nat.pow_le_pow_right (by norm_num) (validBounds h).spreading_le
  have hinner : quarterSymbols config frame_length * 2 ^ config.spreading_factor.toNat ≤
      2^20 * 2^12 := Nat.mul_le_mul hquarter.le hspread
  have hfirst : multiplySaturated (quarterSymbols config frame_length)
      (2 ^ config.spreading_factor.toNat) =
      quarterSymbols config frame_length * 2 ^ config.spreading_factor.toNat :=
    multiplySaturated_of_le (hinner.trans (by norm_num [uint64Max]))
  have houter : quarterSymbols config frame_length * 2 ^ config.spreading_factor.toNat * 1000000 ≤
      2^20 * 2^12 * 1000000 := Nat.mul_le_mul_right _ hinner
  have hguard : ¬ (!validConfig config || decide (frame_length = 0) ||
      decide (frame_length > phyMtu)) = true := by
    simp only [h, Bool.not_true, Bool.false_or, Bool.or_eq_true, decide_eq_true_eq]
    omega
  unfold airtimeUs
  rw [if_neg hguard]
  rw [hfirst, multiplySaturated_of_le (houter.trans (by norm_num [uint64Max])), if_neg]
  simp only [uint64Max]
  omega

end Reticulum.Radio
