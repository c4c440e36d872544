import Reticulum.Radio.Airtime
import Mathlib.Algebra.Order.Floor.Semiring
import Mathlib.Algebra.Order.Floor.Div
import Mathlib.Data.Rat.Floor

/-!
# The driver's time on air

`valid_cfg` and `rns_sx1262_lora_airtime_ms` of the SX1262 driver, which computes the time on air of
a frame in milliseconds where the scheduler computes it in microseconds. Both are compared with the
formula of the LoRa modulation: the symbols of a frame, over the symbol rate. The driver counts in
symbols and the scheduler in quarters of a symbol, but a frame with an explicit header has the same
number for both (`quarters_eq`), so that both round the same fraction up.
-/

namespace Reticulum.Radio

open List

/-- `RNS_SX1262_MAX_PAYLOAD`. -/
def maxPayload : ℕ := 255

/-- `rns_sx1262_config_t`, but for `invert_iq`, which is not read here. -/
structure DriverConfig where
  frequency_hz : UInt32
  bandwidth_hz : UInt32
  spreading_factor : UInt8
  coding_rate_denominator : UInt8
  preamble_symbols : UInt16
  crc_enabled : Bool
  tx_power_dbm : Int8
  busy_timeout_us : UInt32
  tx_timeout_margin_ms : UInt32
  recovery_backoff_polls : UInt8

section

variable (c : DriverConfig) (length : ℕ)

/-- `valid_cfg`. -/
def validCfg : Bool :=
  decide (c.frequency_hz > 425000000) && decide (c.frequency_hz ≤ 960000000) &&
    decide (c.bandwidth_hz ∈ bandwidths) && decide (c.spreading_factor ≥ 5) &&
    decide (c.spreading_factor ≤ 12) && decide (c.coding_rate_denominator ≥ 5) &&
    decide (c.coding_rate_denominator ≤ 8) && decide (c.preamble_symbols > 0) &&
    decide (c.tx_power_dbm ≥ -9) && decide (c.tx_power_dbm ≤ 22) && c.busy_timeout_us != 0 &&
    decide (c.tx_timeout_margin_ms ≤ 262143) && decide (c.recovery_backoff_polls > 0)

/-- `ceil_denominator`. -/
def ceilDenominator : ℕ :=
  let sf := c.spreading_factor.toNat
  let ldro := decide (2 ^ sf * 1000000 ≥ effectiveBandwidthHz c.bandwidth_hz * 16000)
  4 * (if sf > 6 ∧ ldro then sf - 2 else sf)

/-- The product in `symbols`. -/
def codedSymbols : ℕ :=
  let sf := c.spreading_factor.toNat
  let signed_ceil_numerator : ℤ := length * 8 + (if c.crc_enabled then 16 else 0) - 4 * sf + 20 +
    (if sf > 6 then 8 else 0)
  (signed_ceil_numerator.toNat + ceilDenominator c - 1) / ceilDenominator c *
    c.coding_rate_denominator.toNat

/-- `symbols` of a frame. -/
def symbols : ℕ :=
  codedSymbols c length + c.preamble_symbols.toNat + 12 +
    (if c.spreading_factor.toNat ≤ 6 then 2 else 0)

/-- `rns_sx1262_lora_airtime_ms`, with the products of 64 bits and the result of 32. -/
def loraAirtimeMs : Except Status ℕ :=
  if !validCfg c || length = 0 || length > maxPayload then .error .invalidArgument
  else
    let bandwidth := effectiveBandwidthHz c.bandwidth_hz
    let numerator := (4 * symbols c length + 1) % 2^64 * 2 ^ (c.spreading_factor.toNat - 2) % 2^64 *
      1000 % 2^64
    .ok ((numerator + bandwidth - 1) % 2^64 / bandwidth % 2^32)

/-- The products that the scheduler computes for a frame, each with the number of values of its
type. The smallest `size_t` has 32 bits. -/
def schedulerProducts (config : SchedulerConfig) (frame_length : ℕ) : List (ℕ × ℕ) :=
  let sf := config.spreading_factor.toNat
  let bandwidth := effectiveBandwidthHz config.bandwidth_hz
  let quarters := quarterSymbols config frame_length
  [(2 ^ sf * 1000000, 2^64), (bandwidth * 16000, 2^64), (frame_length * 8, 2^32), (4 * sf, 2^32),
    (4 * (if sf > 6 ∧ lowDataRateOptimisation config then sf - 2 else sf), 2^32),
    (payloadSymbols config frame_length - 8, 2^64), (config.preamble_symbols.toNat * 4, 2^64),
    (payloadSymbols config frame_length * 4, 2^64), (quarters * 2 ^ sf, 2^64),
    (quarters * 2 ^ sf * 1000000, 2^64), (bandwidth * 4, 2^64)]

/-- The products that the driver computes for a frame, each with the number of values of its
type, and its result. -/
def driverProducts : List (ℕ × ℕ) :=
  let sf := c.spreading_factor.toNat
  let bandwidth := effectiveBandwidthHz c.bandwidth_hz
  let numerator := (4 * symbols c length + 1) * 2 ^ (sf - 2) * 1000
  [(2 ^ sf * 1000000, 2^64), (bandwidth * 16000, 2^64), (length * 8, 2^32), (4 * sf, 2^32),
    (ceilDenominator c, 2^32), (codedSymbols c length, 2^64), (4 * symbols c length + 1, 2^64),
    ((4 * symbols c length + 1) * 2 ^ (sf - 2), 2^64), (numerator, 2^64),
    (numerator + bandwidth - 1, 2^64), ((numerator + bandwidth - 1) / bandwidth, 2^32)]

end

/-- The time on air in seconds of a frame with an explicit header, by the formula of the LoRa
modulation: the preamble, 4.25 or 6.25 symbols of synchronisation, 8 symbols and the coded ones,
over the symbol rate. The low data rate is optimised for where a symbol takes 16 ms or more, and the
bits to be coded are none where the formula has less than none. -/
def loraSeconds (bandwidth sf coding preamble : ℕ) (crc : Bool) (length : ℕ) : ℚ :=
  let bits := 8 * length + (if crc then 16 else 0) + 20 + (if sf > 6 then 8 else 0) - 4 * sf
  let optimised := 6 < sf ∧ 16 * bandwidth ≤ 1000 * 2 ^ sf
  let coded := bits ⌈/⌉ (4 * if optimised then sf - 2 else sf) * coding
  (preamble + (if sf ≤ 6 then 25 / 4 else 17 / 4) + 8 + coded) * 2 ^ sf / bandwidth

/-- Two configurations of one radio. -/
structure SameRadio (config : SchedulerConfig) (c : DriverConfig) : Prop where
  bandwidth : c.bandwidth_hz = config.bandwidth_hz
  spreading : c.spreading_factor = config.spreading_factor
  coding : c.coding_rate_denominator = config.coding_rate_denominator
  preamble : c.preamble_symbols = config.preamble_symbols
  crc : c.crc_enabled = config.crc_enabled

/-! ## Rounding up -/

/-- A division that rounds up is the ceiling of the quotient. -/
theorem roundUp_eq_ceil {b : ℕ} (hb : 0 < b) (a : ℕ) : (a + b - 1) / b = ⌈(a : ℚ) / b⌉₊ := by
  refine eq_of_forall_ge_iff fun n => ?_
  have hq : (0 : ℚ) < b := Nat.cast_pos.2 hb
  rw [Nat.ceil_le, div_le_iff₀ hq, ← Nat.cast_mul, Nat.cast_le, Nat.div_le_iff_le_mul_add_pred hb,
    mul_comm b n]
  omega

/-- What is rounded up twice is rounded up once. -/
theorem ceil_ceil_div (x : ℚ) {k : ℕ} (hk : 0 < k) : ⌈(⌈x⌉₊ : ℚ) / k⌉₊ = ⌈x / k⌉₊ := by
  refine eq_of_forall_ge_iff fun n => ?_
  have hq : (0 : ℚ) < k := Nat.cast_pos.2 hk
  rw [Nat.ceil_le, Nat.ceil_le, div_le_iff₀ hq, div_le_iff₀ hq, ← Nat.cast_mul, Nat.cast_le,
    Nat.ceil_le]

/-! ## One count of symbols -/

section

variable {config : SchedulerConfig} {c : DriverConfig} {length bandwidth sf : ℕ}
  (h : validConfig config = true) (hsame : SameRadio config c)
  (hheader : config.explicit_header = true)
include h

/-- What a valid configuration says of the bandwidth and the preamble. -/
theorem bandwidth_bounds (hb : effectiveBandwidthHz config.bandwidth_hz = bandwidth) :
    7800 ≤ bandwidth ∧ bandwidth ≤ 500000 ∧
      (config.spreading_factor.toNat ≤ 6 → 12 ≤ config.preamble_symbols.toNat) := by
  have hrange : bandwidths.all (fun b => 7800 ≤ effectiveBandwidthHz b ∧
      effectiveBandwidthHz b ≤ 500000) = true := by decide
  simp only [validConfig, Bool.and_eq_true, Bool.or_eq_true, decide_eq_true_eq, ge_iff_le,
    UInt8.lt_iff_toNat_lt, UInt16.le_iff_toNat_le] at h
  obtain ⟨⟨⟨⟨⟨⟨⟨⟨⟨⟨⟨⟨⟨⟨⟨⟨⟨hmem, -⟩, -⟩, hpreamble⟩, -⟩, -⟩, -⟩, -⟩, -⟩, -⟩, -⟩, -⟩, -⟩, -⟩, -⟩, -⟩,
    -⟩, -⟩ := h
  obtain ⟨hlow, hhigh⟩ := of_decide_eq_true (all_eq_true.1 hrange _ hmem)
  exact ⟨hb ▸ hlow, hb ▸ hhigh, fun hsmall => hpreamble.resolve_left (not_lt.2 hsmall)⟩

include hheader

/-- The quarters of a symbol are those of the formula. -/
theorem loraSeconds_eq (hb : effectiveBandwidthHz config.bandwidth_hz = bandwidth)
    (hsf : config.spreading_factor.toNat = sf) :
    loraSeconds bandwidth sf config.coding_rate_denominator.toNat config.preamble_symbols.toNat
      config.crc_enabled length = quarterSymbols config length * 2 ^ sf / (4 * bandwidth) := by
  obtain ⟨hbandwidth, -, hlong⟩ := bandwidth_bounds h hb
  unfold loraSeconds quarterSymbols payloadSymbols lowDataRateOptimisation
  rw [hsf] at hlong ⊢
  have hshort : ¬ (sf ≤ 6 ∧ config.preamble_symbols.toNat < 12) := fun hshort =>
    absurd (hlong hshort.1) (by omega)
  have hoptimised : 16 * bandwidth ≤ 1000 * 2 ^ sf ↔ bandwidth * 16000 ≤ 2 ^ sf * 1000000 := by
    omega
  have hbits : ((length : ℤ) * 8 - 4 * sf + (if config.crc_enabled then 16 else 0) + 20 +
      if sf > 6 then 8 else 0).toNat = 8 * length + (if config.crc_enabled then 16 else 0) + 20 +
        (if sf > 6 then 8 else 0) - 4 * sf := by
    split_ifs <;> omega
  simp only [hheader, hb, if_true, hbits, ← hoptimised, decide_eq_true_eq, if_neg hshort,
    ← Nat.ceilDiv_eq_add_pred_div, gt_iff_lt]
  push_cast
  split_ifs <;> ring

omit hheader in
/-- The numerators of both functions are far from the limits of their types. -/
theorem numerators_le (hlength : length ≤ 255) (hsf : config.spreading_factor.toNat = sf) :
    quarterSymbols config length * 2 ^ sf ≤ 2^20 * 2^12 ∧
      quarterSymbols config length * 2 ^ (sf - 2) ≤ 2^20 * 2^10 ∧ sf ≤ 12 ∧ 2 ^ sf ≤ 2^12 := by
  have hquarters : quarterSymbols config length ≤ 2^20 := (quarterSymbols_lt h hlength).le
  have hspreading : sf ≤ 12 := hsf ▸ (validBounds h).spreading_le
  have hpow : 2 ^ sf ≤ 2^12 := Nat.pow_le_pow_right (by norm_num) hspreading
  have hpow' : 2 ^ (sf - 2) ≤ 2^10 := Nat.pow_le_pow_right (by norm_num) (by omega)
  exact ⟨Nat.mul_le_mul hquarters hpow, Nat.mul_le_mul hquarters hpow', hspreading, hpow⟩

include hsame

/-- The driver and the scheduler count the same quarters of a symbol. -/
theorem quarters_eq : 4 * symbols c length + 1 = quarterSymbols config length := by
  obtain ⟨hbandwidth, hspreading, hcoding, hpreamble, hcrc⟩ := hsame
  have hlong := (bandwidth_bounds h rfl).2.2
  have hcoded : codedSymbols c length + 8 = payloadSymbols config length := by
    have hbits (a b c d : ℤ) : a + b - c + 20 + d = a - c + b + 20 + d := by ring
    unfold codedSymbols payloadSymbols ceilDenominator lowDataRateOptimisation
    simp only [hbandwidth, hspreading, hcoding, hcrc, hheader, if_true, hbits]
    exact Nat.add_comm _ _
  unfold symbols quarterSymbols
  rw [← hcoded, hpreamble, hspreading]
  dsimp only
  split_ifs <;> omega

/-- No product overflows. -/
theorem products_lt (hlength : length ≤ 255) :
    ∀ x ∈ schedulerProducts config length ++ driverProducts c length, x.1 < x.2 := by
  have hsymbols := @quarters_eq _ _ length h hsame hheader
  have hcoded : codedSymbols c length ≤ symbols c length := by
    unfold symbols
    omega
  have hpayload : payloadSymbols config length * 4 ≤ quarterSymbols config length := by
    unfold quarterSymbols
    dsimp only
    omega
  have hpreamble := config.preamble_symbols.toNat_lt
  have hquarters := quarterSymbols_lt h (show length ≤ phyMtu from hlength)
  simp only [schedulerProducts, driverProducts, ceilDenominator, cons_append, nil_append,
    forall_mem_cons, hsymbols, hsame.bandwidth, hsame.spreading]
  generalize hb : effectiveBandwidthHz config.bandwidth_hz = bandwidth
  generalize hsf : config.spreading_factor.toNat = sf
  obtain ⟨hlow, hhigh, -⟩ := bandwidth_bounds h hb
  obtain ⟨hlong, hshort, hspreading, hpow⟩ := @numerators_le _ length _ h hlength hsf
  have hdenominator {p : Prop} [Decidable p] : 4 * (if p then sf - 2 else sf) ≤ 48 := by
    split_ifs <;> omega
  generalize quarterSymbols config length * 2 ^ (sf - 2) = numerator at *
  have hquotient : (numerator * 1000 + bandwidth - 1) / bandwidth < 2^32 := by
    rw [Nat.div_lt_iff_lt_mul (by omega)]
    omega
  refine ⟨by omega, by omega, by omega, by omega, hdenominator.trans_lt (by norm_num), by omega,
    by omega, by omega, by omega, by omega, by omega, by omega, by omega, by omega, by omega,
    hdenominator.trans_lt (by norm_num), by omega, by omega, by omega, by omega, by omega, hquotient,
    nofun⟩

/-- So the driver computes what it would without bounds. -/
theorem loraAirtimeMs_eq (hcfg : validCfg c = true) (hpos : 1 ≤ length) (hlength : length ≤ 255)
    (hb : effectiveBandwidthHz config.bandwidth_hz = bandwidth)
    (hsf : config.spreading_factor.toNat = sf) : loraAirtimeMs c length = .ok
      ((quarterSymbols config length * 2 ^ (sf - 2) * 1000 + bandwidth - 1) / bandwidth) := by
  have hproducts := fun x hx => products_lt h hsame hheader hlength x (mem_append_right _ hx)
  have hguard : ¬ (!validCfg c || decide (length = 0) || decide (length > maxPayload)) = true := by
    simp [hcfg, maxPayload]
    omega
  simp only [driverProducts, forall_mem_cons, quarters_eq h hsame hheader, hsame.bandwidth,
    hsame.spreading, hb, hsf] at hproducts
  obtain ⟨-, -, -, -, -, -, hquarters, hscaled, hnumerator, hsum, hquotient, -⟩ := hproducts
  unfold loraAirtimeMs
  rw [if_neg hguard, quarters_eq h hsame hheader, hsame.bandwidth, hsame.spreading, hb, hsf,
    Nat.mod_eq_of_lt hquarters, Nat.mod_eq_of_lt hscaled, Nat.mod_eq_of_lt hnumerator]
  dsimp only
  rw [Nat.mod_eq_of_lt hsum, Nat.mod_eq_of_lt hquotient]

end

/-- A longer frame has no fewer symbols. -/
theorem quarterSymbols_mono (config : SchedulerConfig) {length length' : ℕ} (h : length ≤ length') :
    quarterSymbols config length ≤ quarterSymbols config length' := by
  have hpayload : payloadSymbols config length ≤ payloadSymbols config length' := by
    refine Nat.add_le_add_left (Nat.mul_le_mul_right _ (Nat.div_le_div_right ?_)) 8
    omega
  unfold quarterSymbols
  dsimp only
  omega

/-- For every configuration of a radio that is valid for the scheduler and for the driver, with an
explicit header, and every length of a frame: both have a time on air, the scheduler's is that of
the LoRa formula in microseconds and the driver's the same in milliseconds, each rounded up once,
the driver's is also the scheduler's rounded up, no product overflows its type, and a longer frame
takes no less time. -/
theorem airtime_agreement {config : SchedulerConfig} {c : DriverConfig} {length : ℕ}
    (hsame : SameRadio config c) (hconfig : validConfig config = true) (hcfg : validCfg c = true)
    (hheader : config.explicit_header = true) (hpos : 1 ≤ length) (hlength : length ≤ 255) :
    let seconds := loraSeconds (effectiveBandwidthHz config.bandwidth_hz)
      config.spreading_factor.toNat config.coding_rate_denominator.toNat
      config.preamble_symbols.toNat config.crc_enabled length
    ∃ us ms, airtimeUs config length = .ok us ∧ loraAirtimeMs c length = .ok ms ∧
      us = ⌈seconds * 10^6⌉₊ ∧ ms = ⌈seconds * 10^3⌉₊ ∧ ms = ⌈(us : ℚ) / 1000⌉₊ ∧
      (∀ x ∈ schedulerProducts config length ++ driverProducts c length, x.1 < x.2) ∧
      ∀ length' us' ms', length ≤ length' → length' ≤ 255 → airtimeUs config length' = .ok us' →
        loraAirtimeMs c length' = .ok ms' → us ≤ us' ∧ ms ≤ ms' := by
  have hms {n : ℕ} (hn : 1 ≤ n) (hn' : n ≤ 255) :=
    loraAirtimeMs_eq hconfig hsame hheader hcfg hn hn' rfl rfl
  have hpow : (2 : ℚ) ^ config.spreading_factor.toNat =
      2 ^ (config.spreading_factor.toNat - 2) * 4 := by
    have hspreading := (validBounds hconfig).spreading_ge
    rw [show (4 : ℚ) = 2 ^ 2 by norm_num, ← pow_add, Nat.sub_add_cancel (by omega)]
  have hlow := (bandwidth_bounds hconfig rfl).1
  rw [loraSeconds_eq hconfig hheader rfl rfl]
  refine ⟨_, _, airtimeUs_eq hconfig hpos hlength, hms hpos hlength, ?_, ?_, ?_,
    products_lt hconfig hsame hheader hlength, fun length' us' ms' hle hlength' hus' hms' => ?_⟩
  · rw [roundUp_eq_ceil (by omega)]
    congr 1
    push_cast
    ring
  · rw [roundUp_eq_ceil (by omega), hpow]
    congr 1
    push_cast
    ring
  · rw [roundUp_eq_ceil (by omega), roundUp_eq_ceil (by omega),
      show (1000 : ℚ) = (1000 : ℕ) from rfl, ceil_ceil_div _ (by norm_num)]
    congr 1
    push_cast
    rw [hpow]
    ring
  · rw [airtimeUs_eq hconfig (hpos.trans hle) hlength'] at hus'
    rw [hms (hpos.trans hle) hlength'] at hms'
    cases hus'
    cases hms'
    have hmono := quarterSymbols_mono config hle
    constructor <;> gcongr

/-- `rns_sx1262_default_config`. -/
def defaultDriverConfig : DriverConfig where
  frequency_hz := 868200000
  bandwidth_hz := 125000
  spreading_factor := 8
  coding_rate_denominator := 5
  preamble_symbols := 18
  crc_enabled := true
  tx_power_dbm := 14
  busy_timeout_us := 100000
  tx_timeout_margin_ms := 250
  recovery_backoff_polls := 5

/-- The default configurations, and a frame of 255 bytes. -/
theorem airtime_agreement_default : ∃ us ms, airtimeUs defaultConfig 255 = .ok us ∧
    loraAirtimeMs defaultDriverConfig 255 = .ok ms ∧ ms = ⌈(us : ℚ) / 1000⌉₊ := by
  obtain ⟨us, ms, hus, hms, -, -, hboth, -⟩ :=
    @airtime_agreement defaultConfig defaultDriverConfig 255 ⟨rfl, rfl, rfl, rfl, rfl⟩ (by decide)
      (by decide) rfl (by decide) (by decide)
  exact ⟨us, ms, hus, hms, hboth⟩

end Reticulum.Radio
