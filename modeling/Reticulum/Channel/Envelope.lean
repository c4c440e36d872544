import Reticulum.Base.Bytes
import Reticulum.Base.Serial
import Reticulum.Status

/-!
# Channel envelopes

The envelope codec and the sequence arithmetic of `src/link/channel.c`. An envelope is three
network-order 16-bit fields (message type, sequence, payload length) followed by the payload.
`envelopeDecode_encode` is the round trip, and `sequenceBefore_iff` and `sequenceDistance_eq` say
what the wrapped comparisons mean for send indices: the message sent as number `a` carries the
sequence `a mod 2^16`, and within half of the range the wrapped order is the order of the indices.
-/

namespace Reticulum.Channel

open Bytes (beEncode beDecode length_beEncode beDecode_beEncode)

/-- `RNS_CHANNEL_HEADER_BYTES`. -/
def headerBytes : ℕ := 6

/-- `RNS_CHANNEL_MAX_ENVELOPE_BYTES`. -/
def maxEnvelopeBytes : ℕ := 500

/-- `RNS_CHANNEL_MAX_PAYLOAD_BYTES`. -/
def maxPayloadBytes : ℕ := maxEnvelopeBytes - headerBytes

/-- `read_u16`. -/
def readU16 (p : List UInt8) : UInt16 := UInt16.ofNat (beDecode (p.take 2))

/-- `write_u16`. -/
def writeU16 (value : UInt16) : List UInt8 := beEncode 2 value.toNat

/-- `sequence_before`: the signed reading of the wrapped difference is negative. -/
def sequenceBefore (left right : UInt16) : Bool := decide ((left - right).toInt16 < 0)

/-- `sequence_distance`. -/
def sequenceDistance (sequence base : UInt16) : ℕ := (sequence - base).toNat

/-- `rns_channel_envelope_encode`: the envelope, or the status of the check that failed. -/
def envelopeEncode (message_type sequence : UInt16) (payload : List UInt8) (capacity : ℕ) :
    Except Status (List UInt8) :=
  if payload.length > maxPayloadBytes ∨ capacity < headerBytes + payload.length then
    .error .overflow
  else
    .ok (writeU16 message_type ++ writeU16 sequence ++
      writeU16 (UInt16.ofNat payload.length) ++ payload)

/-- What `rns_channel_envelope_decode` returns of an envelope. -/
structure Envelope where
  /-- The message type. -/
  message_type : UInt16
  /-- The sequence number. -/
  sequence : UInt16
  /-- The payload. -/
  payload : List UInt8
deriving DecidableEq

/-- `rns_channel_envelope_decode`. -/
def envelopeDecode (envelope : List UInt8) : Except Status Envelope :=
  if envelope.length < headerBytes ∨ envelope.length > maxEnvelopeBytes then .error .protocol
  else if (readU16 (envelope.drop 4)).toNat ≠ envelope.length - headerBytes then .error .protocol
  else .ok ⟨readU16 envelope, readU16 (envelope.drop 2), envelope.drop headerBytes⟩

/-- A 16-bit field is read back as it was written, whatever follows it. -/
theorem readU16_writeU16 (value : UInt16) (rest : List UInt8) :
    readU16 (writeU16 value ++ rest) = value := by
  unfold readU16 writeU16
  rw [List.take_left' (length_beEncode 2 _), beDecode_beEncode value.toNat_lt]
  exact UInt16.ofNat_toNat

@[simp]
theorem length_writeU16 (value : UInt16) : (writeU16 value).length = 2 := length_beEncode 2 _

variable {message_type sequence : UInt16} {payload wire : List UInt8} {capacity : ℕ}

/-- Decoding what was encoded gives back the message type, the sequence and the payload. -/
theorem envelopeDecode_encode
    (h : envelopeEncode message_type sequence payload capacity = .ok wire) :
    envelopeDecode wire = .ok ⟨message_type, sequence, payload⟩ := by
  unfold envelopeEncode at h
  split_ifs at h with hbad
  cases h
  have hmax : payload.length ≤ 494 := not_lt.mp fun hlong => hbad (.inl hlong)
  have hnat : (UInt16.ofNat payload.length).toNat = payload.length := by
    rw [UInt16.toNat_ofNat']
    omega
  unfold envelopeDecode
  simp only [List.append_assoc]
  rw [if_neg (by simp [headerBytes, maxEnvelopeBytes]; omega)]
  simp (disch := simp) only [Bytes.drop_append_right, length_writeU16, headerBytes, Nat.reduceSub,
    List.drop_zero, readU16_writeU16, hnat]
  rw [if_neg (by simp; omega)]

/-- The wrapped difference of two 16-bit names, as the distance on the circle of `2^16` names. -/
theorem toNat_sub_eq_distance (left right : UInt16) :
    (left - right).toNat = Serial.distance (2 * 2^15) left.toNat right.toNat := by
  rw [UInt16.toNat_sub]
  congr 1
  omega

/-- The sequence number of the message sent as number `a`. -/
def sequenceOf (a : ℕ) : UInt16 := UInt16.ofNat a

@[simp]
theorem toNat_sequenceOf (a : ℕ) : (sequenceOf a).toNat = a % (2 * 2^15) := by
  unfold sequenceOf
  rw [UInt16.toNat_ofNat', ← pow_succ']

/-- The sequence number that follows that of number `a`. -/
theorem sequenceOf_succ (a : ℕ) : sequenceOf a + 1 = sequenceOf (a + 1) := by
  unfold sequenceOf
  rw [UInt16.ofNat_add]
  rfl

variable {a e : ℕ}

/-- Within half of the range, `sequence_before` orders sequence numbers as send indices. -/
theorem sequenceBefore_iff (hlo : e ≤ a + 2^15) (hhi : a < e + 2^15) :
    sequenceBefore (sequenceOf a) (sequenceOf e) = true ↔ a < e := by
  rw [← Serial.half_le_distance_iff hlo hhi, ← toNat_sequenceOf a, ← toNat_sequenceOf e,
    ← toNat_sub_eq_distance, sequenceBefore]
  -- The sign of the difference tells the halves of the circle apart.
  generalize sequenceOf a - sequenceOf e = d
  have hd : d.toNat < 2^16 := d.toNat_lt
  have hint : d.toInt16.toInt = if 2 * d.toNat < 2^16 then (d.toNat : ℤ) else d.toNat - 2^16 :=
    BitVec.toInt_eq_toNat_cond d.toBitVec
  have hzero : (0 : Int16).toInt = 0 := rfl
  rw [decide_eq_true_iff, Int16.lt_iff_toInt_lt, hint, hzero]
  split_ifs <;> omega

/-- A sequence number ahead by less than the range is at the distance of the indices. -/
theorem sequenceDistance_eq (hle : e ≤ a) (hlt : a < e + 2^16) :
    sequenceDistance (sequenceOf a) (sequenceOf e) = a - e := by
  unfold sequenceDistance
  rw [toNat_sub_eq_distance, toNat_sequenceOf, toNat_sequenceOf]
  exact Serial.distance_of_le hle (by omega)

/-- Indices less than the range apart with one sequence number are the same index. -/
theorem eq_of_sequenceOf_eq {b : ℕ} (h : sequenceOf a = sequenceOf b) (hab : a < b + 2^16)
    (hba : b < a + 2^16) : a = b := by
  have hmod := congrArg UInt16.toNat h
  rw [toNat_sequenceOf, toNat_sequenceOf] at hmod
  exact Serial.eq_of_mod_eq hmod (by omega) (by omega)

end Reticulum.Channel
