import Reticulum.Base.Bytes
import Reticulum.Base.Crc
import Reticulum.Base.Run
import Reticulum.Status

/-!
# Records in two slots

`src/platform/storage_record.c`: a record binds a key, a generation and a payload by a checksum, and
a value is kept in two slots of which the newer valid one counts. A write goes into the other slot,
so a write that is torn leaves the value that was there.

`write` is how a storage provider uses the four functions: it checks both slots, asks
`rns_storage_record_next_slot`, encodes the next generation and puts it into that slot. The main
result is `read_eq_last`: after every run of writes, torn ones among them, a read gives the payload
of the last write that was completed.
-/

namespace Reticulum.Storage

open Option Bytes List

/-! ## Records -/

/-- `RNS_STORAGE_KEY_MAX`. -/
def keyMax : ℕ := 64

/-- `RNS_STORAGE_RECORD_VERSION`. -/
def recordVersion : ℕ := 1

/-- `RNS_STORAGE_RECORD_HEADER_SIZE`. -/
def recordHeaderSize : ℕ := 24

/-- `RNS_STORAGE_RECORD_MAX_PAYLOAD`. -/
def recordMaxPayload : ℕ := 4096

/-- `RECORD_MAGIC_0` to `RECORD_MAGIC_3`: `RNSN`. -/
def recordMagic : List UInt8 := [82, 78, 83, 78]

section

variable (key : List UInt8)

/-- `valid_key`, of the characters of a key. -/
def validKey : Bool := 0 < key.length ∧ key.length ≤ keyMax

/-- `key_tag`. -/
def keyTag : UInt32 := Crc.sum key

/-- `rns_storage_record_encoded_size`. -/
def recordEncodedSize (payload_length : ℕ) : Except Status ℕ :=
  if payload_length > recordMaxPayload then .error .overflow
  else .ok (recordHeaderSize + payload_length)

/-- The bytes of a record before the checksum. -/
def recordHeader (generation : UInt32) (payload_length : ℕ) : List UInt8 :=
  recordMagic ++ beEncode 2 recordVersion ++ beEncode 2 recordHeaderSize ++
    beEncode 4 generation.toNat ++ beEncode 4 (keyTag key).toNat ++ beEncode 4 payload_length

/-- The checksum of a record, of the bytes before it and the payload. -/
def recordChecksum (header payload : List UInt8) : UInt32 :=
  ~~~ Crc.update (Crc.update 0xffffffff header) payload

/-- `rns_storage_record_encode` into a buffer of the capacity. -/
def recordEncode (generation : UInt32) (payload : List UInt8) (capacity : ℕ) :
    Except Status (List UInt8) :=
  if ¬ validKey key ∨ generation = 0 then .error .invalidArgument
  else
    match recordEncodedSize payload.length with
    | .error status => .error status
    | .ok required =>
      if capacity < required then .error .overflow
      else
        let header := recordHeader key generation payload.length
        .ok (header ++ (beEncode 4 (recordChecksum header payload).toNat ++ payload))

/-- `rns_storage_record_decode` into a buffer of the capacity: the payload and the generation. -/
def recordDecode (record : List UInt8) (capacity : ℕ) : Except Status (List UInt8 × UInt32) :=
  if ¬ validKey key then .error .invalidArgument
  else if record.length < recordHeaderSize ∨ slice record 0 4 ≠ recordMagic ∨
      number record 4 2 ≠ recordVersion ∨ number record 6 2 ≠ recordHeaderSize ∨
      number record 12 4 ≠ (keyTag key).toNat then .error .protocol
  else
    let length := number record 16 4
    let payload := record.drop recordHeaderSize
    if length > recordMaxPayload ∨ record.length ≠ recordHeaderSize + length then .error .protocol
    else if (recordChecksum (record.take 20) payload).toNat ≠ number record 20 4 then
      .error .protocol
    else
      let generation := UInt32.ofNat (number record 8 4)
      if generation = 0 then .error .protocol
      else if capacity < length then .error .overflow
      else .ok (payload, generation)

/-- What is read of a record that was written. -/
theorem record_fields (generation : UInt32) {payload : List UInt8}
    (hpayload : payload.length ≤ recordMaxPayload) (checksum : UInt32) :
    let record := recordHeader key generation payload.length ++
      (beEncode 4 checksum.toNat ++ payload)
    record.length = recordHeaderSize + payload.length ∧ slice record 0 4 = recordMagic ∧
      number record 4 2 = recordVersion ∧ number record 6 2 = recordHeaderSize ∧
      number record 8 4 = generation.toNat ∧ number record 12 4 = (keyTag key).toNat ∧
      number record 16 4 = payload.length ∧ number record 20 4 = checksum.toNat ∧
      record.take 20 = recordHeader key generation payload.length ∧
      record.drop recordHeaderSize = payload := by
  have hheader : (recordHeader key generation payload.length).length = 20 := by
    simp [recordHeader, recordMagic]
  have hmagic : recordMagic.length = 4 := rfl
  have hgeneration := generation.toNat_lt
  have htag := (keyTag key).toNat_lt
  have hchecksum := checksum.toNat_lt
  simp only [recordMaxPayload] at hpayload
  refine ⟨?_, ?_, ?_, ?_, ?_, ?_, ?_, ?_, take_left' hheader, ?_⟩
  · rw [length_append, length_append, hheader, length_beEncode, recordHeaderSize]
    omega
  · exact slice_append_left hmagic
  all_goals
    simp only [recordHeader, append_assoc, recordHeaderSize, recordVersion]
    simp (disch := simp [hmagic]) only [number_append_right, drop_append_right, hmagic,
      length_beEncode, Nat.reduceSub, drop_zero]
  all_goals exact number_beEncode (by omega) _

end

/-- What the encoder accepts and what it gives. -/
theorem recordEncode_eq_ok_iff {key payload record : List UInt8} {generation : UInt32}
    {capacity : ℕ} : recordEncode key generation payload capacity = .ok record ↔
      validKey key = true ∧ generation ≠ 0 ∧ payload.length ≤ recordMaxPayload ∧
        recordHeaderSize + payload.length ≤ capacity ∧
        record = recordHeader key generation payload.length ++ (beEncode 4 (recordChecksum
          (recordHeader key generation payload.length) payload).toNat ++ payload) := by
  unfold recordEncode recordEncodedSize
  by_cases hkey : validKey key = true
  · by_cases hgeneration : generation = 0
    · simp [hgeneration]
    · by_cases hpayload : payload.length ≤ recordMaxPayload
      · by_cases hcapacity : recordHeaderSize + payload.length ≤ capacity
        · simp [hkey, hgeneration, hpayload, hcapacity, not_lt.mpr hpayload,
            not_lt.mpr hcapacity, eq_comm (a := record)]
        · simp [hkey, hgeneration, not_lt.mpr hpayload, not_le.mp hcapacity]
      · simp [hkey, hgeneration, not_le.mp hpayload]
  · simp [hkey]

/-- A record that was encoded is decoded to its payload and its generation. -/
theorem recordDecode_recordEncode {key payload record : List UInt8} {generation : UInt32}
    {capacity : ℕ} (h : recordEncode key generation payload capacity = .ok record) {room : ℕ}
    (hroom : payload.length ≤ room) : recordDecode key record room = .ok (payload, generation) := by
  obtain ⟨hkey, hzero, hpayload, -, rfl⟩ := recordEncode_eq_ok_iff.mp h
  obtain ⟨hlength, hmagic, hversion, hsize, hgeneration, htag, hcount, hchecksum, htake, hdrop⟩ :=
    record_fields key generation hpayload
      (recordChecksum (recordHeader key generation payload.length) payload)
  unfold recordDecode
  simp [hlength, hmagic, hversion, hsize, hgeneration, htag, hcount, hchecksum, htake, hdrop, hkey,
    hzero, not_lt.mpr hpayload, not_lt.mpr hroom]

/-! ## Slots -/

/-- The names of the two slots, `'a'` and `'b'`. -/
inductive Slot
  | a
  | b
  deriving Repr, DecidableEq

/-- `rns_storage_record_select_slot`, of the generation of each slot that is valid. -/
def selectSlot (a b : Option UInt32) : Except Status Slot :=
  if a = some 0 ∨ b = some 0 then .error .invalidArgument
  else
    match a, b with
    | none, none => .error .notFound
    | some _, none => .ok .a
    | none, some _ => .ok .b
    | some x, some y => .ok (if x ≥ y then .a else .b)

/-- The newer of two generations, as `rns_storage_record_next_slot` takes it. -/
def newest (a b : Option UInt32) : UInt32 :=
  match a, b with
  | some x, some y => if x ≥ y then x else y
  | some x, none => x
  | none, some y => y
  | none, none => 0

/-- `rns_storage_record_next_slot`: the slot to write and the generation to write there. -/
def nextSlot (a b : Option UInt32) : Except Status (Slot × UInt32) :=
  if a = some 0 ∨ b = some 0 then .error .invalidArgument
  else if a = none ∧ b = none then .ok (.a, 1)
  else if newest a b = 0xffffffff then .error .invalidState
  else
    let slot := match a, b with
      | none, _ => .a
      | some _, none => .b
      | some x, some y => if x ≤ y then .a else .b
    .ok (slot, newest a b + 1)

/-- The bytes in the two slots; an empty string where nothing was written. -/
structure Slots where
  a : List UInt8
  b : List UInt8
  deriving Repr, DecidableEq

namespace Slots

/-- The bytes of one slot. -/
def get (s : Slots) : Slot → List UInt8
  | .a => s.a
  | .b => s.b

/-- One slot written over. -/
def set (s : Slots) (record : List UInt8) : Slot → Slots
  | .a => { s with a := record }
  | .b => { s with b := record }

end Slots

section Provider

-- The key under which the value is kept.
variable (key : List UInt8)

/-- What a slot decodes to, into a buffer that holds every payload; `none` fails the check. -/
def decoded (record : List UInt8) : Option (List UInt8 × UInt32) :=
  (recordDecode key record recordMaxPayload).toOption

/-- The generation of a slot that passes the check. -/
def generation (record : List UInt8) : Option UInt32 := (decoded key record).map (·.2)

/-- A read decodes both slots and takes the one that `selectSlot` names. -/
def read (s : Slots) : Except Status (List UInt8) :=
  match selectSlot (generation key s.a) (generation key s.b) with
  | .error status => .error status
  | .ok slot => (recordDecode key (s.get slot) recordMaxPayload).map (·.1)

/-- How a write ends: whole, or torn so that the slot holds other bytes. -/
inductive Outcome
  | whole
  | torn (bytes : List UInt8)
  deriving Repr, DecidableEq

/-- A write asks for the next slot, encodes the next generation and writes that slot. Nothing is
written where one of them fails. -/
def write (payload : List UInt8) (outcome : Outcome) (s : Slots) : Except Status Unit × Slots :=
  match nextSlot (generation key s.a) (generation key s.b) with
  | .error status => (.error status, s)
  | .ok (slot, generation) =>
    match recordEncode key generation payload (recordHeaderSize + recordMaxPayload) with
    | .error status => (.error status, s)
    | .ok record =>
      match outcome with
      | .whole => (.ok (), s.set record slot)
      | .torn bytes => (.error .io, s.set bytes slot)

/-- The slots, and the payload of the last write that was completed. -/
structure Value where
  slots : Slots
  last : Option (List UInt8)
  deriving Repr, DecidableEq

/-- A write, with the payload noted where it is completed. -/
def Value.step (v : Value) (call : List UInt8 × Outcome) : Value where
  slots := (write key call.1 call.2 v.slots).2
  last := match (write key call.1 call.2 v.slots).1 with
    | .ok () => some call.1
    | .error _ => v.last

/-- What a read of two decoded slots should give. -/
def current (a b : Option (List UInt8 × UInt32)) : Option (List UInt8) :=
  match a, b with
  | some x, some y => if x.2 ≥ y.2 then some x.1 else some y.1
  | some x, none => some x.1
  | none, b => b.map (·.1)

/-- The invariant of a value: two valid slots are of different generations, and the newer one has
the payload of the last write that was completed. -/
structure Value.Kept (v : Value) : Prop where
  distinct : ∀ x y, decoded key v.slots.a = some x → decoded key v.slots.b = some y → x.2 ≠ y.2
  current_eq : current (decoded key v.slots.a) (decoded key v.slots.b) = v.last

variable {key}

/-- No slot is valid with the generation zero. -/
theorem generation_ne_zero (record : List UInt8) : generation key record ≠ some 0 := by
  intro h
  obtain ⟨x, hx, hzero⟩ := map_eq_some_iff.mp h
  unfold decoded recordDecode at hx
  dsimp only at hx
  split_ifs at hx with hkey hhead hlength hsum hne hroom <;> try cases hx
  exact hne hzero

/-- What a slot decodes to is what the decoder gives. -/
theorem recordDecode_of_decoded {record : List UInt8} {x : List UInt8 × UInt32}
    (h : decoded key record = some x) : recordDecode key record recordMaxPayload = .ok x := by
  unfold decoded at h
  cases hdecode : recordDecode key record recordMaxPayload with
  | error status => rw [hdecode] at h; cases h
  | ok y => rw [hdecode] at h; rw [Option.some.inj h]

/-- A read gives what the newer valid slot holds. -/
theorem read_eq_current (s : Slots) :
    read key s = match current (decoded key s.a) (decoded key s.b) with
      | none => .error .notFound
      | some payload => .ok payload := by
  have hvalid : ¬ (generation key s.a = some 0 ∨ generation key s.b = some 0) :=
    not_or.mpr ⟨generation_ne_zero s.a, generation_ne_zero s.b⟩
  unfold read selectSlot
  rw [if_neg hvalid]
  unfold generation
  cases ha : decoded key s.a with
  | none =>
    cases hb : decoded key s.b with
    | none => rfl
    | some y => simp [current, Slots.get, recordDecode_of_decoded hb, Except.map]
  | some x =>
    cases hb : decoded key s.b with
    | none => simp [current, Slots.get, recordDecode_of_decoded ha, Except.map]
    | some y =>
      by_cases hle : x.2 ≥ y.2
      · simp [current, hle, Slots.get, recordDecode_of_decoded ha, Except.map]
      · simp [current, hle, Slots.get, recordDecode_of_decoded hb, Except.map]

/-- The next generation is above the newest, unless there is none. -/
theorem lt_succ_of_ne_max {x y : UInt32} (hxy : x ≤ y) (hy : y ≠ 0xffffffff) : x < y + 1 := by
  have hmax : y.toNat ≠ 4294967295 := fun h => hy (UInt32.toNat_inj.mp h)
  have hlt := y.toNat_lt
  rw [UInt32.le_iff_toNat_le] at hxy
  rw [UInt32.lt_iff_toNat_lt, UInt32.toNat_add, UInt32.toNat_one, Nat.mod_eq_of_lt (by omega)]
  omega

/-- A slot that a read does not need: it is not valid, or the other one is newer. -/
def Spare (a b : Option UInt32) : Slot → Prop
  | .a => ∀ x ∈ a, ∃ y ∈ b, x < y
  | .b => ∀ y ∈ b, ∃ x ∈ a, y < x

/-- No valid slot is above the newest generation. -/
theorem le_newest (a b : Option UInt32) : (∀ x ∈ a, x ≤ newest a b) ∧ ∀ y ∈ b, y ≤ newest a b := by
  match a, b with
  | none, none => simp
  | none, some y => simp [newest]
  | some x, none => simp [newest]
  | some x, some y =>
    by_cases hle : y ≤ x
    · simp [newest, hle]
    · simp [newest, hle, UInt32.le_of_lt (UInt32.not_le.mp hle)]

variable {slot : Slot} {s : Slots}

/-- What `nextSlot` gives: a generation above both, and a slot that a read does not need. -/
theorem nextSlot_spec {a b : Option UInt32} {g : UInt32} (h : nextSlot a b = .ok (slot, g))
    (hdistinct : ∀ x ∈ a, ∀ y ∈ b, x ≠ y) :
    (∀ x ∈ a, x < g) ∧ (∀ y ∈ b, y < g) ∧ Spare a b slot := by
  unfold nextSlot at h
  split_ifs at h with hzero hnone hmax
  · obtain ⟨rfl, rfl⟩ := hnone
    cases h
    simp [Spare]
  · obtain ⟨hslot, rfl⟩ := Prod.mk.inj (Except.ok.inj h)
    obtain ⟨hx, hy⟩ := le_newest a b
    refine ⟨fun x hxa => lt_succ_of_ne_max (hx x hxa) hmax,
      fun y hyb => lt_succ_of_ne_max (hy y hyb) hmax, ?_⟩
    subst hslot
    match a, b with
    | none, _ => simp [Spare]
    | some x, none => simp [Spare]
    | some x, some y =>
      have hne := hdistinct x rfl y rfl
      by_cases hle : x ≤ y
      · simpa [hle, Spare] using UInt32.lt_of_le_of_ne hle hne
      · simpa [hle, Spare] using UInt32.not_le.mp hle

/-- A spare slot is not the one that `selectSlot` names while that one is valid. -/
theorem selectSlot_ne_of_spare {a b : Option UInt32} {selected : Slot} (hspare : Spare a b slot)
    (h : selectSlot a b = .ok selected) : selected ≠ slot := by
  rintro rfl
  unfold selectSlot at h
  split_ifs at h with hzero
  match a, b with
  | none, none => cases h
  | some x, none =>
    cases h
    simp [Spare] at hspare
  | none, some y =>
    cases h
    simp [Spare] at hspare
  | some x, some y =>
    cases h
    by_cases hle : y ≤ x
    · simp [hle, Spare, UInt32.not_lt.mpr hle] at hspare
    · simp [hle, Spare, UInt32.not_lt.mpr (UInt32.le_of_lt (UInt32.not_le.mp hle))] at hspare

/-- A write fails and leaves the slots, or it puts bytes into a spare slot: a record above both
generations where it is completed, and the torn bytes where it is not. -/
theorem write_spec (payload : List UInt8) (outcome : Outcome)
    (hdistinct : ∀ x ∈ generation key s.a, ∀ y ∈ generation key s.b, x ≠ y) :
    (∃ status, write key payload outcome s = (.error status, s)) ∨
      ∃ slot bytes, Spare (generation key s.a) (generation key s.b) slot ∧
        (write key payload outcome s).2 = s.set bytes slot ∧ match outcome with
        | .whole => (write key payload outcome s).1 = .ok () ∧
            ∃ g, decoded key bytes = some (payload, g) ∧
              (∀ x ∈ generation key s.a, x < g) ∧ ∀ y ∈ generation key s.b, y < g
        | .torn torn => (write key payload outcome s).1 = .error .io ∧ bytes = torn := by
  unfold write
  cases hnext : nextSlot (generation key s.a) (generation key s.b) with
  | error status => exact .inl ⟨status, rfl⟩
  | ok next =>
    obtain ⟨slot, g⟩ := next
    obtain ⟨ha, hb, hspare⟩ := nextSlot_spec hnext hdistinct
    dsimp only
    cases hencode : recordEncode key g payload (recordHeaderSize + recordMaxPayload) with
    | error status => exact .inl ⟨status, rfl⟩
    | ok record =>
      have hlength := (recordEncode_eq_ok_iff.mp hencode).2.2.1
      have hdecoded : decoded key record = some (payload, g) := by
        rw [decoded, recordDecode_recordEncode hencode hlength]
        rfl
      cases outcome with
      | whole => exact .inr ⟨slot, record, hspare, rfl, rfl, g, hdecoded, ha, hb⟩
      | torn torn => exact .inr ⟨slot, torn, hspare, rfl, rfl, rfl⟩

/-- A record above the other slot is what a read gives. -/
theorem current_set {bytes payload : List UInt8} {g : UInt32}
    (hbytes : decoded key bytes = some (payload, g)) (ha : ∀ x ∈ generation key s.a, x < g)
    (hb : ∀ y ∈ generation key s.b, y < g) :
    current (decoded key (s.set bytes slot).a) (decoded key (s.set bytes slot).b) =
      some payload := by
  cases slot with
  | a =>
    cases hdecoded : decoded key s.b with
    | none => simp [Slots.set, current, hbytes, hdecoded]
    | some y =>
      have hlt := hb y.2 (by simp [generation, hdecoded])
      simp [Slots.set, current, hbytes, hdecoded, UInt32.le_of_lt hlt]
  | b =>
    cases hdecoded : decoded key s.a with
    | none => simp [Slots.set, current, hbytes, hdecoded]
    | some x =>
      have hlt := ha x.2 (by simp [generation, hdecoded])
      simp [Slots.set, current, hbytes, hdecoded, UInt32.not_le.mpr hlt]

/-- Torn bytes in a spare slot leave what a read gives. -/
theorem current_torn {bytes : List UInt8} (hbytes : decoded key bytes = none)
    (hspare : Spare (generation key s.a) (generation key s.b) slot) :
    current (decoded key (s.set bytes slot).a) (decoded key (s.set bytes slot).b) =
      current (decoded key s.a) (decoded key s.b) := by
  cases slot with
  | a =>
    cases hdecoded : decoded key s.a with
    | none => simp [Slots.set, current, hbytes]
    | some x =>
      obtain ⟨g, hg, hlt⟩ := hspare x.2 (by simp [generation, hdecoded])
      obtain ⟨y, hy, rfl⟩ := map_eq_some_iff.mp hg
      simp [Slots.set, current, hbytes, hy, UInt32.not_le.mpr hlt]
  | b =>
    cases hdecoded : decoded key s.b with
    | none => simp [Slots.set, current, hbytes]
    | some y =>
      obtain ⟨g, hg, hlt⟩ := hspare y.2 (by simp [generation, hdecoded])
      obtain ⟨x, hx, rfl⟩ := map_eq_some_iff.mp hg
      simp [Slots.set, current, hbytes, hx, UInt32.le_of_lt hlt]

/-- Two valid slots are of different generations after bytes that are above both, if valid. -/
theorem distinct_set {bytes : List UInt8} (hbytes : ∀ z, decoded key bytes = some z →
      (∀ x ∈ generation key s.a, x < z.2) ∧ ∀ y ∈ generation key s.b, y < z.2) :
    ∀ x y, decoded key (s.set bytes slot).a = some x → decoded key (s.set bytes slot).b = some y →
      x.2 ≠ y.2 := by
  intro x y hx hy
  cases slot with
  | a =>
    have hlt := (hbytes x hx).2 y.2 (mem_map_of_mem _ hy)
    exact (UInt32.ne_of_lt hlt).symm
  | b =>
    have hlt := (hbytes y hy).1 x.2 (mem_map_of_mem _ hx)
    exact UInt32.ne_of_lt hlt

/-- The generations of a value differ. -/
theorem Value.Kept.generation_ne {v : Value} (h : v.Kept key) :
    ∀ x ∈ generation key v.slots.a, ∀ y ∈ generation key v.slots.b, x ≠ y := by
  intro g hg g' hg'
  obtain ⟨x, hx, rfl⟩ := map_eq_some_iff.mp hg
  obtain ⟨y, hy, rfl⟩ := map_eq_some_iff.mp hg'
  exact h.distinct x y hx hy

/-- A write keeps the invariant, if torn bytes fail the check. -/
theorem Value.Kept.step {v : Value} (h : v.Kept key) (call : List UInt8 × Outcome)
    (htorn : ∀ bytes, call.2 = .torn bytes → decoded key bytes = none) :
    (v.step key call).Kept key := by
  obtain ⟨payload, outcome⟩ := call
  obtain ⟨status, hwrite⟩ | ⟨slot, bytes, hspare, hslots, hwrite⟩ :=
    write_spec payload outcome h.generation_ne
  · have hstep : v.step key (payload, outcome) = v := by
      unfold Value.step
      rw [hwrite]
    rw [hstep]
    exact h
  · have hset : (v.step key (payload, outcome)).slots = v.slots.set bytes slot := hslots
    cases outcome with
    | whole =>
      obtain ⟨hok, g, hbytes, ha, hb⟩ := hwrite
      refine ⟨?_, ?_⟩
      · rw [hset]
        refine distinct_set fun z hz => ?_
        obtain rfl := Option.some.inj (hbytes.symm.trans hz)
        exact ⟨ha, hb⟩
      · rw [hset, current_set hbytes ha hb]
        unfold Value.step
        rw [hok]
    | torn torn =>
      obtain ⟨hio, rfl⟩ := hwrite
      have hnone := htorn bytes rfl
      refine ⟨?_, ?_⟩
      · rw [hset]
        refine distinct_set fun z hz => ?_
        cases hnone.symm.trans hz
      · rw [hset, current_torn hnone hspare, h.current_eq]
        unfold Value.step
        rw [hio]

variable (key) in
/-- After every run of writes to two slots that failed the check, where torn writes leave bytes that
fail it: the next slot is never the one that a read takes, and a read gives the payload of the last
write that was completed. A payload within the limit is encoded and decoded to itself. -/
theorem read_eq_last (start : Slots) (ha : decoded key start.a = none)
    (hb : decoded key start.b = none) (writes : List (List UInt8 × Outcome))
    (htorn : ∀ call ∈ writes, ∀ bytes, call.2 = .torn bytes → decoded key bytes = none) :
    let v := Run.final (Value.step key) ⟨start, none⟩ writes
    (∀ selected slot g, selectSlot (generation key v.slots.a) (generation key v.slots.b) =
        .ok selected → nextSlot (generation key v.slots.a) (generation key v.slots.b) =
        .ok (slot, g) → selected ≠ slot) ∧
      read key v.slots = (match v.last with
        | none => .error .notFound
        | some payload => .ok payload) ∧
      ∀ g payload, validKey key = true → g ≠ 0 → payload.length ≤ recordMaxPayload →
        ∃ record, recordEncode key g payload (recordHeaderSize + payload.length) = .ok record ∧
          recordDecode key record payload.length = .ok (payload, g) := by
  have hstart : Value.Kept key ⟨start, none⟩ := by
    refine ⟨fun x y hx => ?_, ?_⟩
    · cases ha.symm.trans hx
    · rw [ha, hb]
      rfl
  have hkept := Run.invariant (fun v call hv hcall => hv.step call hcall) hstart
    (Run.each_of_mem htorn)
  refine ⟨fun selected slot g hselect hnext => ?_, ?_, fun g payload hkey hg hpayload => ?_⟩
  · obtain ⟨-, -, hspare⟩ := nextSlot_spec hnext hkept.generation_ne
    exact selectSlot_ne_of_spare hspare hselect
  · rw [read_eq_current, hkept.current_eq]
  · exact ⟨_, recordEncode_eq_ok_iff.mpr ⟨hkey, hg, hpayload, le_rfl, rfl⟩,
      recordDecode_recordEncode (recordEncode_eq_ok_iff.mpr ⟨hkey, hg, hpayload, le_rfl, rfl⟩)
        le_rfl⟩

/-- Two writes are completed and two are torn: the second completed one is read. -/
theorem read_eq_last_torn : read [107] (Run.final (Value.step [107]) ⟨⟨[], []⟩, none⟩
      [([1], .whole), ([2], .torn [82, 78]), ([3], .whole), ([4], .torn [])]).slots = .ok [3] := by
  have h := (read_eq_last [107] ⟨[], []⟩ rfl rfl
    [([1], .whole), ([2], .torn [82, 78]), ([3], .whole), ([4], .torn [])] (by simp; decide)).2.1
  have hlast : (Run.final (Value.step [107]) ⟨⟨[], []⟩, none⟩
      [([1], .whole), ([2], .torn [82, 78]), ([3], .whole), ([4], .torn [])]).last = some [3] := by
    decide +kernel
  rw [h, hlast]

end Provider

end Reticulum.Storage
