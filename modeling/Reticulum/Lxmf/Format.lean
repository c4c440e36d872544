import Reticulum.Base.Crc
import Reticulum.Lxmf.Store

/-!
# The journal's bytes

The record format of `src/lxmf/store.c`: a header of 16 bytes with the type of the record, the
length of its payload and a checksum of it, and the payload. `Record.encode` is what the store
writes and `readPiece` and `decodeChange` are how it is read. Five layouts of a put are read, of
which only the last one is written.

`readPiece_encode` and `decodeChange_record` say that a record is read back as it was written, and
`readPiece_torn` that the beginning of a record is never taken for one.
-/

namespace Reticulum.Lxmf

open List Octets Bytes

/-! ## Codes -/

/-- The number of a `lxmf_delivery_status_t`. -/
def DeliveryStatus.code : DeliveryStatus → ℕ
  | .queued => 0
  | .sending => 1
  | .sent => 2
  | .delivered => 3
  | .failed => 4

/-- `valid_status`: the status of a number. -/
def DeliveryStatus.ofCode (code : ℕ) : Option DeliveryStatus :=
  [.queued, .sending, .sent, .delivered, .failed][code]?

/-- The number of a `lxmf_signature_state_t`. -/
def SignatureState.code : SignatureState → ℕ
  | .verified => 0
  | .unverified => 1
  | .failed => 2

/-- `valid_signature`: the signature state of a number. -/
def SignatureState.ofCode (code : ℕ) : Option SignatureState :=
  [.verified, .unverified, .failed][code]?

/-- The number of a `lxmf_delivery_method_t`. -/
def DeliveryMethod.code : DeliveryMethod → ℕ
  | .unknown => 0
  | .direct => 1
  | .opportunistic => 2
  | .propagated => 3

/-- `valid_method`: the method of a number. -/
def DeliveryMethod.ofCode (code : ℕ) : Option DeliveryMethod :=
  [.unknown, .direct, .opportunistic, .propagated][code]?

/-- The number of a `lxmf_queue_reason_t`. -/
def QueueReason.code : QueueReason → ℕ
  | .none => 0
  | .peerIdentity => 1
  | .path => 2
  | .stamp => 3
  | .link => 4
  | .resource => 5
  | .propagationNode => 6
  | .retryBackoff => 7
  | .cancelled => 8
  | .retryExhausted => 9
  | .identityTimeout => 10
  | .storage => 11

/-- `valid_queue_reason`: the reason of a number. -/
def QueueReason.ofCode (code : ℕ) : Option QueueReason :=
  [.none, .peerIdentity, .path, .stamp, .link, .resource, .propagationNode, .retryBackoff,
    .cancelled, .retryExhausted, .identityTimeout, .storage][code]?

@[simp]
theorem DeliveryStatus.ofCode_code (s : DeliveryStatus) : ofCode s.code = some s := by
  cases s <;> rfl

@[simp]
theorem SignatureState.ofCode_code (s : SignatureState) : ofCode s.code = some s := by
  cases s <;> rfl

@[simp]
theorem DeliveryMethod.ofCode_code (m : DeliveryMethod) : ofCode m.code = some m := by
  cases m <;> rfl

@[simp]
theorem QueueReason.ofCode_code (r : QueueReason) : ofCode r.code = some r := by
  cases r <;> rfl

theorem DeliveryStatus.code_lt (s : DeliveryStatus) : s.code < 256 ^ 1 := by cases s <;> decide

theorem SignatureState.code_lt (s : SignatureState) : s.code < 256 ^ 1 := by cases s <;> decide

theorem DeliveryMethod.code_lt (m : DeliveryMethod) : m.code < 256 ^ 1 := by cases m <;> decide

theorem QueueReason.code_lt (r : QueueReason) : r.code < 256 ^ 1 := by cases r <;> decide

/-! ## Writing -/

/-- `HEADER_SIZE`. -/
def headerSize : ℕ := 16

/-- `LXMF_STORE_MAX_FILE_SIZE`. -/
def maxFileSize : ℕ := 16 * 1024 * 1024

/-- `PUT5_FIXED`. -/
def put5Fixed : ℕ := 142

/-- `MAX_PAYLOAD`. -/
def maxPayload : ℕ := put5Fixed + maxContent + maxPacked

/-- The first bytes of every record: `LXMS`. -/
def recordMagic : List UInt8 := [76, 88, 77, 83]

/-- A record of a type and a payload, as `append_record` and `append_put_record` write it. -/
def frame (type : ℕ) (payload : List UInt8) : List UInt8 :=
  recordMagic ++ (beEncode 1 1 ++ (beEncode 1 type ++ (beEncode 2 0 ++
    (beEncode 4 payload.length ++ (beEncode 4 (Crc.sum payload).toNat ++ payload)))))

/-- `encode_delivery`. -/
def encodeDelivery (d : DeliveryMetadata) : List UInt8 :=
  beEncode 1 d.desired_method.code ++ (beEncode 1 d.actual_method.code ++
    (beEncode 1 d.queue_reason.code ++ (beEncode 1 (if d.proof_id.isSome then 1 else 0) ++
      (beEncode 4 d.attempts ++ (beEncode 8 d.retry_at_ms ++ (beEncode 4 d.progress ++
        ((d.proof_id.getD (Octets.zero 32)).bytes ++ beEncode 8 d.identity_deadline)))))))

/-- `encode_put`, with the content and the packed bytes behind it. -/
def encodePut (m : StoreMessage) : List UInt8 :=
  m.message_id.bytes ++ (m.destination.bytes ++ (m.source.bytes ++ (m.timestamp.bytes ++
    (beEncode 1 m.status.code ++ (beEncode 4 m.content.length ++ (beEncode 1 m.signature_state.code ++
      (beEncode 4 m.packed.length ++ (encodeDelivery m.delivery ++ (m.content ++ m.packed)))))))))

/-- The type of a record that is written: `TYPE_PUT_V5`, `TYPE_STATUS`, `TYPE_SIGNATURE`,
`TYPE_REMOVE`, `TYPE_DELIVERY_V2` and `TYPE_REPLACE_V5`. -/
def Record.type : Record → ℕ
  | .put _ => 10
  | .status _ _ => 2
  | .signature _ _ => 4
  | .remove _ => 5
  | .delivery _ _ => 12
  | .replace _ => 11

/-- The payload of a record. -/
def Record.payload : Record → List UInt8
  | .put m | .replace m => encodePut m
  | .status id value => id.bytes ++ beEncode 1 value.code
  | .signature id value => id.bytes ++ beEncode 1 value.code
  | .remove id => id.bytes
  | .delivery id value => id.bytes ++ encodeDelivery value

/-- The bytes of a record. -/
def Record.encode (record : Record) : List UInt8 := frame record.type record.payload

/-! ## Reading -/

/-- What `scan` finds behind the records that it read. -/
inductive Piece
  | done
  | recover
  | format
  | record (type : ℕ) (payload rest : List UInt8)
deriving DecidableEq

/-- The part of a round of `scan` that does not look into the payload, `good` bytes behind the start
of the file. -/
def readPiece (good : ℕ) (bytes : List UInt8) : Piece :=
  if bytes = [] then .done
  else if bytes.length < headerSize then .recover
  else if slice bytes 0 4 ≠ recordMagic then .recover
  else if number bytes 4 1 ≠ 1 ∨ number bytes 5 1 < 1 ∨ number bytes 5 1 > 12 ∨
      number bytes 6 2 ≠ 0 then .format
  else
    let n := number bytes 8 4
    if n = 0 ∨ n > maxPayload ∨ good + headerSize + n > maxFileSize then .recover
    else if bytes.length < headerSize + n then .recover
    else
      let payload := slice bytes headerSize n
      if (Crc.sum payload).toNat ≠ number bytes 12 4 then .recover
      else .record (number bytes 5 1) payload (bytes.drop (headerSize + n))

/-- `decode_delivery`. -/
def decodeDelivery (payload : List UInt8) (extended : Bool) : Option DeliveryMetadata := do
  let desired_method ← DeliveryMethod.ofCode (number payload 0 1)
  let actual_method ← DeliveryMethod.ofCode (number payload 1 1)
  let queue_reason ← QueueReason.ofCode (number payload 2 1)
  if number payload 3 1 > 1 then none
  else
    let delivery : DeliveryMetadata :=
      { desired_method, actual_method, queue_reason
        attempts := number payload 4 4
        retry_at_ms := number payload 8 8
        progress := number payload 16 4
        identity_deadline := if extended then number payload 52 8 else 0
        proof_id := if number payload 3 1 = 0 then none
          else some (ofList 32 (payload.drop 20)) }
    if delivery.valid then some delivery else none

/-- What a put says of an entry of the index. Layouts without delivery metadata have none. -/
structure PutHead where
  id : Octets 32
  source : Octets 16
  fixed : ℕ
  content_len : ℕ
  packed_len : ℕ
  status : DeliveryStatus
  signature : SignatureState
  delivery : Option DeliveryMetadata
deriving DecidableEq

/-- What a record says. -/
inductive Change
  | put (replacement : Bool) (head : PutHead)
  | status (id : Octets 32) (status : DeliveryStatus)
  | signature (id : Octets 32) (state : SignatureState)
  | remove (id : Octets 32)
  | delivery (id : Octets 32) (delivery : DeliveryMetadata)
deriving DecidableEq

/-- The branch of `scan` for `TYPE_PUT`. -/
def decodePut1 (payload : List UInt8) : Option Change := do
  let status ← DeliveryStatus.ofCode (number payload 72 1)
  if payload.length < 77 ∨ payload.length - 77 > maxContent ∨
      number payload 73 4 ≠ payload.length - 77 then none
  else
    some (.put false
      { id := ofList 32 payload
        source := ofList 16 (payload.drop 48)
        fixed := 77
        content_len := payload.length - 77
        packed_len := 0
        status
        signature := .verified
        delivery := none })

/-- The branch of `scan` for `TYPE_PUT_V2`. -/
def decodePut2 (payload : List UInt8) : Option Change := do
  let status ← DeliveryStatus.ofCode (number payload 72 1)
  let signature ← SignatureState.ofCode (number payload 77 1)
  let content_len := number payload 73 4
  let packed_len := number payload 78 2
  if payload.length < 80 ∨ content_len > maxContent ∨ packed_len > maxPacked ∨
      payload.length ≠ 80 + content_len + packed_len then none
  else
    some (.put false
      { id := ofList 32 payload
        source := ofList 16 (payload.drop 48)
        fixed := 80
        content_len, packed_len, status, signature
        delivery := none })

/-- The branch of `scan` for the later puts and for replacements. -/
def decodePut3 (wide extended replacement : Bool) (payload : List UInt8) : Option Change := do
  let fixed := if extended then put5Fixed else if wide then 134 else 132
  let status ← DeliveryStatus.ofCode (number payload 72 1)
  let signature ← SignatureState.ofCode (number payload 77 1)
  let delivery ← decodeDelivery (payload.drop (if wide then 82 else 80)) extended
  let content_len := number payload 73 4
  let packed_len := number payload 78 (if wide then 4 else 2)
  if payload.length < fixed ∨ content_len > maxContent ∨ packed_len > maxPacked ∨
      payload.length ≠ fixed + content_len + packed_len then none
  else
    some (.put replacement
      { id := ofList 32 payload
        source := ofList 16 (payload.drop 48)
        fixed, content_len, packed_len, status, signature
        delivery := some delivery })

/-- The part of a round of `scan` that looks into the payload; `none` ends the journal there. -/
def decodeChange (type : ℕ) (payload : List UInt8) : Option Change :=
  let id := ofList 32 payload
  match type with
  | 1 => decodePut1 payload
  | 3 => decodePut2 payload
  | 6 => decodePut3 false false false payload
  | 8 => decodePut3 true false false payload
  | 9 => decodePut3 true false true payload
  | 10 => decodePut3 true true false payload
  | 11 => decodePut3 true true true payload
  | 2 =>
    if payload.length ≠ 33 then none
    else (DeliveryStatus.ofCode (number payload 32 1)).map (.status id)
  | 4 =>
    if payload.length ≠ 33 then none
    else (SignatureState.ofCode (number payload 32 1)).map (.signature id)
  | 5 => if payload.length ≠ 32 then none else some (.remove id)
  | 7 =>
    if payload.length ≠ 84 then none
    else (decodeDelivery (payload.drop 32) false).map (.delivery id)
  | 12 =>
    if payload.length ≠ 92 then none
    else (decodeDelivery (payload.drop 32) true).map (.delivery id)
  | _ => none

/-! ## Records are read back -/

/-- Delivery metadata that the store accepts, with numbers that the fields of
`lxmf_delivery_metadata_t` can hold. -/
structure DeliveryMetadata.Sized (d : DeliveryMetadata) : Prop where
  valid : d.valid = true
  attempts : d.attempts < 2 ^ 32
  retry_at_ms : d.retry_at_ms < 2 ^ 64
  identity_deadline : d.identity_deadline < 2 ^ 64

/-- A message that the store accepts. -/
structure StoreMessage.Sized (m : StoreMessage) : Prop where
  content : m.content.length ≤ maxContent
  packed : m.packed.length ≤ maxPacked
  delivery : m.delivery.Sized

/-- A record whose fields are in range. -/
def Record.Sized : Record → Prop
  | .put m | .replace m => m.Sized
  | .delivery _ d => d.Sized
  | _ => True

theorem length_encodeDelivery (d : DeliveryMetadata) : (encodeDelivery d).length = 60 := by
  simp [encodeDelivery]

theorem length_encodePut (m : StoreMessage) :
    (encodePut m).length = put5Fixed + m.content.length + m.packed.length := by
  simp only [encodePut, length_append, length_eq, length_beEncode, length_encodeDelivery, put5Fixed]
  omega

theorem length_frame (type : ℕ) (payload : List UInt8) :
    (frame type payload).length = headerSize + payload.length := by
  simp only [frame, recordMagic, length_append, length_beEncode, length_cons,
    length_nil, headerSize]
  omega

/-- What is read of delivery metadata that was written. -/
theorem delivery_fields {d : DeliveryMetadata} (h : d.Sized) (rest : List UInt8) :
    let bytes := encodeDelivery d ++ rest
    number bytes 0 1 = d.desired_method.code ∧ number bytes 1 1 = d.actual_method.code ∧
      number bytes 2 1 = d.queue_reason.code ∧
      number bytes 3 1 = (if d.proof_id.isSome then 1 else 0) ∧
      number bytes 4 4 = d.attempts ∧ number bytes 8 8 = d.retry_at_ms ∧
      number bytes 16 4 = d.progress ∧
      ofList 32 (bytes.drop 20) = d.proof_id.getD (.zero 32) ∧
      number bytes 52 8 = d.identity_deadline := by
  have hprogress : d.progress ≤ progressComplete := by simpa [DeliveryMetadata.valid] using h.valid
  have hattempts := h.attempts
  have hretry := h.retry_at_ms
  have hdeadline := h.identity_deadline
  have hdesired := d.desired_method.code_lt
  have hactual := d.actual_method.code_lt
  have hreason := d.queue_reason.code_lt
  unfold progressComplete at hprogress
  simp only [encodeDelivery, append_assoc]
  refine ⟨number_beEncode hdesired _, ?_, ?_, ?_, ?_, ?_, ?_, ?_, ?_⟩
  all_goals
    simp (disch := simp) only [number_append_right, drop_append_right,
      length_beEncode, length_eq, Nat.reduceSub, drop_zero, ofList_append]
  all_goals
    refine number_beEncode ?_ _
    first | omega | (split <;> norm_num)

/-- Delivery metadata is read back. -/
theorem decodeDelivery_encodeDelivery {d : DeliveryMetadata} (h : d.Sized) (rest : List UInt8) :
    decodeDelivery (encodeDelivery d ++ rest) true = some d := by
  obtain ⟨hdesired, hactual, hreason, hhas, hattempts, hretry, hprogress, hproof, hdeadline⟩ :=
    delivery_fields h rest
  have hvalid := h.valid
  unfold decodeDelivery
  rw [hdesired, hactual, hreason, hhas, hattempts, hretry, hprogress, hproof, hdeadline]
  obtain ⟨desired_method, actual_method, attempts, queue_reason, retry_at_ms, identity_deadline,
    progress, proof_id⟩ := d
  cases proof_id with
  | none => simpa [DeliveryMetadata.valid] using hvalid
  | some proof => simpa [DeliveryMetadata.valid] using hvalid

/-- What is read of a put that was written. -/
theorem put_fields {m : StoreMessage} (h : m.Sized) :
    let r := encodePut m
    ofList 32 r = m.message_id ∧
      ofList 16 (r.drop 48) = m.source ∧
      number r 72 1 = m.status.code ∧
      number r 73 4 = m.content.length ∧
      number r 77 1 = m.signature_state.code ∧
      number r 78 4 = m.packed.length ∧
      decodeDelivery (r.drop 82) true = some m.delivery := by
  have hcontent := h.content
  have hpacked := h.packed
  have hstatus := m.status.code_lt
  have hsignature := m.signature_state.code_lt
  unfold maxContent at hcontent
  unfold maxPacked at hpacked
  refine ⟨?_, ?_, ?_, ?_, ?_, ?_, ?_⟩
  all_goals
    simp only [encodePut]
    simp (disch := simp) only [number_append_right, drop_append_right,
      length_beEncode, length_eq, Nat.reduceSub, drop_zero, ofList_append]
  case refine_7 => exact decodeDelivery_encodeDelivery h.delivery _
  all_goals
    refine number_beEncode ?_ _
    omega

/-- What a put of a message says of the entry. -/
def StoreMessage.putHead (m : StoreMessage) : PutHead where
  id := m.message_id
  source := m.source
  fixed := put5Fixed
  content_len := m.content.length
  packed_len := m.packed.length
  status := m.status
  signature := m.signature_state
  delivery := some m.delivery

/-- What a record that is written says. -/
def Record.change : Record → Change
  | .put m => .put false m.putHead
  | .replace m => .put true m.putHead
  | .status id value => .status id value
  | .signature id value => .signature id value
  | .remove id => .remove id
  | .delivery id value => .delivery id value

/-- A put is read back. -/
theorem decodePut3_encodePut {m : StoreMessage} (h : m.Sized) (replacement : Bool) :
    decodePut3 true true replacement (encodePut m) = some (.put replacement m.putHead) := by
  obtain ⟨hid, hsource, hstatus, hcontent, hsignature, hpacked, hdelivery⟩ := put_fields h
  unfold decodePut3
  simp only [if_true]
  rw [hid, hsource, hstatus, hcontent, hsignature, hpacked, hdelivery, length_encodePut]
  have hfixed : put5Fixed ≤ put5Fixed + m.content.length + m.packed.length := by omega
  simp [StoreMessage.putHead, hfixed, h.content, h.packed]

/-- The payload of a record is read as what the record says. -/
theorem decodeChange_record {record : Record} (h : record.Sized) :
    decodeChange record.type record.payload = some record.change := by
  cases record with
  | put m => exact decodePut3_encodePut h false
  | replace m => exact decodePut3_encodePut h true
  | status id value | signature id value =>
    have hnumber : number (id.bytes ++ beEncode 1 value.code) 32 1 = value.code := by
      rw [number_append_right (by simp)]
      simpa using number_beEncode value.code_lt []
    simp [decodeChange, Record.type, Record.payload, Record.change, hnumber]
  | remove id => simp [decodeChange, Record.type, Record.payload, Record.change]
  | delivery id value =>
    have hdelivery : decodeDelivery (encodeDelivery value) true = some value := by
      simpa using decodeDelivery_encodeDelivery h []
    simp [decodeChange, Record.type, Record.payload, Record.change, length_encodeDelivery,
      hdelivery]

/-- A record is not longer than a file may be long. -/
theorem length_payload {record : Record} (h : record.Sized) :
    0 < record.payload.length ∧ record.payload.length ≤ maxPayload := by
  have hsizes : maxPayload = put5Fixed + maxContent + maxPacked := rfl
  have hfixed : put5Fixed = 142 := rfl
  cases record with
  | put m | replace m =>
    have hcontent := h.content
    have hpacked := h.packed
    have hlength := length_encodePut m
    change 0 < (encodePut m).length ∧ (encodePut m).length ≤ maxPayload
    omega
  | status id value | signature id value =>
    simp only [Record.payload, length_append, length_eq, length_beEncode]
    omega
  | remove id =>
    simp only [Record.payload, length_eq]
    omega
  | delivery id value =>
    simp only [Record.payload, length_append, length_eq, length_encodeDelivery]
    omega

theorem Record.type_le (record : Record) : 1 ≤ record.type ∧ record.type ≤ 12 := by
  cases record <;> simp [Record.type]

/-- What is read of the header of a record, with anything behind it. -/
theorem frame_fields {type : ℕ} {payload : List UInt8} (htype : type ≤ 12)
    (hlength : payload.length ≤ maxPayload) (rest : List UInt8) :
    let bytes := frame type payload ++ rest
    slice bytes 0 4 = recordMagic ∧ number bytes 4 1 = 1 ∧ number bytes 5 1 = type ∧
      number bytes 6 2 = 0 ∧ number bytes 8 4 = payload.length ∧
      number bytes 12 4 = (Crc.sum payload).toNat ∧
      bytes.drop headerSize = payload ++ rest := by
  have hmagic : recordMagic.length = 4 := rfl
  have hsum := (Crc.sum payload).toNat_lt
  simp only [maxPayload, put5Fixed, maxContent, maxPacked] at hlength
  simp only [frame, append_assoc, headerSize]
  refine ⟨slice_append_left hmagic, ?_, ?_, ?_, ?_, ?_, ?_⟩
  all_goals
    simp (disch := simp [hmagic]) only [number_append_right, drop_append_right,
      length_beEncode, hmagic, Nat.reduceSub, drop_zero]
  all_goals
    refine number_beEncode ?_ _
    omega

/-- A record is read back, with anything behind it. -/
theorem readPiece_encode {record : Record} (h : record.Sized) {good : ℕ}
    (hgood : good + record.encode.length ≤ maxFileSize) (rest : List UInt8) :
    readPiece good (record.encode ++ rest) = .record record.type record.payload rest := by
  obtain ⟨hpos, hle⟩ := length_payload h
  obtain ⟨htype, htype'⟩ := record.type_le
  obtain ⟨hmagic, hversion, hkind, hzero, hn, hsum, hdrop⟩ := frame_fields htype' hle rest
  rw [Record.encode, length_frame] at hgood
  have hlength : (frame record.type record.payload ++ rest).length =
      headerSize + record.payload.length + rest.length := by
    rw [length_append, length_frame]
  have hne : frame record.type record.payload ++ rest ≠ [] := by
    intro hnil
    rw [hnil, length_nil] at hlength
    omega
  have hpayload : slice (frame record.type record.payload ++ rest) headerSize
      record.payload.length = record.payload := by
    exact take_left' rfl
  have hrest : (frame record.type record.payload ++ rest).drop
      (headerSize + record.payload.length) = rest := by
    rw [← drop_drop, hdrop]
    exact drop_left' rfl
  unfold readPiece Record.encode
  simp only [hmagic, hversion, hkind, hzero, hn, hsum, hpayload, hrest, ne_eq, hne, not_true_eq_false,
    if_false, false_or, or_false]
  rw [if_neg (by omega), if_neg (by omega), if_neg (by omega), if_neg (by omega)]

/-- The beginning of a record is not taken for one. -/
theorem readPiece_torn {record : Record} (h : record.Sized) {good k : ℕ} (hpos : 0 < k)
    (hk : k < record.encode.length) : readPiece good (record.encode.take k) = .recover := by
  obtain ⟨-, hle⟩ := length_payload h
  obtain ⟨htype, htype'⟩ := record.type_le
  obtain ⟨hmagic, hversion, hkind, hzero, hn, -, -⟩ := frame_fields htype' hle []
  rw [append_nil] at hmagic hversion hkind hzero hn
  have hlength : ((frame record.type record.payload).take k).length = k := by
    rw [length_take]
    exact min_eq_left hk.le
  have hne : (frame record.type record.payload).take k ≠ [] := by
    intro hnil
    rw [hnil, length_nil] at hlength
    omega
  rw [Record.encode, length_frame] at hk
  unfold readPiece Record.encode
  rw [if_neg hne, hlength]
  by_cases hheader : k < headerSize
  · rw [if_pos hheader]
  · have hsize : headerSize = 16 := rfl
    simp (disch := omega) only [if_neg hheader, slice_take, number_take, hmagic,
      hversion, hkind, hzero, hn]
    rw [if_neg (not_not.mpr rfl), if_neg (by omega), if_pos hk]
    split
    · rfl
    · rfl

end Reticulum.Lxmf
