import Reticulum.Base.Crc
import Reticulum.Status
import Reticulum.Transport.Model

/-!
# The path store

The snapshot format of `src/transport/path_store.c`: a header of 32 bytes, then one record for each
live path entry, each after its size in two bytes. `pathStoreEncode` writes the live entries of a
transport and `pathStoreDecode` replaces the path table of a transport by what a snapshot holds.

Times in a snapshot are whole milliseconds. `secondsToMs` is computed on exact rationals, so its
bound is `UINT64_MAX / 1000` itself and its result the whole part of the product. `calloc` is taken
to succeed. `get16`, `get32` and `get64` are `Bytes.number` at an offset.
-/

namespace Reticulum.Transport

open Octets
open Bytes (beEncode slice number)

/-- `path_store_magic`. -/
def pathStoreMagic : List UInt8 := [0x52, 0x4e, 0x53, 0x50, 0x41, 0x54, 0x48, 0x31]

/-- `PATH_STORE_HEADER_SIZE`. -/
def pathStoreHeaderSize : ℕ := 32

/-- `PATH_STORE_RECORD_BASE_SIZE`. -/
def pathStoreRecordBaseSize : ℕ := 104

/-- `PATH_STORE_VERSION`. -/
def pathStoreVersion : ℕ := 2

/-- `PATH_STORE_IDENTITY_SIZE`. -/
def pathStoreIdentitySize : ℕ := 64

/-- The byte at an offset. -/
def byteAt (input : List UInt8) (offset : ℕ) : ℕ := number input offset 1

/-- `crc32_bytes`. -/
def crc32Bytes (data : List UInt8) : UInt32 := Crc.sum data

/-- `seconds_to_ms`. -/
def secondsToMs (seconds : ℚ) : Option ℕ :=
  if seconds < 0 ∨ seconds > (2^64 - 1) / 1000 then none
  else some (seconds * 1000).floor.toNat

/-! ## Encoding -/

/-- The size of the record of an entry. -/
def recordSize (entry : PathEntry) : ℕ :=
  pathStoreRecordBaseSize + entry.random_blobs.length * 10 +
    (if entry.identity_public_key.isSome then pathStoreIdentitySize else 0)

/-- The record of an entry, without its size, for a remaining lifetime and an age in
milliseconds. -/
def recordBytes (entry : PathEntry) (remaining_ms age_ms : ℕ) : List UInt8 :=
  entry.destination_hash.bytes ++ (entry.next_hop.bytes ++ (entry.announce_packet_hash.bytes ++
    (beEncode 8 entry.announce_timebase ++ (beEncode 8 entry.interface_id.toNat ++
    (beEncode 4 entry.interface_gravity.toUInt32.toNat ++ (beEncode 8 remaining_ms ++
    (beEncode 8 age_ms ++ (beEncode 1 entry.hops.toNat ++
    (beEncode 1 (if entry.unresponsive then 1 else 0) ++
    (beEncode 1 entry.random_blobs.length ++
    (beEncode 1 (if entry.identity_public_key.isSome then 1 else 0) ++
    (writeMany entry.random_blobs ++
      (entry.identity_public_key.elim [] Octets.bytes)))))))))))))

/-- The remaining lifetime and the age of an entry in milliseconds. -/
def recordTimes (now : ℚ) (entry : PathEntry) : Option (ℕ × ℕ) :=
  match secondsToMs (entry.expires_at - now) with
  | none => none
  | some remaining_ms =>
    match secondsToMs (if now > entry.updated_at then now - entry.updated_at else 0) with
    | none => none
    | some age_ms => some (remaining_ms, age_ms)

/-- The second loop of `rns_path_store_encode`: the records, each after its size. -/
def encodeRecords (now : ℚ) : List PathEntry → Option (List UInt8)
  | [] => some []
  | entry :: entries =>
    match recordTimes now entry with
    | none => none
    | some (remaining_ms, age_ms) =>
      match encodeRecords now entries with
      | none => none
      | some rest =>
        some (beEncode 2 (recordSize entry) ++ (recordBytes entry remaining_ms age_ms ++ rest))

/-- The first loop of `rns_path_store_encode`: the bytes required for the snapshot. -/
def requiredSize : List PathEntry → ℕ → Except Status ℕ
  | [], required => .ok required
  | entry :: entries, required =>
    if entry.random_blobs.length = 0 ∨ entry.random_blobs.length > maxRandomBlobs then
      .error .invalidState
    else if recordSize entry > 2^16 - 1 ∨ required > 2^64 - 1 - recordSize entry - 2 then
      .error .overflow
    else requiredSize entries (required + 2 + recordSize entry)

/-- The entries of a table that have not expired. -/
def liveEntries (paths : List (Option PathEntry)) (now : ℚ) : List PathEntry :=
  (Slots.entries paths).filter fun entry => !decide (entry.expires_at ≤ now)

/-- What `rns_path_store_encode` returns: its status, the length and the count that it stores, and
the output, which is there on success. -/
structure Snapshot where
  status : Status
  output_length : ℕ
  encoded_count : ℕ
  output : List UInt8
deriving DecidableEq

/-- The header of a snapshot, up to its checksum. -/
def snapshotHeader (count payload_length wall_time_ms : ℕ) : List UInt8 :=
  pathStoreMagic ++ (beEncode 2 pathStoreVersion ++ (beEncode 2 pathStoreHeaderSize ++
    (beEncode 4 count ++ (beEncode 4 payload_length ++ beEncode 8 wall_time_ms))))

/-- `rns_path_store_encode` into a buffer of the given capacity. -/
def pathStoreEncode (t : State) (now : Option ℚ) (wall_time_ms output_capacity : ℕ) : Snapshot :=
  match now with
  | none => ⟨.invalidState, 0, 0, []⟩
  | some now =>
    let entries := liveEntries t.paths now
    match requiredSize entries pathStoreHeaderSize with
    | .error status => ⟨status, 0, 0, []⟩
    | .ok required =>
      if entries.length > 2^32 - 1 ∨ required - pathStoreHeaderSize > 2^32 - 1 then
        ⟨.overflow, 0, 0, []⟩
      else if required > output_capacity then ⟨.overflow, required, entries.length, []⟩
      else
        match encodeRecords now entries with
        | none => ⟨.invalidState, required, entries.length, []⟩
        | some payload =>
          ⟨.ok, required, entries.length,
            snapshotHeader entries.length (required - pathStoreHeaderSize) wall_time_ms ++
              (beEncode 4 (crc32Bytes payload).toNat ++ payload)⟩

/-! ## Decoding -/

/-- The newest timebase of a history of blobs. -/
def latestTimebase (blobs : List (Octets 10)) : ℕ :=
  blobs.foldl (fun latest blob =>
    if randomBlobTimebase blob > latest then randomBlobTimebase blob else latest) 0

/-- What `rns_path_store_decode` knows when it comes to the records. -/
structure DecodeContext where
  version : ℕ
  now : ℚ
  offline_ms : ℕ
  maximum_lifetime_ms : ℕ

/-- One turn of the record loop of `rns_path_store_decode`: the entries retained after a record. -/
def decodeRecord (context : DecodeContext) (retained : List PathEntry) (record : List UInt8) :
    Except Status (List PathEntry) :=
  let blob_count := byteAt record 102
  let has_identity := decide (context.version ≥ 2) && decide (byteAt record 103 = 1)
  if byteAt record 101 > 1 ∨ byteAt record 103 > (if context.version ≥ 2 then 1 else 0) ∨
      blob_count = 0 ∨ blob_count > maxRandomBlobs ∨
      record.length ≠ pathStoreRecordBaseSize + blob_count * 10 +
        (if has_identity then pathStoreIdentitySize else 0) ∨
      retained.any (fun e => decide (e.destination_hash = ofList 16 record)) then
    .error .protocol
  else
    let remaining_ms := number record 84 8
    let age_ms := number record 92 8
    let random_blobs := readMany 10 blob_count (record.drop pathStoreRecordBaseSize)
    if remaining_ms > context.maximum_lifetime_ms ∨
        number record 64 8 ≠ latestTimebase random_blobs then .error .protocol
    else if remaining_ms > context.offline_ms then
      .ok (retained ++
        [{ destination_hash := ofList 16 record
           next_hop := ofList 16 (record.drop 16)
           announce_packet_hash := ofList 32 (record.drop 32)
           identity_public_key :=
             if has_identity then
               some (ofList 64 (record.drop (pathStoreRecordBaseSize + blob_count * 10)))
             else none
           random_blobs
           announce_timebase := number record 64 8
           interface_id := UInt64.ofNat (number record 72 8)
           interface_gravity := (UInt32.ofNat (number record 80 4)).toInt32
           hops := UInt8.ofNat (byteAt record 100)
           unresponsive := decide (byteAt record 101 ≠ 0)
           updated_at := context.now - ((age_ms : ℚ) / 1000 + (context.offline_ms : ℚ) / 1000)
           expires_at := context.now + ((remaining_ms - context.offline_ms : ℕ) : ℚ) / 1000 }])
    else .ok retained

/-- The record loop of `rns_path_store_decode` over `count` records, and the check that nothing
follows them. -/
def decodeRecords (context : DecodeContext) :
    ℕ → List UInt8 → List PathEntry → Except Status (List PathEntry)
  | 0, cursor, retained => if cursor.length ≠ 0 then .error .protocol else .ok retained
  | count + 1, cursor, retained =>
    if cursor.length < 2 then .error .protocol
    else
      let record_size := number cursor 0 2
      let cursor := cursor.drop 2
      if record_size < pathStoreRecordBaseSize ∨ record_size > cursor.length then
        .error .protocol
      else
        match decodeRecord context retained (cursor.take record_size) with
        | .error status => .error status
        | .ok retained => decodeRecords context count (cursor.drop record_size) retained

/-- `rns_path_store_decode`: its status, the transport after it, and the count that it stores. -/
def pathStoreDecode (t : State) (now : Option ℚ) (wall_time_ms : ℕ) (input : List UInt8) :
    Status × State × ℕ :=
  let version := number input 8 2
  if input.length < pathStoreHeaderSize ∨ slice input 0 8 ≠ pathStoreMagic ∨
      (version ≠ 1 ∧ version ≠ pathStoreVersion) ∨ number input 10 2 ≠ pathStoreHeaderSize then
    (.protocol, t, 0)
  else
    let declared_count := number input 12 4
    let payload := input.drop pathStoreHeaderSize
    if declared_count > t.config.path_capacity ∨ number input 16 4 ≠ payload.length ∨
        (crc32Bytes payload).toNat ≠ number input 28 4 then (.protocol, t, 0)
    else
      match now with
      | none => (.invalidState, t, 0)
      | some now =>
        let saved_wall_ms := number input 20 8
        let offline_ms := if wall_time_ms ≥ saved_wall_ms then wall_time_ms - saved_wall_ms else 0
        match secondsToMs t.config.path_lifetime with
        | none => (.invalidState, t, 0)
        | some maximum_lifetime_ms =>
          match decodeRecords ⟨version, now, offline_ms, maximum_lifetime_ms⟩ declared_count
              payload [] with
          | .error status => (status, t, 0)
          | .ok retained =>
            let paths := retained.map some ++
              List.replicate (t.config.path_capacity - retained.length) none
            (.ok, { t with paths }, retained.length)

end Reticulum.Transport
