import Reticulum.Lxmf.Format

/-!
# The message store and its file

`src/lxmf/store.c` at the level of the bytes of its file. The store keeps an index in memory, whose
entries say where in the file the record of a message is, and appends a record to the file for every
change. An append can fail after part of its record was written, or after all of it (`Outcome`).

`Reticulum.Lxmf.Store` is the same store at the level of its records: `Journal.perform_simulates`,
in `Reticulum.Lxmf.Simulation`, relates the two.
-/

namespace Reticulum.Lxmf

open Octets
open Bytes (slice)

/-! ## The index -/

/-- `index_entry`. -/
structure Entry where
  id : Octets 32
  source : Octets 16
  offset : ℕ
  content_len : ℕ
  packed_len : ℕ
  fixed : ℕ
  status : DeliveryStatus
  signature : SignatureState
  delivery : DeliveryMetadata
deriving DecidableEq

namespace Entry

/-- `find`. -/
def find (index : List Entry) (id : Octets 32) : Option Entry :=
  index.find? fun e => e.id = id

/-- The entry of an id changed. -/
def modify (index : List Entry) (id : Octets 32) (f : Entry → Entry) : List Entry :=
  index.map fun e => if e.id = id then f e else e

/-- `drop_index`. -/
def drop (index : List Entry) (id : Octets 32) : List Entry := index.filter fun e => e.id ≠ id

/-- What the index knows of a message. -/
def head (e : Entry) : StoreMessage where
  message_id := e.id
  destination := Octets.zero 16
  source := e.source
  timestamp := Octets.zero 8
  status := e.status
  content := []
  signature_state := e.signature
  packed := []
  delivery := e.delivery

end Entry

/-- The entry that `upsert` makes for a put at an offset, with the attributes of the put. -/
def PutHead.entry (head : PutHead) (offset : ℕ) : Entry where
  id := head.id
  source := head.source
  offset := offset
  content_len := head.content_len
  packed_len := head.packed_len
  fixed := head.fixed
  status := head.status
  signature := head.signature
  delivery := head.delivery.getD {}

/-- What a put of an id that is there does to its entry. A replacement moves it to its own
record. -/
def PutHead.update (head : PutHead) (replacement : Bool) (offset : ℕ) (e : Entry) : Entry :=
  let e := if replacement then
      { e with offset, fixed := head.fixed, content_len := head.content_len,
               packed_len := head.packed_len }
    else e
  { e with status := head.status, signature := head.signature,
           delivery := head.delivery.getD e.delivery }

/-! ## Opening -/

/-- What `scan` makes of a record. -/
inductive Applied
  | index (index : List Entry)
  | recover
  | bounds

/-- The end of a round of `scan`, for the record at an offset. -/
def Change.apply (offset : ℕ) (index : List Entry) : Change → Applied
  | .put replacement head =>
    match Entry.find index head.id with
    | some _ => .index (Entry.modify index head.id (head.update replacement offset))
    | none =>
      if replacement then .recover
      else if maxMessages ≤ index.length then .bounds
      else .index (index ++ [head.entry offset])
  | .status id value => .index (Entry.modify index id fun e => { e with status := value })
  | .signature id value => .index (Entry.modify index id fun e => { e with signature := value })
  | .remove id => .index (Entry.drop index id)
  | .delivery id value => .index (Entry.modify index id fun e => { e with delivery := value })

/-- `scan` from an offset on, with the index so far: the index, and where the records end. Every
round but the last one reads a record, so there are never more rounds than bytes and one. -/
def scanFrom : ℕ → ℕ → List Entry → List UInt8 → Except Status (List Entry × ℕ)
  | 0, good, index, _ => .ok (index, good)
  | rounds + 1, good, index, bytes =>
    match readPiece good bytes with
    | .done => .ok (index, good)
    | .recover => .ok (index, good)
    | .format => .error .format
    | .record type payload rest =>
      match decodeChange type payload with
      | none => .ok (index, good)
      | some change =>
        match change.apply good index with
        | .recover => .ok (index, good)
        | .bounds => .error .bounds
        | .index index => scanFrom rounds (good + headerSize + payload.length) index rest

/-- `scan`. -/
def scanFile (file : List UInt8) : Except Status (List Entry × ℕ) :=
  scanFrom (file.length + 1) 0 [] file

/-- An open store: the bytes of its file and the index, how many appends were tried, and the records
of the appends that returned `LXMF_OK`. -/
structure Journal where
  file : List UInt8
  index : List Entry
  appends : ℕ
  acknowledged : List Record
deriving DecidableEq

/-! ## Appending -/

/-- How an append ends once its record fits into the file: the whole record is there; it failed and
some of its bytes are there, but not all; or the record is there and the file could not be
synchronised. -/
inductive Outcome
  | whole
  | torn (written : ℕ)
  | unsynced
deriving DecidableEq

/-- The bytes of a record that are there after the outcome. -/
def Outcome.written (outcome : Outcome) (bytes : List UInt8) : List UInt8 :=
  match outcome with
  | .whole | .unsynced => bytes
  | .torn n => bytes.take (min n (bytes.length - 1))

/-- What a record that is written at an offset makes of the index. -/
def Record.applyAt (offset : ℕ) (index : List Entry) : Record → List Entry
  | .put m => index ++ [m.putHead.entry offset]
  | .replace m => Entry.modify index m.message_id (m.putHead.update true offset)
  | .status id value => Entry.modify index id fun e => { e with status := value }
  | .signature id value => Entry.modify index id fun e => { e with signature := value }
  | .remove id => Entry.drop index id
  | .delivery id value => Entry.modify index id fun e => { e with delivery := value }

/-! ## Reading messages -/

namespace Entry

/-- `lxmf_store_read`, without the packed bytes, into a buffer that is large enough. -/
def read (file : List UInt8) (e : Entry) : Except Status StoreMessage :=
  let start := e.offset + headerSize
  if file.length < start + e.fixed ∨ file.length < start + e.fixed + e.content_len then
    .error .crypto
  else
    .ok
      { message_id := ofList 32 (file.drop start)
        destination := ofList 16 (file.drop (start + 32))
        source := ofList 16 (file.drop (start + 48))
        timestamp := ofList 8 (file.drop (start + 64))
        status := e.status
        content := slice file (start + e.fixed) e.content_len
        signature_state := e.signature
        packed := []
        delivery := e.delivery }

/-- `lxmf_store_read_packed` into a buffer that is large enough. -/
def readPacked (file : List UInt8) (e : Entry) : Except Status (List UInt8) :=
  let start := e.offset + headerSize + e.fixed + e.content_len
  if e.packed_len = 0 then .error .format
  else if file.length < start + e.packed_len then .error .crypto
  else .ok (slice file start e.packed_len)

/-- A message with its packed bytes, where it has some. -/
def message (file : List UInt8) (e : Entry) : Except Status StoreMessage :=
  match e.read file with
  | .error status => .error status
  | .ok m =>
    if e.packed_len = 0 then .ok m
    else (e.readPacked file).map fun packed => { m with packed }

/-- The messages of entries, as `lxmf_store_list` visits them. -/
def messages (file : List UInt8) : List Entry → Except Status (List StoreMessage)
  | [] => .ok []
  | e :: index =>
    match e.message file with
    | .error status => .error status
    | .ok m => (messages file index).map (m :: ·)

end Entry

namespace Journal

/-- A store that was opened on no file. -/
def empty : Journal := { file := [], index := [], appends := 0, acknowledged := [] }

/-- `lxmf_store_close` and `lxmf_store_open`. -/
def reopen (j : Journal) : Except Status Journal :=
  (scanFile j.file).map fun (index, good) => { j with file := j.file.take good, index }

/-- The list of messages. -/
def messages (j : Journal) : Except Status (List StoreMessage) := Entry.messages j.file j.index

variable (disk : ℕ → Outcome)

section

variable (j : Journal) (id : Octets 32)

/-- `append_record` and `append_put_record`, and what the caller makes of the index when they
succeed. -/
def append (record : Record) : Status × Journal :=
  let bytes := record.encode
  if j.file.length + bytes.length > maxFileSize then (.bounds, { j with appends := j.appends + 1 })
  else
    let file := j.file ++ (disk j.appends).written bytes
    if disk j.appends = .whole then
      (.ok,
        { file
          index := record.applyAt j.file.length j.index
          appends := j.appends + 1
          acknowledged := j.acknowledged ++ [record] })
    else (.crypto, { j with file, appends := j.appends + 1 })

/-- `remove_at`. -/
def removeAt : Status × Journal := j.append disk (.remove id)

/-- `evict_one_unverified`. -/
def evictOneUnverified : Status × Journal :=
  match Store.victim (j.index.map Entry.head) with
  | none => (.bounds, j)
  | some e => j.removeAt disk e.message_id

/-- `enforce_unverified_caps`, with a bound on the rounds. -/
def enforceUnverifiedCaps (source : Octets 16) : ℕ → Journal → Status × Journal
  | 0, j => (.bounds, j)
  | rounds + 1, j =>
    let index := j.index.map Entry.head
    if Store.unverifiedTotal index < maxUnverified ∧
        (0 < Store.unverifiedFrom index source ∨
          Store.unverifiedSources index < maxUnverifiedSources) then (.ok, j)
    else
      match j.evictOneUnverified disk with
      | (.ok, j) => enforceUnverifiedCaps source rounds j
      | (status, j) => (status, j)

/-- The end of `lxmf_store_put`, once there is room for an unverified message. -/
def putRecord (m : StoreMessage) : (Status × Bool) × Journal :=
  if maxMessages ≤ j.index.length then ((.bounds, false), j)
  else
    let (status, j) := j.append disk (.put m)
    ((status, status = .ok), j)

/-- `lxmf_store_put`: the status and whether the message was inserted. -/
def put (m : StoreMessage) : (Status × Bool) × Journal :=
  if m.content.length > maxContent ∨ m.packed.length > maxPacked ∨ ¬ m.delivery.valid then
    ((.argument, false), j)
  else if (Entry.find j.index m.message_id).isSome then ((.ok, false), j)
  else if m.signature_state ≠ .verified then
    match enforceUnverifiedCaps disk m.source (j.index.length + 1) j with
    | (.ok, j) => j.putRecord disk m
    | (status, j) => ((status, false), j)
  else j.putRecord disk m

/-- A change of one entry that is written only where it changes something. -/
def update (same : Entry → Bool) (record : Record) : Status × Journal :=
  match Entry.find j.index id with
  | none => (.format, j)
  | some e => if same e then (.ok, j) else j.append disk record

/-- `lxmf_store_update_status`. -/
def updateStatus (status : DeliveryStatus) : Status × Journal :=
  j.update disk id (fun e => e.status = status) (.status id status)

/-- `lxmf_store_update_signature`. -/
def updateSignature (state : SignatureState) : Status × Journal :=
  j.update disk id (fun e => e.signature = state) (.signature id state)

/-- `lxmf_store_update_delivery`. -/
def updateDelivery (delivery : DeliveryMetadata) : Status × Journal :=
  if ¬ delivery.valid then (.argument, j)
  else j.update disk id (fun e => e.delivery = delivery) (.delivery id delivery)

/-- `lxmf_store_remove`. -/
def remove : Status × Journal :=
  match Entry.find j.index id with
  | none => (.format, j)
  | some _ => j.removeAt disk id

/-- `lxmf_store_update_packed`. -/
def updatePacked (crypto : Crypto) (j : Journal) (id : Octets 32) (packed : List UInt8) :
    Status × Journal :=
  if packed = [] ∨ packed.length > maxPacked then (.argument, j)
  else
    match unpack crypto packed with
    | .error status => (status, j)
    | .ok parsed =>
      match Entry.find j.index id with
      | none => (.format, j)
      | some e =>
        match e.read j.file with
        | .error status => (status, j)
        | .ok message =>
          if parsed.message_id ≠ id ∨ parsed.source ≠ message.source ∨
              parsed.destination ≠ message.destination then (.format, j)
          else j.append disk (.replace { message with packed })

/-- The loop of `lxmf_store_compact`, which puts every message into another file. -/
def copyAll (file : List UInt8) : List Entry → ℕ → List UInt8 → Except Status (List UInt8) × ℕ
  | [], appends, out => (.ok out, appends)
  | e :: index, appends, out =>
    match e.message file with
    | .error status => (.error status, appends)
    | .ok m =>
      let bytes := (Record.put m).encode
      if out.length + bytes.length > maxFileSize then (.error .bounds, appends + 1)
      else if disk appends = .whole then copyAll file index (appends + 1) (out ++ bytes)
      else (.error .crypto, appends + 1)

/-- `lxmf_store_compact`. Where a message is not copied the file stays; otherwise the other file
takes its place and is read. -/
def compact : Status × Journal :=
  match copyAll disk j.file j.index j.appends [] with
  | (.error status, appends) => (status, { j with appends })
  | (.ok out, appends) =>
    match scanFile out with
    | .error status => (status, { j with file := out, index := [], appends })
    | .ok (index, good) => (.ok, { j with file := out.take good, index, appends })

end

/-! ## Runs -/

/-- Delivery metadata whose numbers the fields of `lxmf_delivery_metadata_t` can hold. -/
def Typed (d : DeliveryMetadata) : Prop :=
  d.attempts < 2 ^ 32 ∧ d.retry_at_ms < 2 ^ 64 ∧ d.identity_deadline < 2 ^ 64

/-- An operation on the store. -/
inductive Operation
  | put (m : StoreMessage) (typed : Typed m.delivery)
  | updateStatus (id : Octets 32) (status : DeliveryStatus)
  | updateSignature (id : Octets 32) (state : SignatureState)
  | updateDelivery (id : Octets 32) (delivery : DeliveryMetadata) (typed : Typed delivery)
  | updatePacked (id : Octets 32) (packed : List UInt8)
  | remove (id : Octets 32)
  | compact

/-- The status of an operation and the store after it. -/
def perform (crypto : Crypto) (j : Journal) : Operation → Status × Journal
  | .put m _ => ((j.put disk m).1.1, (j.put disk m).2)
  | .updateStatus id status => j.updateStatus disk id status
  | .updateSignature id state => j.updateSignature disk id state
  | .updateDelivery id delivery _ => j.updateDelivery disk id delivery
  | .updatePacked id packed => j.updatePacked disk crypto id packed
  | .remove id => j.remove disk id
  | .compact => j.compact disk

/-- The store after an operation. -/
def step (crypto : Crypto) (j : Journal) (operation : Operation) : Journal :=
  (j.perform disk crypto operation).2

end Journal

end Reticulum.Lxmf
