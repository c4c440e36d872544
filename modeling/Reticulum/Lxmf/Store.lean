import Reticulum.Lxmf.Message

/-!
# The message store

The journal of `src/lxmf/store.c` at the level of its records. A store is an index of the messages
it holds, kept in memory, and a journal on disk to which every change appends one record before the
index follows.

An append either puts the whole record on disk or leaves the journal as it was: `disk n` is what the
`n`-th append of the store returns, and a record is on disk when that is `ok`. Message ids are
distinct in an index, since a put of an id that is there changes nothing.
`Reticulum.Lxmf.Journal` is the same store at the level of the bytes of its file.
-/

namespace Reticulum.Lxmf

open List

/-- `lxmf_delivery_status_t`. -/
inductive DeliveryStatus
  | queued
  | sending
  | sent
  | delivered
  | failed
deriving DecidableEq, Repr

/-- `lxmf_delivery_method_t`. -/
inductive DeliveryMethod
  | unknown
  | direct
  | opportunistic
  | propagated
deriving DecidableEq, Repr

/-- `lxmf_queue_reason_t`. -/
inductive QueueReason
  | none
  | peerIdentity
  | path
  | stamp
  | link
  | resource
  | propagationNode
  | retryBackoff
  | cancelled
  | retryExhausted
  | identityTimeout
  | storage
deriving DecidableEq, Repr

/-- `LXMF_DELIVERY_PROGRESS_COMPLETE`. -/
def progressComplete : ℕ := 1000000

/-- `lxmf_delivery_metadata_t`. The proof id is there when `has_proof_id` is true. -/
structure DeliveryMetadata where
  desired_method : DeliveryMethod := .unknown
  actual_method : DeliveryMethod := .unknown
  attempts : ℕ := 0
  queue_reason : QueueReason := .none
  retry_at_ms : ℕ := 0
  identity_deadline : ℕ := 0
  progress : ℕ := 0
  proof_id : Option (Octets 32) := none
deriving DecidableEq

/-- `valid_delivery`. The methods and the reason are in range by their types. -/
def DeliveryMetadata.valid (delivery : DeliveryMetadata) : Bool :=
  delivery.progress ≤ progressComplete

/-- `lxmf_store_message_t`, with the packed bytes that the journal keeps. -/
structure StoreMessage where
  message_id : Octets 32
  destination : Octets 16
  source : Octets 16
  timestamp : Octets 8
  status : DeliveryStatus
  content : List UInt8
  signature_state : SignatureState
  packed : List UInt8
  delivery : DeliveryMetadata
deriving DecidableEq

/-- A record of the journal. -/
inductive Record
  | put (message : StoreMessage)
  | status (id : Octets 32) (status : DeliveryStatus)
  | signature (id : Octets 32) (state : SignatureState)
  | remove (id : Octets 32)
  | delivery (id : Octets 32) (delivery : DeliveryMetadata)
  | replace (message : StoreMessage)
deriving DecidableEq

/-- The message that a record is about. -/
def Record.message_id : Record → Octets 32
  | .put m | .replace m => m.message_id
  | .status id _ | .signature id _ | .remove id | .delivery id _ => id

/-- `LXMF_STORE_MAX_CONTENT`. -/
def maxContent : ℕ := 4096

/-- `LXMF_STORE_MAX_MESSAGES`. -/
def maxMessages : ℕ := 1024

/-- `LXMF_STORE_MAX_PACKED`. -/
def maxPacked : ℕ := 8 * 1024 * 1024

/-- `LXMF_STORE_MAX_UNVERIFIED`. -/
def maxUnverified : ℕ := 32

/-- `LXMF_STORE_MAX_UNVERIFIED_SOURCES`. -/
def maxUnverifiedSources : ℕ := 8

/-! ## The index -/

/-- The messages of a store, in the order of their records. -/
abbrev Index := List StoreMessage

namespace Index

/-- `find`. -/
def find (index : Index) (id : Octets 32) : Option StoreMessage :=
  find? (fun e => e.message_id = id) index

/-- The entry of an id changed. -/
def modify (index : Index) (id : Octets 32) (f : StoreMessage → StoreMessage) : Index :=
  map (fun e => if e.message_id = id then f e else e) index

/-- `drop_index`. -/
def drop (index : Index) (id : Octets 32) : Index := filter (fun e => e.message_id ≠ id) index

variable {index : Index} {id : Octets 32} {e : StoreMessage} {f : StoreMessage → StoreMessage}

/-- An entry that is found has the id. -/
theorem message_id_of_find (h : index.find id = some e) : e.message_id = id := by
  simpa using find?_some h

/-- An entry that is found is in the index. -/
theorem mem_of_find (h : index.find id = some e) :
    e ∈ (index : List StoreMessage) := mem_of_find?_eq_some h

/-- Changing the entry of another id leaves an entry where it is. -/
theorem find_modify_of_ne {other : Octets 32} (hf : ∀ e, (f e).message_id = e.message_id)
    (h : other ≠ id) : (index.modify other f).find id = index.find id := by
  induction index with
  | nil => rfl
  | cons e index ih =>
    simp only [Index.modify, Index.find, map_cons, find?_cons] at ih ⊢
    by_cases hid : e.message_id = other
    · have hne : e.message_id ≠ id := hid ▸ h
      simpa [hid, hf, h, hne] using ih
    · by_cases hid' : e.message_id = id
      · simp [hid', Ne.symm h]
      · simpa [hid, hid'] using ih

/-- The entry of an id that was changed. -/
theorem find_modify (hf : ∀ e, (f e).message_id = e.message_id) :
    (index.modify id f).find id = (index.find id).map f := by
  induction index with
  | nil => rfl
  | cons e index ih =>
    simp only [Index.modify, Index.find, map_cons, find?_cons] at ih ⊢
    by_cases hid : e.message_id = id
    · simp [hid, hf]
    · simpa [hid] using ih

/-- A change adds no id and takes none away. -/
theorem isSome_find_modify (hf : ∀ e, (f e).message_id = e.message_id) (other : Octets 32) :
    ((index.modify id f).find other).isSome = (index.find other).isSome := by
  by_cases hother : id = other
  · subst hother
    rw [find_modify hf, Option.isSome_map]
  · rw [find_modify_of_ne hf hother]

/-- Dropping another id leaves an entry where it is. -/
theorem find_drop_of_ne {other : Octets 32} (h : other ≠ id) :
    (index.drop other).find id = index.find id := by
  rw [Index.find, Index.drop, find?_filter, Index.find]
  congr 1
  funext e
  by_cases hid : e.message_id = id
  · simp [hid, h.symm]
  · simp [hid]

/-- An id that was dropped is gone. -/
theorem find_drop (index : Index) (id : Octets 32) : (index.drop id).find id = none := by
  rw [Index.find, find?_eq_none]
  intro e he
  simpa using (mem_filter.mp he).2

/-- A message put behind the others is found where no other has its id. -/
theorem find_append {message : StoreMessage} (id : Octets 32) : Index.find (index ++ [message]) id =
      (index.find id).or (if message.message_id = id then some message else none) := by
  simp only [Index.find, find?_append, find?_cons, find?_nil]
  split_ifs with h <;> simp [h]

/-- No two messages have one id. -/
def Distinct (index : Index) : Prop := (map StoreMessage.message_id index).Nodup

section

variable (h : index.Distinct)
include h

/-- Where no two messages have one id, a message is what is found under its id. -/
theorem find_of_mem (he : e ∈ (index : List StoreMessage)) : index.find e.message_id = some e := by
  induction index with
  | nil => exact absurd he not_mem_nil
  | cons x index ih =>
    rw [Distinct, map_cons, nodup_cons] at h
    rw [Index.find, find?_cons]
    rcases mem_cons.mp he with rfl | he
    · rw [decide_eq_true rfl]
    · have hne : x.message_id ≠ e.message_id := by
        intro heq
        exact h.1 (heq ▸ mem_map_of_mem he)
      rw [decide_eq_false hne]
      exact ih h.2 he

/-- A change that leaves the ids leaves them distinct. -/
theorem Distinct.modify (id : Octets 32)
    (hf : ∀ e, (f e).message_id = e.message_id) : (index.modify id f).Distinct := by
  rw [Distinct, Index.modify, map_map]
  refine (map_congr_left fun e _ => ?_ : _ = map StoreMessage.message_id index) ▸ h
  dsimp only [Function.comp_apply]
  split
  · exact hf e
  · rfl

/-- A message that goes leaves the others distinct. -/
theorem Distinct.drop (id : Octets 32) :
    (index.drop id).Distinct := h.sublist (filter_sublist.map _)

/-- A message of a new id leaves the ids distinct. -/
theorem Distinct.append (hnew : index.find e.message_id = none) : Distinct (index ++ [e]) := by
  rw [Distinct, map_append, nodup_append]
  refine ⟨h, nodup_singleton _, ?_⟩
  intro a ha b hb heq
  obtain ⟨x, hx, rfl⟩ := mem_map.mp ha
  rw [map_singleton, mem_singleton] at hb
  rw [Index.find, find?_eq_none] at hnew
  exact hnew x hx (decide_eq_true (heq.trans hb))

end

end Index

/-! ## Records -/

/-- What a record makes of the index. -/
def Record.apply (index : Index) : Record → Index
  | .put m => index ++ [m]
  | .replace m => index.modify m.message_id fun _ => m
  | .status id value => index.modify id fun e => { e with status := value }
  | .signature id value => index.modify id fun e => { e with signature_state := value }
  | .remove id => index.drop id
  | .delivery id value => index.modify id fun e => { e with delivery := value }

/-- A record that an index can take: a message that is new to it and for which there is room, or a
change whose values are in range. -/
def Record.Fits (index : Index) : Record → Prop
  | .put m =>
    m.content.length ≤ maxContent ∧ m.packed.length ≤ maxPacked ∧ m.delivery.valid ∧
      index.find m.message_id = none ∧ index.length < maxMessages
  | .replace m =>
    m.content.length ≤ maxContent ∧ m.packed.length ≤ maxPacked ∧ m.delivery.valid ∧
      (index.find m.message_id).isSome
  | .delivery _ value => value.valid
  | _ => True

/-! ## The operations -/

/-- An open store: the index, the journal on disk, and how many appends were tried. -/
structure Store where
  index : Index
  journal : List Record
  appends : ℕ
deriving DecidableEq

namespace Store

/-- A store without messages. -/
def empty : Store := { index := [], journal := [], appends := 0 }

variable (disk : ℕ → Status)

section

variable (index : Index) (s : Store) (id : Octets 32)

/-- `append_record` and `append_put_record`, and what the caller makes of the index when the record
is on disk. -/
def append (record : Record) (index : Index) : Status × Store :=
  if disk s.appends = .ok then
    (.ok, { index, journal := s.journal ++ [record], appends := s.appends + 1 })
  else (disk s.appends, { s with appends := s.appends + 1 })

/-- `remove_at`. -/
def removeAt : Status × Store :=
  append disk s (.remove id) (s.index.drop id)

/-- A message that counts against the caps. -/
def notVerified (e : StoreMessage) : Bool := e.signature_state ≠ .verified

/-- `unverified_total`. -/
def unverifiedTotal : ℕ := countP notVerified index

/-- `unverified_from`. -/
def unverifiedFrom (source : Octets 16) : ℕ :=
  countP (fun e => notVerified e ∧ e.source = source) index

/-- `unverified_sources`. -/
def unverifiedSources : ℕ :=
  ((filter notVerified index).map StoreMessage.source).dedup.length

/-- One round of the loop of `evict_one_unverified`, with the most so far and whose it is. -/
def worse (best : ℕ × Option StoreMessage) (e : StoreMessage) : ℕ × Option StoreMessage :=
  if notVerified e ∧ best.1 < unverifiedFrom index e.source then
    (unverifiedFrom index e.source, some e)
  else best

/-- The first message of a source with the most of them. -/
def victim : Option StoreMessage := (foldl (worse index) (0, none) index).2

/-- `evict_one_unverified`. -/
def evictOneUnverified : Status × Store :=
  match victim s.index with
  | none => (.bounds, s)
  | some e => s.removeAt disk e.message_id

/-- `enforce_unverified_caps`, with a bound on the rounds. Every round but the last one evicts a
message, so there are never more rounds than messages and one. -/
def enforceUnverifiedCaps (source : Octets 16) : ℕ → Store → Status × Store
  | 0, s => (.bounds, s)
  | rounds + 1, s =>
    if unverifiedTotal s.index < maxUnverified ∧
        (0 < unverifiedFrom s.index source ∨
          unverifiedSources s.index < maxUnverifiedSources) then (.ok, s)
    else
      match s.evictOneUnverified disk with
      | (.ok, s) => enforceUnverifiedCaps source rounds s
      | (status, s) => (status, s)

/-- The end of `lxmf_store_put`, once there is room for an unverified message. -/
def putRecord (m : StoreMessage) : (Status × Bool) × Store :=
  if maxMessages ≤ s.index.length then ((.bounds, false), s)
  else
    let (status, s) := append disk s (.put m) (s.index ++ [m])
    ((status, status = .ok), s)

/-- `lxmf_store_put`: the status and whether the message was inserted. -/
def put (m : StoreMessage) : (Status × Bool) × Store :=
  if m.content.length > maxContent ∨ m.packed.length > maxPacked ∨ ¬ m.delivery.valid then
    ((.argument, false), s)
  else if (s.index.find m.message_id).isSome then ((.ok, false), s)
  else if m.signature_state ≠ .verified then
    match enforceUnverifiedCaps disk m.source (s.index.length + 1) s with
    | (.ok, s) => s.putRecord disk m
    | (status, s) => ((status, false), s)
  else s.putRecord disk m

/-- A change of one entry that is written only where it changes something. -/
def update (same : StoreMessage → Bool) (record : Record)
    (f : StoreMessage → StoreMessage) : Status × Store :=
  match s.index.find id with
  | none => (.format, s)
  | some e => if same e then (.ok, s) else append disk s record (s.index.modify id f)

/-- `lxmf_store_update_status`. -/
def updateStatus (status : DeliveryStatus) : Status × Store :=
  s.update disk id (fun e => e.status = status) (.status id status) fun e => { e with status }

/-- `lxmf_store_update_signature`. -/
def updateSignature (state : SignatureState) : Status × Store :=
  s.update disk id (fun e => e.signature_state = state) (.signature id state) fun e =>
    { e with signature_state := state }

/-- `lxmf_store_update_delivery`. -/
def updateDelivery (delivery : DeliveryMetadata) : Status × Store :=
  if ¬ delivery.valid then (.argument, s)
  else
    s.update disk id (fun e => e.delivery = delivery) (.delivery id delivery) fun e =>
      { e with delivery }

/-- `lxmf_store_remove`. -/
def remove : Status × Store :=
  match s.index.find id with
  | none => (.format, s)
  | some _ => s.removeAt disk id

/-- `lxmf_store_update_packed`. -/
def updatePacked (crypto : Crypto) (s : Store) (id : Octets 32) (packed : List UInt8) :
    Status × Store :=
  if packed = [] ∨ packed.length > maxPacked then (.argument, s)
  else
    match unpack crypto packed with
    | .error status => (status, s)
    | .ok parsed =>
      match s.index.find id with
      | none => (.format, s)
      | some e =>
        if parsed.message_id ≠ id ∨ parsed.source ≠ e.source ∨
            parsed.destination ≠ e.destination then (.format, s)
        else
          append disk s (.replace { e with packed }) (s.index.modify id fun _ => { e with packed })

/-- `lxmf_store_read_packed` into a buffer that is large enough. -/
def readPacked : Except Status (List UInt8) :=
  match s.index.find id with
  | none => .error .format
  | some e => if e.packed = [] then .error .format else .ok e.packed

end

/-- A message of a source, not verified and with nothing else in it. -/
def plainMessage (id source : UInt8) : StoreMessage where
  message_id := Octets.ofList 32 [id]
  destination := Octets.zero 16
  source := Octets.ofList 16 [source]
  timestamp := Octets.zero 8
  status := .delivered
  content := []
  signature_state := .unverified
  packed := []
  delivery := {}

end Store

end Reticulum.Lxmf
