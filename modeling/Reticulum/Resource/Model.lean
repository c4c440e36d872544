import Reticulum.Status
import Reticulum.Link.Model
import Reticulum.Resource.Msgpack

/-!
# Incoming resources

The receiving half of `src/link/resource.c`. A resource is a byte string that goes over a link in
parts. An advertisement announces it with its sizes, its hash and the first page of its map, which
has a four-byte hash of every part; the receiver asks for parts by their map hashes, a window at a
time, and for the next page of the map when it has every part that it knows of; once it has all
parts it joins them, decrypts and decompresses them, checks the hash and answers with a proof.

Only the map hashes that are known are in `map_hashes`: the source has room for all of them and a
count. A part's length is that of its bytes. Buffers of the caller are their capacities.
-/

namespace Reticulum

open Octets

/-! ## Sizes -/

namespace Resource

/-- `RNS_RESOURCE_WINDOW`. -/
def window : ℕ := 4

/-- `RNS_RESOURCE_WINDOW_MAX`. -/
def windowMax : ℕ := 75

/-- `RNS_RESOURCE_MAX_RETRIES`. -/
def maxRetries : ℕ := 16

/-- `RNS_RESOURCE_HASHMAP_MAX_ENTRIES`. -/
def hashmapMaxEntries : ℕ := 74

/-- `RNS_RESOURCE_MAX_PARTS`. -/
def maxParts : ℕ := 18000

/-- `RNS_RESOURCE_PART_MAX`. -/
def partMax : ℕ := 464

/-- `RNS_RESOURCE_MAX_SIZE`, and the default maximum. -/
def maxSize : ℕ := 8 * 1024 * 1024

/-- `RNS_RESOURCE_SINGLE_SEGMENT_MAX_SIZE`. -/
def singleSegmentMaxSize : ℕ := 1048575

/-- `UINT_MAX`. -/
def uintMax : ℕ := 2 ^ 32 - 1

/-! ## Compression -/

/-- What `BZ2_bzBuffToBuffDecompress` ends with. -/
inductive Decompressed
  | data (bytes : List UInt8)
  | outbuffFull
  | malformed
deriving DecidableEq

/-- What the code takes from bzip2. A build may be without it. -/
structure Bzip2 where
  /-- `BZ2_bzBuffToBuffCompress` into a buffer of the capacity. -/
  compress : List UInt8 → ℕ → Option (List UInt8)
  /-- `BZ2_bzBuffToBuffDecompress` into a buffer of the capacity. -/
  decompress : List UInt8 → ℕ → Decompressed

/-! ## Advertisements -/

/-- `rns_resource_advertisement`, with nothing for a request id that is not there. -/
structure Advertisement where
  transfer_size : ℕ
  data_size : ℕ
  parts : ℕ
  hash : Octets 32
  random_hash : Octets 4
  original_hash : Octets 32
  segment_index : ℕ
  total_segments : ℕ
  request_id : Option (Octets 16)
  flags : UInt8
  hashmap : List UInt8
deriving DecidableEq

namespace Advertisement

/-- The advertisement that the parser starts from. -/
def empty : Advertisement :=
  { transfer_size := 0
    data_size := 0
    parts := 0
    hash := Octets.zero 32
    random_hash := Octets.zero 4
    original_hash := Octets.zero 32
    segment_index := 0
    total_segments := 0
    request_id := none
    flags := 0
    hashmap := [] }

section

variable (a : Advertisement)

/-- `RNS_RESOURCE_FLAG_ENCRYPTED`. -/
def encrypted : Bool := a.flags &&& 0x01 ≠ 0

/-- `RNS_RESOURCE_FLAG_COMPRESSED`. -/
def compressed : Bool := a.flags &&& 0x02 ≠ 0

/-- `RNS_RESOURCE_FLAG_SPLIT`. -/
def split : Bool := a.flags &&& 0x04 ≠ 0

/-- `RNS_RESOURCE_FLAG_RESPONSE`. -/
def is_response : Bool := a.flags &&& 0x10 ≠ 0

end

end Advertisement

/-- `validate_advertisement`. -/
def validateAdvertisement (advertisement : Advertisement) : Status :=
  if advertisement.parts = 0 ∨ advertisement.parts > maxParts ∨ advertisement.transfer_size = 0 ∨
      advertisement.data_size > maxSize ∨ advertisement.segment_index = 0 ∨
      advertisement.segment_index > advertisement.total_segments ∨
      advertisement.hashmap.length % 4 ≠ 0 ∨
      advertisement.hashmap.length ≠ (if advertisement.parts < hashmapMaxEntries then
        advertisement.parts else hashmapMaxEntries) * 4 then .protocol
  else if advertisement.transfer_size > advertisement.parts * partMax ∨
      advertisement.parts > advertisement.transfer_size then .protocol
  else if advertisement.encrypted ∧
      (advertisement.transfer_size < 64 ∨ advertisement.transfer_size % 16 ≠ 0) then .protocol
  else if ¬ advertisement.encrypted ∧ advertisement.transfer_size < 4 then .protocol
  else if advertisement.split ≠ decide (advertisement.total_segments > 1) then .protocol
  else if advertisement.segment_index = 1 ∧ advertisement.hash ≠ advertisement.original_hash then
    .protocol
  else .ok

/-- The keys of an advertisement. -/
inductive Field
  | t
  | d
  | n
  | h
  | r
  | o
  | i
  | l
  | q
  | f
  | m
deriving DecidableEq

/-- The letter of a key. -/
def Field.key : Field → UInt8
  | .t => 0x74
  | .d => 0x64
  | .n => 0x6e
  | .h => 0x68
  | .r => 0x72
  | .o => 0x6f
  | .i => 0x69
  | .l => 0x6c
  | .q => 0x71
  | .f => 0x66
  | .m => 0x6d

/-- The keys with their bits in `seen`, from bit zero on. -/
def Field.all : List Field := [.t, .d, .n, .h, .r, .o, .i, .l, .q, .f, .m]

/-- The key of a letter. -/
def Field.ofKey (key : UInt8) : Option Field := Field.all.find? (fun field => field.key = key)

/-- The value of one key, read into what is parsed so far. -/
def Advertisement.readField (parsed : Advertisement) (field : Field) (reader : List UInt8) :
    Option (Advertisement × List UInt8) :=
  match field with
  | .t => do
    let (value, reader) ← mpUint reader
    some ({ parsed with transfer_size := value }, reader)
  | .d => do
    let (value, reader) ← mpUint reader
    some ({ parsed with data_size := value }, reader)
  | .n => do
    let (value, reader) ← mpUint reader
    some ({ parsed with parts := value }, reader)
  | .i => do
    let (value, reader) ← mpUint reader
    some ({ parsed with segment_index := value }, reader)
  | .l => do
    let (value, reader) ← mpUint reader
    some ({ parsed with total_segments := value }, reader)
  | .f => do
    let (value, reader) ← mpUint reader
    if value > 0xff then none else some ({ parsed with flags := UInt8.ofNat value }, reader)
  | .q =>
    if reader.head? = some 0xc0 then some (parsed, reader.drop 1)
    else do
      let (value, reader) ← mpOctets 16 reader
      some ({ parsed with request_id := some value }, reader)
  | .h => do
    let (value, reader) ← mpOctets 32 reader
    some ({ parsed with hash := value }, reader)
  | .r => do
    let (value, reader) ← mpOctets 4 reader
    some ({ parsed with random_hash := value }, reader)
  | .o => do
    let (value, reader) ← mpOctets 32 reader
    some ({ parsed with original_hash := value }, reader)
  | .m => do
    let (value, reader) ← mpBin reader
    some ({ parsed with hashmap := value }, reader)

/-- The loop of the parser over `count` keys, with the keys that it has seen. -/
def Advertisement.readFields : ℕ → Advertisement → List Field → List UInt8 →
    Option (Advertisement × List Field × List UInt8)
  | 0, parsed, seen, reader => some (parsed, seen, reader)
  | count + 1, parsed, seen, reader => do
    let (key, reader) ← mpKey reader
    let field ← Field.ofKey key
    if field ∈ seen then none
    else
      let (parsed, reader) ← parsed.readField field reader
      readFields count parsed (field :: seen) reader

/-- `rns_resource_advertisement_parse`. With eleven keys and none twice, all have been seen. -/
def advertisementParse (data : List UInt8) : Except Status Advertisement :=
  if data.length = 0 then .error .invalidArgument
  else
    match mpByte data with
    | none => .error .protocol
    | some (map_tag, reader) =>
      if map_tag ≠ 0x8b then .error .protocol
      else
        match Advertisement.readFields 11 Advertisement.empty [] reader with
        | none => .error .protocol
        | some (parsed, seen, reader) =>
          if ¬ Field.all ⊆ seen ∨ reader ≠ [] then .error .protocol
          else if validateAdvertisement parsed ≠ .ok then .error .protocol
          else .ok parsed

end Resource

/-! ## The receiver -/

/-- `rns_resource`. -/
structure Resource where
  advertisement : Resource.Advertisement
  /-- The map hashes that are known, `known_hashes` of them. -/
  map_hashes : List (Octets 4)
  /-- The parts, with nothing for one that has not come. -/
  parts : List (Option (List UInt8))
  requested : List Bool
  received : ℕ
  retries_used : ℕ
  waiting : Bool
  /-- The proof, once the resource is assembled. -/
  proof : Option (List UInt8)
  max_size : ℕ
deriving DecidableEq

namespace Resource

section

variable (resource : Resource)

/-- `known_hashes`. -/
def known_hashes : ℕ := resource.map_hashes.length

/-- `rns_resource_accept`. -/
def accept (adv : Advertisement) (max_size : ℕ) : Except Status Resource :=
  if adv.parts > maxParts then .error .unsupported
  else if validateAdvertisement adv ≠ .ok then .error .protocol
  else
    let max_size := if max_size = 0 then maxSize else max_size
    let max_size := if max_size > maxSize then maxSize else max_size
    if adv.data_size > max_size then .error .overflow
    else
      .ok
        { advertisement := adv
          map_hashes := readMany 4 (adv.hashmap.length / 4) adv.hashmap
          parts := List.replicate adv.parts none
          requested := List.replicate adv.parts false
          received := 0
          retries_used := 0
          waiting := false
          proof := none
          max_size }

/-- Whether the part has not come. -/
def missing (i : ℕ) : Bool := (resource.parts.getD i none).isNone

/-- Whether the part has been asked for. -/
def isRequested (i : ℕ) : Bool := resource.requested.getD i false

/-- The known parts that have been asked for and have not come. -/
def outstanding : List ℕ :=
  (List.range resource.known_hashes).filter
    (fun i => resource.missing i && resource.isRequested i)

/-- `rns_resource_outstanding_parts`. -/
def outstandingParts : ℕ := resource.outstanding.length

/-- `rns_resource_parts_complete`. -/
def partsComplete : Bool :=
  resource.received = resource.advertisement.parts

/-- The map hash of a part: the first four bytes of what `hash_part` gives. -/
def mapHash (crypto : Crypto) (part : List UInt8) (random_hash : Octets 4) : Octets 4 :=
  ofList 4 (crypto.sha256 (part ++ random_hash.bytes)).bytes

/-- `rns_resource_receive_part`. -/
def receivePart (crypto : Crypto) (resource : Resource) (part : List UInt8) : Status × Resource :=
  if part.length = 0 then (.invalidArgument, resource)
  else if part.length > partMax then (.protocol, resource)
  else
    let digest := mapHash crypto part resource.advertisement.random_hash
    match resource.map_hashes.findIdx? (fun hash => digest = hash) with
    | none => (.protocol, resource)
    | some i =>
      match resource.parts.getD i none with
      | some held => (if held = part then .ok else .protocol, resource)
      | none =>
        (.ok, { resource with
          parts := resource.parts.set i (some part)
          requested := resource.requested.set i false
          received := resource.received + 1
          retries_used := 0 })

/-! ## Requests -/

/-- The known parts to ask for next: those that are neither there nor asked for, as far as the
window has room. -/
def missingParts : List ℕ :=
  let available := if resource.outstandingParts < window then window - resource.outstandingParts
    else 0
  ((List.range resource.known_hashes).filter
    (fun i => resource.missing i && !resource.isRequested i)).take available

/-- The map hash of a known part. -/
def mapHashAt (i : ℕ) : Octets 4 :=
  resource.map_hashes.getD i (Octets.zero 4)

/-- A request for parts by their map hashes. -/
def partsRequest (hash : Octets 32) (wanted : List (Octets 4)) : List UInt8 :=
  0x00 :: hash.bytes ++ writeMany wanted

/-- A request for the page of the map behind the map hash `last`, which asks for parts too. -/
def mapRequest (last : Octets 4) (hash : Octets 32) (wanted : List (Octets 4)) : List UInt8 :=
  0xff :: last.bytes ++ hash.bytes ++ writeMany wanted

/-- `rns_resource_build_request` into a buffer of the capacity. -/
def buildRequest (capacity : ℕ) : Except Status (List UInt8) × Resource :=
  if resource.partsComplete then (.error .invalidState, resource)
  else if resource.missingParts ≠ [] then
    let request := partsRequest resource.advertisement.hash
      (resource.missingParts.map resource.mapHashAt)
    if capacity < request.length then (.error .overflow, resource)
    else
      (.ok request, { resource with
        requested := resource.missingParts.foldl (fun requested i => requested.set i true)
          resource.requested
        waiting := false })
  else if resource.outstandingParts ≠ 0 then (.error .invalidState, resource)
  else if resource.known_hashes ≥ resource.advertisement.parts then
    (.error .invalidState, resource)
  else
    let repeated := if resource.known_hashes < window then resource.known_hashes else window
    let request := mapRequest (resource.mapHashAt (resource.known_hashes - 1))
      resource.advertisement.hash (resource.map_hashes.drop (resource.known_hashes - repeated))
    if capacity < request.length then (.error .overflow, resource)
    else (.ok request, { resource with waiting := true })

/-- `rns_resource_build_retry_request` into a buffer of the capacity: what is outstanding is asked
for again. -/
def buildRetryRequest (capacity : ℕ) : Except Status (List UInt8) × Resource :=
  if resource.retries_used ≥ maxRetries then (.error .timeout, resource)
  else if resource.outstandingParts > window then (.error .protocol, resource)
  else
    let previous := resource.outstanding
    let cleared := { resource with
      requested := previous.foldl (fun requested i => requested.set i false) resource.requested }
    match cleared.buildRequest capacity with
    | (.error status, cleared) =>
      (.error status, { cleared with
        requested := previous.foldl (fun requested i => requested.set i true)
          cleared.requested })
    | (.ok request, resource) =>
      (.ok request, { resource with retries_used := resource.retries_used + 1 })

/-- `rns_resource_retry_timeout`, of finite times. -/
def retryTimeout (rtt_seconds part_airtime_seconds : ℚ) (outstanding_parts retries_used : ℕ) : ℚ :=
  let round_trip := 2 * max rtt_seconds 0
  let airtime := 2 * max part_airtime_seconds 0 * (min outstanding_parts window : ℕ)
  let transport := if round_trip > airtime then round_trip else airtime
  let result := transport + 1 / 4 + (min retries_used maxRetries : ℕ) * (1 / 2)
  if result > 3600 then 3600 else result

/-! ## The map -/

/-- `parse_hashmap_update`: the page and its map hashes. -/
def parseHashmapUpdate (update : List UInt8) (hash : Octets 32) : Option (ℕ × List UInt8) :=
  if update.length < 35 then none
  else if update.take 32 ≠ hash.bytes then none
  else do
    let (tag, reader) ← mpByte (update.drop 32)
    if tag ≠ 0x92 then none
    else
      let (page, reader) ← mpUint reader
      let (map, reader) ← mpBin reader
      if reader ≠ [] then none else some (page, map)

/-- `rns_resource_apply_hashmap_update`. A page that is known has to be the same; a new one has to
be the next, and asked for. -/
def applyHashmapUpdate (update : List UInt8) : Status × Resource :=
  match parseHashmapUpdate update resource.advertisement.hash with
  | none => (.protocol, resource)
  | some (page, map) =>
    let page_start := page * hashmapMaxEntries
    if page_start ≥ 2 ^ 64 ∨ page_start ≥ resource.advertisement.parts then (.protocol, resource)
    else
      let remaining := resource.advertisement.parts - page_start
      let entries := if remaining > hashmapMaxEntries then hashmapMaxEntries else remaining
      if map.length = 0 ∨ map.length ≠ entries * 4 then (.protocol, resource)
      else if page_start < resource.known_hashes then
        (if page_start + entries ≤ resource.known_hashes ∧
            writeMany ((resource.map_hashes.drop page_start).take entries) = map then .ok
          else .protocol, resource)
      else if !resource.waiting ∨ page_start ≠ resource.known_hashes then (.protocol, resource)
      else
        (.ok, { resource with
          map_hashes := resource.map_hashes ++ readMany 4 entries map
          waiting := false
          retries_used := 0 })

/-! ## Assembly -/

/-- The bytes of the parts that have come, one after the other. -/
def wire : List UInt8 := resource.parts.reduceOption.flatten

/-- What the four bytes at the front of the plaintext hide, decompressed into a buffer of the
capacity where the advertisement says that it is compressed. -/
def unpack (bzip2 : Option Bzip2) (resource : Resource) (processed : List UInt8) (capacity : ℕ) :
    Except Status (List UInt8) :=
  if resource.advertisement.compressed then
    match bzip2 with
    | none => .error .unsupported
    | some bzip2 =>
      let output_limit := if capacity > resource.max_size then resource.max_size else capacity
      let output_limit := if output_limit > resource.advertisement.data_size then
        resource.advertisement.data_size else output_limit
      if output_limit > uintMax then .error .overflow
      else if processed.length > uintMax then .error .protocol
      else
        match bzip2.decompress processed output_limit with
        | .outbuffFull => .error .overflow
        | .malformed => .error .protocol
        | .data bytes => .ok bytes
  else if capacity < processed.length ∨ processed.length > resource.max_size ∨
      processed.length > resource.advertisement.data_size then .error .overflow
  else .ok processed

/-- The proof of the data of a resource. -/
def proofOf (crypto : Crypto) (hash : Octets 32) (data : List UInt8) : List UInt8 :=
  hash.bytes ++ (crypto.sha256 (data ++ hash.bytes)).bytes

/-- `rns_resource_assemble` into a buffer of the capacity, over the link where there is one. -/
def assemble (p : Primitives) (bzip2 : Option Bzip2) (resource : Resource) (link : Option Link)
    (capacity : ℕ) : Except Status (List UInt8) × Resource :=
  let adv := resource.advertisement
  if !resource.partsComplete then (.error .invalidState, resource)
  else if resource.wire.length ≠ adv.transfer_size then (.error .protocol, resource)
  else
    let plain : Except Status (List UInt8) :=
      if adv.encrypted then
        match link with
        | none => .error .invalidState
        | some link =>
          match link.decrypt p resource.wire resource.wire.length with
          | none => .error .crypto
          | some decrypted => .ok decrypted
      else .ok resource.wire
    match plain with
    | .error status => (.error status, resource)
    | .ok plain =>
      -- The prefix of an encrypted stream may be any four bytes.
      if plain.length < 4 ∨ (!adv.encrypted ∧ plain.take 4 ≠ adv.random_hash.bytes) then
        (.error .protocol, resource)
      else
        match unpack bzip2 resource (plain.drop 4) capacity with
        | .error status => (.error status, resource)
        | .ok result =>
          if result.length > resource.max_size ∨ result.length > adv.data_size then
            (.error .overflow, resource)
          else if p.sha256 (result ++ adv.random_hash.bytes) ≠ adv.hash then
            (.error .protocol, resource)
          else (.ok result, { resource with proof := some (proofOf p.toCrypto adv.hash result) })

/-- `rns_resource_build_proof`. -/
def buildProof : Except Status (List UInt8) :=
  match resource.proof with
  | none => .error .invalidState
  | some proof => .ok proof

end

end Resource

end Reticulum
