import Reticulum.Resource.Model

/-!
# Outgoing resources

The sending half of `src/link/resource.c`. A payload goes out in segments of at most
`singleSegmentMaxSize` bytes, each a resource of its own: a segment is hashed with a fresh salt,
compressed where that makes it shorter, encrypted for the link and cut into parts. The parts are
known by the first four bytes of their hashes, so a segment is prepared again, with another salt,
when two of them agree.

What is drawn at random is a parameter: a salt and an initialisation vector for each attempt. What a
failed preparation leaves in a sender is not modelled, since every caller discards it.
-/

namespace Reticulum

open Octets

/-- `rns_resource_sender`. A request id is there exactly for a response. -/
structure ResourceSender where
  source : List UInt8
  segment_index : ℕ
  total_segments : ℕ
  total_data_parts : ℕ
  auto_compress : Bool
  is_response : Bool
  request_id : Option (Octets 16)
  flags : UInt8
  random_hash : Octets 4
  hash : Octets 32
  original_hash : Octets 32
  wire : List UInt8
  parts : ℕ
  map_hashes : List (Octets 4)
deriving DecidableEq

namespace ResourceSender

open Resource

/-- What one attempt to prepare a segment draws at random, with nothing for a draw that fails. -/
structure Draw where
  salt : Option (Octets 4)
  iv : Option (Octets 16)
deriving DecidableEq

/-- The bytes of one segment of a payload. -/
def segmentOf (source : List UInt8) (segment_index : ℕ) : List UInt8 :=
  (source.drop ((segment_index - 1) * singleSegmentMaxSize)).take singleSegmentMaxSize

/-- The segment that the sender is at, `segment_source_length` bytes of its source. -/
def segment (sender : ResourceSender) : List UInt8 := segmentOf sender.source sender.segment_index

/-- `compressed_copy`: the compressed bytes, with nothing where they are not shorter. -/
def compressedCopy (bzip2 : Option Bzip2) (source : List UInt8) :
    Except Status (Option (List UInt8)) :=
  match bzip2 with
  | none => .ok none
  | some bzip2 =>
    let bound := source.length + source.length / 100 + 601
    if bound > uintMax then .error .overflow
    else
      match bzip2.compress source bound with
      | none => .error .protocol
      | some candidate =>
        .ok (if candidate.length < source.length then some candidate else none)

/-- The compressed bytes of a segment where compression is asked for. -/
def compressedSegment (bzip2 : Option Bzip2) (auto_compress : Bool) (segment : List UInt8) :
    Except Status (Option (List UInt8)) :=
  if auto_compress then compressedCopy bzip2 segment else .ok none

/-- The flags of a segment. -/
def segmentFlags (compressed split is_response : Bool) : UInt8 :=
  0x01 ||| (if compressed then 0x02 else 0) ||| (if split then 0x04 else 0) |||
    (if is_response then 0x10 else 0)

/-- The parts of `length` bytes. -/
def partCount (length : ℕ) : ℕ := (length + partMax - 1) / partMax

/-- The bytes of one part of a wire. -/
def partOf (wire : List UInt8) (index : ℕ) : List UInt8 := Bytes.slice wire (index * partMax) partMax

/-- The loop over the parts of a wire: the map hashes from part `i` on, of `count` parts, behind the
ones before, or nothing when one of them has been there. -/
def mapHashesFrom (crypto : Crypto) (wire : List UInt8) (random_hash : Octets 4) :
    ℕ → ℕ → List (Octets 4) → Option (List (Octets 4))
  | 0, _, hashes => some hashes
  | count + 1, i, hashes =>
    let digest := mapHash crypto (partOf wire i) random_hash
    if digest ∈ hashes then none
    else mapHashesFrom crypto wire random_hash count (i + 1) (hashes ++ [digest])

/-- `sender_prepare_segment_attempt`: the prepared sender, or nothing on a collision of map
hashes. -/
def prepareSegmentAttempt (p : Primitives) (bzip2 : Option Bzip2) (sender : ResourceSender)
    (link : Link) (draw : Draw) : Except Status (Option ResourceSender) :=
  match draw.salt with
  | none => .error .crypto
  | some random_hash =>
    let segment := sender.segment
    let hash := p.sha256 (segment ++ random_hash.bytes)
    match compressedSegment bzip2 sender.auto_compress segment with
    | .error status => .error status
    | .ok compressed =>
      let token_plain := random_hash.bytes ++ compressed.getD segment
      let wire_capacity := 16 + (token_plain.length / 16 + 1) * 16 + 32
      match draw.iv.bind (fun iv => link.encrypt p iv token_plain wire_capacity) with
      | none => .error .crypto
      | some wire =>
        let parts := partCount wire.length
        if parts = 0 ∨ parts > maxParts then .error .overflow
        else
          match mapHashesFrom p.toCrypto wire random_hash parts 0 [] with
          | none => .ok none
          | some map_hashes =>
            .ok (some { sender with
              random_hash
              hash
              original_hash := if sender.segment_index = 1 then hash else sender.original_hash
              flags := segmentFlags compressed.isSome (decide (sender.total_segments > 1))
                sender.is_response
              wire
              parts
              map_hashes })

/-- The attempts of `sender_prepare_segment` from `attempt` on, `count` at most. -/
def prepareSegmentFrom (p : Primitives) (bzip2 : Option Bzip2) (sender : ResourceSender)
    (link : Link) (draws : ℕ → Draw) : ℕ → ℕ → Except Status ResourceSender
  | 0, _ => .error .crypto
  | count + 1, attempt =>
    match prepareSegmentAttempt p bzip2 sender link (draws attempt) with
    | .error status => .error status
    | .ok (some prepared) => .ok prepared
    | .ok none => prepareSegmentFrom p bzip2 sender link draws count (attempt + 1)

/-- `sender_prepare_segment`. -/
def prepareSegment (p : Primitives) (bzip2 : Option Bzip2) (sender : ResourceSender) (link : Link)
    (draws : ℕ → Draw) : Except Status ResourceSender :=
  prepareSegmentFrom p bzip2 sender link draws 8 0

/-- `estimate_parts`. -/
def estimateParts (bzip2 : Option Bzip2) (source : List UInt8) (compress : Bool) :
    Except Status ℕ :=
  match compressedSegment bzip2 compress source with
  | .error status => .error status
  | .ok compressed =>
    let plain_length := (compressed.getD source).length + 4
    .ok (partCount (16 + (plain_length / 16 + 1) * 16 + 32))

/-- The parts of the `count` segments from the given one on, as far as they can be told. -/
def estimateFrom (bzip2 : Option Bzip2) (source : List UInt8) (compress : Bool) :
    ℕ → ℕ → Except Status ℕ
  | 0, _ => .ok 0
  | count + 1, segment_index =>
    match estimateParts bzip2 (segmentOf source segment_index) compress with
    | .error status => .error status
    | .ok parts =>
      match estimateFrom bzip2 source compress count (segment_index + 1) with
      | .error status => .error status
      | .ok rest => .ok (parts + rest)

/-- `rns_resource_sender_options`, with nothing for a request id that is not given. -/
structure Options where
  auto_compress : Bool
  is_response : Bool
  request_id : Option (Octets 16)
deriving DecidableEq

/-- The options of a sender that is given none. -/
def Options.default : Options := ⟨true, false, none⟩

section

variable (sender : ResourceSender) (request : List UInt8)

/-- `rns_resource_sender_create`. -/
def create (p : Primitives) (bzip2 : Option Bzip2) (link : Link) (source : List UInt8)
    (options : Options) (draws : ℕ → Draw) : Except Status ResourceSender :=
  if link.state ≠ .active ∨ source.length = 0 ∨ source.length > maxSize then
    .error .invalidArgument
  else if options.is_response ∧ options.request_id = none then .error .invalidArgument
  else
    let total_segments := (source.length + singleSegmentMaxSize - 1) / singleSegmentMaxSize
    match estimateFrom bzip2 source options.auto_compress total_segments 1 with
    | .error status => .error status
    | .ok total_data_parts =>
      prepareSegment p bzip2
        { source
          segment_index := 1
          total_segments
          total_data_parts
          auto_compress := options.auto_compress
          is_response := options.is_response
          request_id := if options.is_response then options.request_id else none
          flags := 0
          random_hash := Octets.zero 4
          hash := Octets.zero 32
          original_hash := Octets.zero 32
          wire := []
          parts := 0
          map_hashes := [] } link draws

/-- The value of the request id in an advertisement. -/
def requestIdBytes : Option (Octets 16) → List UInt8
  | some request_id => mpPutBin request_id.bytes
  | none => [0xc0]

/-- The hashes of the first page of the map. -/
def firstPage : List (Octets 4) :=
  sender.map_hashes.take (if sender.parts < hashmapMaxEntries then sender.parts
    else hashmapMaxEntries)

/-- The bytes of an advertisement of the sender. -/
def advertisementBytes : List UInt8 :=
  0x8b ::
    (mpPutKey Field.t.key ++ mpPutUint sender.wire.length ++
      mpPutKey Field.d.key ++ mpPutUint sender.source.length ++
      mpPutKey Field.n.key ++ mpPutUint sender.parts ++
      mpPutKey Field.h.key ++ mpPutBin sender.hash.bytes ++
      mpPutKey Field.r.key ++ mpPutBin sender.random_hash.bytes ++
      mpPutKey Field.o.key ++ mpPutBin sender.original_hash.bytes ++
      mpPutKey Field.i.key ++ mpPutUint sender.segment_index ++
      mpPutKey Field.l.key ++ mpPutUint sender.total_segments ++
      mpPutKey Field.q.key ++ requestIdBytes sender.request_id ++
      mpPutKey Field.f.key ++ mpPutUint sender.flags.toNat ++
      mpPutKey Field.m.key ++ mpPutBin (writeMany sender.firstPage))

/-- The bytes that an advertisement needs. -/
def advertisementSize : ℕ :=
  let map_length :=
    (if sender.parts < hashmapMaxEntries then sender.parts else hashmapMaxEntries) * 4
  1 + 11 * 2 + mpUintSize sender.wire.length + mpUintSize sender.source.length +
    mpUintSize sender.parts + mpBinHeaderSize 32 + 32 + mpBinHeaderSize 4 + 4 +
    mpBinHeaderSize 32 + 32 + mpUintSize sender.segment_index + mpUintSize sender.total_segments +
    (if sender.request_id.isSome then mpBinHeaderSize 16 + 16 else 1) +
    mpUintSize sender.flags.toNat + mpBinHeaderSize map_length + map_length

/-- `rns_resource_sender_advertisement` into a buffer of the capacity. -/
def advertisement (capacity : ℕ) : Except Status (List UInt8) :=
  if capacity < sender.advertisementSize then .error .overflow
  else if sender.advertisementBytes.length = sender.advertisementSize then
    .ok sender.advertisementBytes
  else .error .protocol

/-- The checks of `parse_request` once it knows where the hash of the resource and the map hashes of
the request are. -/
def checkRequest (hash_offset maps_offset : ℕ) : Except Status ℕ :=
  if request.length < maps_offset ∨ (request.length - maps_offset) % 4 ≠ 0 then .error .protocol
  else if Bytes.slice request hash_offset 32 ≠ sender.hash.bytes then .error .protocol
  else .ok maps_offset

/-- `parse_request`: where the map hashes of a request for this resource start. -/
def parseRequest : Except Status ℕ :=
  match request.head? with
  | none => .error .invalidArgument
  | some tag =>
    if tag = 0x00 then sender.checkRequest request 1 33
    else if tag = 0xff then sender.checkRequest request 5 37
    else .error .protocol

/-- The indexes of the wanted map hashes, for as many as there is room for. A hash that no part has
is passed over. -/
def findParts (sender : ResourceSender) (indexes_capacity : ℕ) :
    List (Octets 4) → List ℕ → Except Status (List ℕ)
  | [], indexes => .ok indexes
  | wanted :: rest, indexes =>
    match sender.map_hashes.findIdx? (fun hash => wanted = hash) with
    | none => findParts sender indexes_capacity rest indexes
    | some i =>
      if indexes.length ≥ indexes_capacity then .error .overflow
      else findParts sender indexes_capacity rest (indexes ++ [i])

/-- `rns_resource_sender_requested_parts` into an array of the capacity. -/
def requestedParts (indexes_capacity : ℕ) : Except Status (List ℕ) :=
  match sender.parseRequest request with
  | .error status => .error status
  | .ok maps_offset =>
    let requested := (request.length - maps_offset) / 4
    if requested > windowMax then .error .protocol
    else sender.findParts indexes_capacity
      (readMany 4 requested (request.drop maps_offset)) []

/-- The bytes of one page of the map. -/
def pageBytes (page : ℕ) : List UInt8 :=
  sender.hash.bytes ++ 0x92 :: (mpPutUint page ++ mpPutBin (writeMany
    ((sender.map_hashes.drop (page * hashmapMaxEntries)).take hashmapMaxEntries)))

/-- `rns_resource_sender_hashmap_update` into a buffer of the capacity. -/
def hashmapUpdate (capacity : ℕ) : Except Status (List UInt8) :=
  match sender.parseRequest request with
  | .error status => .error status
  | .ok _ =>
    if request.head? ≠ some 0xff then .error .notFound
    else
      match sender.map_hashes.findIdx?
          (fun hash => ofList 4 (Bytes.slice request 1 4) = hash) with
      | none => .error .protocol
      | some anchor_index =>
        if (anchor_index + 1) % hashmapMaxEntries ≠ 0 then .error .protocol
        else
          let page := (anchor_index + 1) / hashmapMaxEntries
          if page * hashmapMaxEntries ≥ sender.parts then .error .notFound
          else if capacity < (sender.pageBytes page).length then .error .overflow
          else .ok (sender.pageBytes page)

/-- `rns_resource_sender_part`. -/
def part (index : ℕ) : Except Status (List UInt8) :=
  if index ≥ sender.parts then .error .notFound else .ok (partOf sender.wire index)

end

/-- `rns_resource_sender_validate_proof`. -/
def validateProof (crypto : Crypto) (sender : ResourceSender) (proof : List UInt8) : Status :=
  if proof.length ≠ 64 ∨ proof.take 32 ≠ sender.hash.bytes then .crypto
  else if (crypto.sha256 (sender.segment ++ sender.hash.bytes)).bytes = proof.drop 32 then .ok
  else .crypto

/-- `rns_resource_sender_advance_segment`. -/
def advanceSegment (p : Primitives) (bzip2 : Option Bzip2) (sender : ResourceSender) (link : Link)
    (draws : ℕ → Draw) : Except Status ResourceSender :=
  if link.state ≠ .active then .error .invalidArgument
  else if sender.segment_index ≥ sender.total_segments then .error .invalidState
  else prepareSegment p bzip2 { sender with segment_index := sender.segment_index + 1 } link draws

end ResourceSender

end Reticulum
