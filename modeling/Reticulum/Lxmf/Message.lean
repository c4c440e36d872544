import Reticulum.Crypto
import Reticulum.Resource.Msgpack

/-!
# LXMF messages

The message codec of `src/lxmf/lxmf.c`. A packed message is a destination, a source, a signature
and a MessagePack array of a timestamp, a title, a content, a map of fields and, where the sender
paid for it, a stamp. The id of a message is the digest of the destination, the source and the array
written again without the stamp, and the signature is of the same bytes with the id behind them. So
neither the id nor the signature covers the stamp, and the id does not cover the signature.

A reader is the bytes that it has not read yet. A double is kept as its eight bytes.
-/

namespace Reticulum.Lxmf

open Octets
open Bytes (beDecode)
open Resource (mpTake mpPutBin)

/-- `lxmf_status_t`. -/
inductive Status
  | ok
  | argument
  | bounds
  | format
  | crypto
  | signature
  | cancelled
  | timeout
  | pending
  | unknownSigner
  | stamp
  | blocked
deriving DecidableEq, Repr

/-- `lxmf_signature_state_t`. -/
inductive SignatureState
  | verified
  | unverified
  | failed
deriving DecidableEq, Repr

/-- What the messages take from the crypto provider beyond digests and signature checks. -/
structure Provider extends Crypto where
  /-- `rns_identity_sign` by the local identity. -/
  sign : List UInt8 → Option (Octets 64)
  /-- The digest of the expanded work block of an id with a stamp behind it, unless the key
  derivation fails. -/
  stampDigest : Octets 32 → Octets 32 → Option (Octets 32)

/-- `LXMF_HEADER_LENGTH`. -/
def headerLength : ℕ := 96

/-- `LXMF_MAX_MESSAGE_SIZE`. -/
def maxMessageSize : ℕ := 8 * 1024 * 1024

/-- The depths that `LXMF_MAX_NESTING` lets a reader go to, the outermost one included. -/
def nesting : ℕ := 33

/-- `LXMF_STAMP_LENGTH`. -/
def stampLength : ℕ := 16

/-- `LXMF_POW_STAMP_LENGTH`. -/
def powStampLength : ℕ := 32

/-- `lxmf_message_t`. The stamp is the part of `stamp` that `stamp_len` says, with nothing where
`has_stamp` is false. -/
structure Message where
  destination : Octets 16
  source : Octets 16
  signature : Octets 64
  message_id : Octets 32
  timestamp : Octets 8
  title : List UInt8
  content : List UInt8
  fields_msgpack : List UInt8
  stamp : Option (List UInt8)
deriving DecidableEq

/-! ## Reading MessagePack -/

/-- A length of `width` bytes. -/
def readLength (width : ℕ) (reader : List UInt8) : Option (ℕ × List UInt8) :=
  (mpTake reader width).map fun (digits, reader) => (beDecode digits, reader)

/-- What follows the tag of an object: how many bytes of its own, how many objects inside it, and
the bytes behind its length. -/
def objectExtent (c : UInt8) (reader : List UInt8) : Option (ℕ × ℕ × List UInt8) :=
  if c ≤ 0x7f ∨ 0xe0 ≤ c ∨ c = 0xc0 ∨ c = 0xc2 ∨ c = 0xc3 then some (0, 0, reader)
  else if c &&& 0xe0 = 0xa0 then some ((c &&& 31).toNat, 0, reader)
  else if c &&& 0xf0 = 0x90 then some (0, (c &&& 15).toNat, reader)
  else if c &&& 0xf0 = 0x80 then some (0, 2 * (c &&& 15).toNat, reader)
  else if c = 0xc4 ∨ c = 0xd9 then (readLength 1 reader).map fun (n, reader) => (n, 0, reader)
  else if c = 0xc5 ∨ c = 0xda then (readLength 2 reader).map fun (n, reader) => (n, 0, reader)
  else if c = 0xc6 ∨ c = 0xdb then (readLength 4 reader).map fun (n, reader) => (n, 0, reader)
  else if c = 0xcc ∨ c = 0xd0 then some (1, 0, reader)
  else if c = 0xcd ∨ c = 0xd1 ∨ c = 0xd4 then some (2, 0, reader)
  else if c = 0xd5 then some (3, 0, reader)
  else if c = 0xca ∨ c = 0xce ∨ c = 0xd2 then some (4, 0, reader)
  else if c = 0xd6 then some (5, 0, reader)
  else if c = 0xcb ∨ c = 0xcf ∨ c = 0xd3 then some (8, 0, reader)
  else if c = 0xd7 then some (9, 0, reader)
  else if c = 0xd8 then some (17, 0, reader)
  else if c = 0xdc then (readLength 2 reader).map fun (items, reader) => (0, items, reader)
  else if c = 0xdd then (readLength 4 reader).map fun (items, reader) => (0, items, reader)
  else if c = 0xde then (readLength 2 reader).map fun (pairs, reader) => (0, 2 * pairs, reader)
  else if c = 0xdf then
    (readLength 4 reader).bind fun (pairs, reader) =>
      if pairs > (2 ^ 32 - 1) / 2 then none else some (0, 2 * pairs, reader)
  else none

/-- Passing over one object after the other. -/
def skipItems (skip : List UInt8 → Option (List UInt8)) : ℕ → List UInt8 → Option (List UInt8)
  | 0, reader => some reader
  | items + 1, reader => (skip reader).bind (skipItems skip items)

/-- `skip_obj`, with the number of depths that it may still go to. -/
def skipObj : ℕ → List UInt8 → Option (List UInt8)
  | 0, _ => none
  | _ + 1, [] => none
  | depths + 1, c :: reader =>
    match objectExtent c reader with
    | none => none
    | some (n, items, reader) =>
      if n > reader.length then none
      else skipItems (skipObj depths) items (reader.drop n)

/-- `get_bin`: a binary or a text string. -/
def getBin (reader : List UInt8) : Option (List UInt8 × List UInt8) :=
  match skipObj nesting reader, reader with
  | some rest, c :: start =>
    if 0xa0 ≤ c ∧ c ≤ 0xbf then some (start.take (c &&& 31).toNat, rest)
    else if c = 0xc4 ∨ c = 0xd9 then
      some ((start.drop 1).take (beDecode (start.take 1)), rest)
    else if c = 0xc5 ∨ c = 0xda then
      some ((start.drop 2).take (beDecode (start.take 2)), rest)
    else if c = 0xc6 ∨ c = 0xdb then
      some ((start.drop 4).take (beDecode (start.take 4)), rest)
    else none
  | _, _ => none

/-- `get_double`. -/
def getDouble (reader : List UInt8) : Option (Octets 8 × List UInt8) :=
  if reader.length < 9 ∨ reader.headD 0 ≠ 0xcb then none
  else some (ofList 8 (reader.drop 1), reader.drop 9)

/-- The tag of a map. -/
def mapTag (c : UInt8) : Bool := c &&& 0xf0 = 0x80 ∨ c = 0xde ∨ c = 0xdf

/-- `get_container_count`. -/
def getContainerCount (fix_mask fix_tag code16 code32 : UInt8) :
    List UInt8 → Option (ℕ × List UInt8)
  | [] => none
  | code :: reader =>
    if code &&& fix_mask = fix_tag then some ((code &&& ~~~fix_mask).toNat, reader)
    else if code = code16 then readLength 2 reader
    else if code = code32 then readLength 4 reader
    else none

/-- `get_unsigned`, which reads an integer as `mp_uint` of the resource messages does. -/
def getUnsigned (reader : List UInt8) : Option (ℕ × List UInt8) := Resource.mpUint reader

/-- The integer part of a floating-point number that is not negative and is below `2 ^ 64`, from its
bits, with the given numbers of bits for the exponent and for the fraction. -/
def floorOfBits (exponent_bits fraction_bits bits : ℕ) : Option ℕ :=
  let negative := bits / 2 ^ (exponent_bits + fraction_bits) % 2
  let exponent := bits / 2 ^ fraction_bits % 2 ^ exponent_bits
  let fraction := bits % 2 ^ fraction_bits
  -- Infinities are out of range and nothing compares with what is not a number.
  if exponent = 2 ^ exponent_bits - 1 then none
  else
    let scale := if exponent = 0 then 1 else exponent
    let significand := if exponent = 0 then fraction else fraction + 2 ^ fraction_bits
    let point := 2 ^ (exponent_bits - 1) - 1 + fraction_bits
    let value :=
      if point ≤ scale then significand * 2 ^ (scale - point)
      else significand / 2 ^ (point - scale)
    if (negative = 1 ∧ significand ≠ 0) ∨ 2 ^ 64 ≤ value then none else some value

/-- `get_expiry`: an integer, or a float or a double rounded down. -/
def getExpiry : List UInt8 → Option (ℕ × List UInt8)
  | [] => none
  | code :: reader =>
    if code = 0xca then
      (mpTake reader 4).bind fun (bits, reader) =>
        (floorOfBits 8 23 (beDecode bits)).map (·, reader)
    else if code = 0xcb then
      (mpTake reader 8).bind fun (bits, reader) =>
        (floorOfBits 11 52 (beDecode bits)).map (·, reader)
    else getUnsigned (code :: reader)

/-! ## The ticket field -/

/-- `lxmf_ticket_entry_t`: a ticket and when it expires. -/
structure TicketEntry where
  expires_at : ℕ
  ticket : Octets 16
deriving DecidableEq

/-- `LXMF_FIELD_TICKET`. -/
def fieldTicket : ℕ := 0x0c

section

variable (crypto : Crypto) (m : Message)

/-- The value of the ticket field. -/
def parseTicketValue (reader : List UInt8) : Option (TicketEntry × List UInt8) := do
  let (values, reader) ← getContainerCount 0xf0 0x90 0xdc 0xdd reader
  if values ≠ 2 then none
  else
    let (expires_at, reader) ← getExpiry reader
    let (bytes, reader) ← getBin reader
    if bytes.length ≠ 16 then none
    else some ({ expires_at, ticket := ofList 16 bytes }, reader)

/-- The loop of `lxmf_fields_parse_ticket` over the entries that are left, with the ticket found so
far. -/
def parseTicketEntries :
    ℕ → Option TicketEntry → List UInt8 → Option (Option TicketEntry × List UInt8)
  | 0, ticket, reader => some (ticket, reader)
  | count + 1, ticket, reader => do
    let key := (getUnsigned reader).map (·.1)
    let value ← skipObj nesting reader
    if key ≠ some fieldTicket then
      let rest ← skipObj nesting value
      parseTicketEntries count ticket rest
    else if ticket.isSome then none
    else
      let (entry, rest) ← parseTicketValue value
      parseTicketEntries count (some entry) rest

/-- `lxmf_fields_parse_ticket`: the ticket of a fields map, with nothing inside where the map has
none, and nothing at all where the call fails. -/
def fieldsParseTicket (fields : List UInt8) : Option (Option TicketEntry) :=
  if fields = [] then none
  else do
    let (count, reader) ← getContainerCount 0xf0 0x80 0xde 0xdf fields
    let (ticket, reader) ← parseTicketEntries count none reader
    if reader = [] then some ticket else none

/-! ## Packing -/

/-- `put_bin`. -/
def putBin (s : List UInt8) : Option (List UInt8) :=
  if s.length ≤ 2 ^ 32 - 1 then some (mpPutBin s) else none

/-- The bytes of the fields, an empty map where there are none. -/
def fieldsBytes : List UInt8 :=
  if m.fields_msgpack = [] then [0x80] else m.fields_msgpack

/-- The check of `encode_payload` that the fields are one map and nothing else. -/
def fieldsWellFormed (fields : List UInt8) : Bool :=
  fields = [] ∨ (skipObj nesting fields = some [] ∧ mapTag (fields.headD 0))

/-- `encode_payload` into a buffer of the capacity, with the stamp where one is given. -/
def encodePayload (stamp : Option (List UInt8)) (capacity : ℕ) : Except Status (List UInt8) :=
  match putBin m.title, putBin m.content with
  | some title, some content =>
    let head :=
      (if stamp.isSome then 0x95 else 0x94) :: 0xcb :: m.timestamp.bytes ++ title ++ content
    if capacity < head.length then .error .bounds
    else if ¬ fieldsWellFormed m.fields_msgpack then .error .format
    else
      let base := head ++ fieldsBytes m
      if capacity < base.length then .error .bounds
      else
        match stamp with
        | none => .ok base
        | some s =>
          if s.length ≠ stampLength ∧ s.length ≠ powStampLength then .error .format
          else if capacity < (base ++ mpPutBin s).length then .error .bounds
          else .ok (base ++ mpPutBin s)
  | _, _ => .error .bounds

/-- The digest of a message whose array, without the stamp, is `payload`. -/
def messageId (payload : List UInt8) : Octets 32 :=
  crypto.sha256 (m.destination.bytes ++ m.source.bytes ++ payload)

/-- The bytes that the signature of a message is of. -/
def preimage (payload : List UInt8) (id : Octets 32) : List UInt8 :=
  m.destination.bytes ++ m.source.bytes ++ payload ++ id.bytes

/-! ## Unpacking -/

/-- The stamp behind the fields of an array that has one. -/
def parseStamp (a : UInt8) (reader : List UInt8) : Option (Option (List UInt8) × List UInt8) :=
  if a = 0x95 then do
    let (s, reader) ← getBin reader
    if s.length ≠ stampLength ∧ s.length ≠ powStampLength then none else some (some s, reader)
  else some (none, reader)

/-- The part of `lxmf_unpack` that reads the bytes, for an input long enough for the header. -/
def parse (input : List UInt8) : Option Message :=
  match input.drop headerLength with
  | [] => none
  | a :: reader => do
    if a ≠ 0x94 ∧ a ≠ 0x95 then none
    else
      let (timestamp, reader) ← getDouble reader
      let (title, reader) ← getBin reader
      let (content, fields) ← getBin reader
      let reader ← skipObj nesting fields
      if ¬ mapTag (fields.headD 0) then none
      else
        let (stamp, rest) ← parseStamp a reader
        if rest ≠ [] then none
        else
          some
            { destination := ofList 16 input
              source := ofList 16 (input.drop 16)
              signature := ofList 64 (input.drop 32)
              message_id := Octets.zero 32
              timestamp, title, content
              fields_msgpack := fields.take (fields.length - reader.length)
              stamp }

/-- `lxmf_unpack` without a verifier: the message, and its array written again without the stamp. -/
def unpackPayload (input : List UInt8) : Except Status (Message × List UInt8) :=
  if input.length < headerLength + 1 ∨ input.length > maxMessageSize then .error .format
  else
    match parse input with
    | none => .error .format
    | some m =>
      -- The buffer for the array is as long as the one received, so strings of a short form that
      -- have to be written in a longer one may not fit.
      match encodePayload m none (input.length - headerLength) with
      | .error status => .error status
      | .ok payload => .ok ({ m with message_id := messageId crypto m payload }, payload)

/-- `lxmf_unpack` with no verifier. -/
def unpack (input : List UInt8) : Except Status Message :=
  (unpackPayload crypto input).map (·.1)

/-- `lxmf_identity_verifier`, given what the resolver answers for the source. -/
def identityVerifier (resolved : Option Identity) (data : List UInt8)
    (signature : Octets 64) : Status :=
  match resolved with
  | none => .unknownSigner
  | some identity => if identityVerify crypto identity data signature then .ok else .signature

/-- `lxmf_unpack` with the identity verifier. A message whose signer is not known is returned with
that status; every other failure leaves none. -/
def unpackVerified (resolve : Octets 16 → Option Identity)
    (input : List UInt8) : Except Status (Message × Status) :=
  match unpackPayload crypto input with
  | .error status => .error status
  | .ok (m, payload) =>
    match identityVerifier crypto (resolve m.source) (preimage m payload m.message_id)
        m.signature with
    | .ok => .ok (m, .ok)
    | .unknownSigner => .ok (m, .unknownSigner)
    | _ => .error .signature

/-! ## Stamps -/

/-- `lxmf_ticket_stamp`. -/
def ticketStamp (ticket : Octets 16) (id : Octets 32) : Octets 16 :=
  truncatedHash (crypto.sha256 (ticket.bytes ++ id.bytes))

end

/-- `digest_meets`: the digest is at most the target, which has one bit set. -/
def digestMeets (d : Octets 32) (cost : UInt8) : Bool := beDecode d.bytes ≤ 2 ^ (256 - cost.toNat)

/-- `lxmf_pow_stamp_validate`. -/
def powStampValidate (p : Provider) (id : Octets 32) (cost : UInt8) (stamp : Octets 32) : Status :=
  if cost < 1 then .argument
  else
    match p.stampDigest id stamp with
    | none => .crypto
    | some d => if digestMeets d cost then .ok else .format

end Reticulum.Lxmf
