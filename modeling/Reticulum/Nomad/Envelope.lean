import Reticulum.Base.Bytes
import Reticulum.Status

/-!
# Envelopes of the relay chat

The CBOR items of `src/nomad/rrc.c`, which a chat hub and its clients exchange. `rrc_session.c` has
a reader of its own that differs in the number of items that it reads; both are `Reader` here, with
that number as a parameter.
-/

namespace Reticulum.Rrc

open Octets
open Bytes (beDecode beEncode)

/-! ## Text -/

/-- The continuation bytes of a character, with the value so far. -/
def continuation : ℕ → ℕ → List UInt8 → Option ℕ
  | 0, value, _ => some value
  | _ + 1, _, [] => none
  | count + 1, value, b :: bytes =>
    if b &&& 0xc0 ≠ 0x80 then none
    else continuation count (value * 64 + (b &&& 0x3f).toNat) bytes

/-- The number of bytes that follow the first byte of a character, the value of its bits, and the
least value that needs so many bytes. -/
def leading (f : UInt8) : Option (ℕ × ℕ × ℕ) :=
  if 0xc2 ≤ f ∧ f ≤ 0xdf then some (1, (f &&& 31).toNat, 0x80)
  else if 0xe0 ≤ f ∧ f ≤ 0xef then some (2, (f &&& 15).toNat, 0x800)
  else if 0xf0 ≤ f ∧ f ≤ 0xf4 then some (3, (f &&& 7).toNat, 0x10000)
  else none

/-- One character: how many bytes follow its first one. -/
def character (f : UInt8) (rest : List UInt8) : Option ℕ :=
  if f < 0x80 then some 0
  else
    (leading f).bind fun (count, value, least) =>
      (continuation count value rest).bind fun value =>
        if value < least ∨ 0x10ffff < value ∨ (0xd800 ≤ value ∧ value ≤ 0xdfff) then none
        else some count

/-- `utf8`, with as much fuel as there are bytes. -/
def utf8Within : ℕ → List UInt8 → Bool
  | _, [] => true
  | 0, _ :: _ => false
  | fuel + 1, f :: rest =>
    match character f rest with
    | none => false
    | some count => utf8Within fuel (rest.drop count)

/-- `utf8`. -/
def utf8 (text : List UInt8) : Bool := utf8Within text.length text

/-! ## Reading -/

/-- `MAX_DEPTH`, and `RRC_CBOR_MAX_DEPTH`. -/
def maxDepth : ℕ := 8

/-- `MAX_ITEMS` of the envelopes. -/
def maxItems : ℕ := 1024

/-- `RNS_RRC_MAX_ENVELOPE_SIZE`. -/
def maxEnvelopeSize : ℕ := 65535

/-- `RNS_RRC_MAX_ROOM_BYTES`. -/
def maxRoomBytes : ℕ := 255

/-- `RNS_RRC_MAX_NICK_BYTES`. -/
def maxNickBytes : ℕ := 255

/-- `reader_t`: the bytes that are left, and how many items were begun. -/
structure Reader where
  rest : List UInt8
  items : ℕ
deriving DecidableEq

/-- The width of an argument that does not stand in the first byte. -/
def argumentWidth : ℕ → Option ℕ
  | 24 => some 1
  | 25 => some 2
  | 26 => some 4
  | 27 => some 8
  | _ => none

/-- `arg`. An argument that a shorter form could carry is refused. -/
def arg (a : ℕ) (rest : List UInt8) : Option (ℕ × List UInt8) :=
  if a < 24 then some (a, rest)
  else
    (argumentWidth a).bind fun n =>
      if rest.length < n then none
      else
        let x := beDecode (rest.take n)
        if (n = 1 ∧ x < 24) ∨ (n = 2 ∧ x ≤ 0xff) ∨ (n = 4 ∧ x ≤ 0xffff) ∨ (n = 8 ∧ x ≤ 0xffffffff) then
          none
        else some (x, rest.drop n)

namespace Reader

/-- `head`, of a reader of at most `limit` items: the major type and the argument. -/
def head (limit : ℕ) (r : Reader) : Option (ℕ × ℕ × Reader) :=
  match r.rest with
  | [] => none
  | f :: rest =>
    if limit ≤ r.items then none
    else (arg (f.toNat % 32) rest).bind fun (v, rest) =>
      some (f.toNat / 32, v, { rest, items := r.items + 1 })

/-- The reader behind so many bytes, which are there. -/
def take (r : Reader) (n : ℕ) : Option (List UInt8 × Reader) :=
  if r.rest.length < n then none else some (r.rest.take n, { r with rest := r.rest.drop n })

/-- A number of items, each read by `item`. -/
def times (item : Reader → Option Reader) : ℕ → Reader → Option Reader
  | 0, r => some r
  | n + 1, r => (item r).bind (times item n)

/-- `skip`, with as many levels as may still be nested. -/
def skip (limit : ℕ) : ℕ → Reader → Option Reader
  | 0, _ => none
  | levels + 1, r =>
    (r.head limit).bind fun (m, v, r) =>
      if m = 0 ∨ m = 1 ∨ m = 7 then some r
      else if m = 2 ∨ m = 3 then (r.take v).map Prod.snd
      else if m = 4 ∨ m = 5 then
        if m = 5 ∧ (2 ^ 64 - 1) / 2 < v then none
        else
          let n := if m = 5 then v * 2 else v
          if limit < n then none else times (skip limit levels) n r
      else skip limit levels r

/-- `uintv`. -/
def uintv (limit : ℕ) (r : Reader) : Option (ℕ × Reader) :=
  (r.head limit).bind fun (m, v, r) => if m = 0 then some (v, r) else none

/-- The bytes of a string, of bytes or of text. -/
def string (limit want : ℕ) (r : Reader) : Option (List UInt8 × Reader) :=
  (r.head limit).bind fun (m, n, r) => if m = want then r.take n else none

/-- `stringv`. -/
def stringv (limit want : ℕ) (r : Reader) : Option (List UInt8 × Reader) :=
  (r.string limit want).bind fun (s, r) => if want ≠ 3 ∨ utf8 s then some (s, r) else none

end Reader

/-! ## Writing -/

/-- `puthead`. -/
def puthead (m v : ℕ) : List UInt8 :=
  if v < 24 then [UInt8.ofNat (m * 32 + v)]
  else if v ≤ 0xff then UInt8.ofNat (m * 32 + 24) :: beEncode 1 v
  else if v ≤ 0xffff then UInt8.ofNat (m * 32 + 25) :: beEncode 2 v
  else if v ≤ 0xffffffff then UInt8.ofNat (m * 32 + 26) :: beEncode 4 v
  else UInt8.ofNat (m * 32 + 27) :: beEncode 8 v

/-- `putstr`. -/
def putstr (m : ℕ) (s : List UInt8) : List UInt8 := puthead m s.length ++ s

/-! ## Envelopes -/

/-- `rns_rrc_message_type_t`. -/
inductive MessageType
  | hello
  | welcome
  | join
  | joined
  | part
  | parted
  | message
  | notice
  | ping
  | pong
  | error
  | resourceEnvelope
deriving DecidableEq, Repr

/-- The number of a message type. -/
def MessageType.code : MessageType → ℕ
  | .hello => 1
  | .welcome => 2
  | .join => 10
  | .joined => 11
  | .part => 12
  | .parted => 13
  | .message => 20
  | .notice => 21
  | .ping => 30
  | .pong => 31
  | .error => 40
  | .resourceEnvelope => 50

/-- `typeok`, and the type that a number stands for. -/
def MessageType.ofCode? : ℕ → Option MessageType
  | 1 => some .hello
  | 2 => some .welcome
  | 10 => some .join
  | 11 => some .joined
  | 12 => some .part
  | 13 => some .parted
  | 20 => some .message
  | 21 => some .notice
  | 30 => some .ping
  | 31 => some .pong
  | 40 => some .error
  | 50 => some .resourceEnvelope
  | _ => none

/-- `rns_rrc_envelope_t`. A slice that is absent is empty. -/
structure Envelope where
  version : ℕ
  type : MessageType
  message_id : Octets 8
  timestamp_ms : UInt64
  source : Octets 16
  room : List UInt8
  body_cbor : List UInt8
  nick : List UInt8
deriving DecidableEq

/-- The envelope that a parse begins with. Its type is overwritten, as the key of the type is
required. -/
def Envelope.zero : Envelope where
  version := 0
  type := .hello
  message_id := ofList 8 []
  timestamp_ms := 0
  source := ofList 16 []
  room := []
  body_cbor := []
  nick := []

/-- The value of one entry of an envelope. -/
def envelopeValue (e : Envelope) (r : Reader) : ℕ → Option (Envelope × Reader)
  | 0 => (r.uintv maxItems).bind fun (v, r) => if v = 1 then some ({ e with version := 1 }, r) else none
  | 1 => (r.uintv maxItems).bind fun (v, r) =>
      (MessageType.ofCode? v).map fun type => ({ e with type }, r)
  | 2 => (r.stringv maxItems 2).bind fun (s, r) =>
      if s.length = 8 then some ({ e with message_id := ofList 8 s }, r) else none
  | 3 => (r.uintv maxItems).map fun (v, r) => ({ e with timestamp_ms := UInt64.ofNat v }, r)
  | 4 => (r.stringv maxItems 2).bind fun (s, r) =>
      if s.length = 16 then some ({ e with source := ofList 16 s }, r) else none
  | 5 => (r.stringv maxItems 3).bind fun (s, r) =>
      if s.length = 0 ∨ 255 < s.length then none else some ({ e with room := s }, r)
  | 6 => (r.skip maxItems maxDepth).map fun r' =>
      ({ e with body_cbor := r.rest.take (r.rest.length - r'.rest.length) }, r')
  | 7 => (r.stringv maxItems 3).bind fun (s, r) =>
      if s.length = 0 ∨ 255 < s.length then none else some ({ e with nick := s }, r)
  | _ => (r.skip maxItems maxDepth).map fun r' => (e, r')

/-- The loop of `rns_rrc_envelope_parse`, with the known keys seen before. -/
def envelopeEntries : ℕ → Envelope → List ℕ → Reader → Option (Envelope × List ℕ × Reader)
  | 0, e, seen, r => some (e, seen, r)
  | pairs + 1, e, seen, r =>
    (r.uintv maxItems).bind fun (k, r) =>
      if k ≤ 7 ∧ k ∈ seen then none
      else
        (envelopeValue e r k).bind fun (e, r) =>
          envelopeEntries pairs e (if k ≤ 7 then k :: seen else seen) r

/-- `rns_rrc_envelope_parse`. -/
def envelopeParse (input : List UInt8) : Except Status Envelope :=
  if input.length = 0 ∨ maxEnvelopeSize < input.length then .error .invalidArgument
  else
    match Reader.head maxItems ⟨input, 0⟩ with
    | none => .error .protocol
    | some (m, pairs, r) =>
      if m ≠ 5 ∨ 64 < pairs then .error .protocol
      else
        match envelopeEntries pairs .zero [] r with
        | none => .error .protocol
        | some (e, seen, r) =>
          if [0, 1, 2, 3, 4].all (fun k => k ∈ seen) ∧ r.rest = [] then .ok e else .error .protocol

/-- The bytes of an envelope. -/
def Envelope.wire (e : Envelope) : List UInt8 :=
  let count := 5 + (if e.room = [] then 0 else 1) + (if e.body_cbor = [] then 0 else 1) +
    (if e.nick = [] then 0 else 1)
  puthead 5 count ++ puthead 0 0 ++ puthead 0 1 ++ puthead 0 1 ++ puthead 0 e.type.code ++
    puthead 0 2 ++ puthead 2 8 ++ e.message_id.bytes ++ puthead 0 3 ++ puthead 0 e.timestamp_ms.toNat ++
    puthead 0 4 ++ puthead 2 16 ++ e.source.bytes ++
    (if e.room = [] then [] else puthead 0 5 ++ putstr 3 e.room) ++
    (if e.body_cbor = [] then [] else puthead 0 6 ++ e.body_cbor) ++
    (if e.nick = [] then [] else puthead 0 7 ++ putstr 3 e.nick)

/-- The body is one item and no more. -/
def Envelope.bodyValid (e : Envelope) : Bool :=
  (Reader.skip maxItems (maxDepth + 1) ⟨e.body_cbor, 0⟩).any fun r => r.rest = []

/-- `rns_rrc_envelope_encode`. -/
def envelopeEncode (e : Envelope) (cap : ℕ) : Except Status (List UInt8) :=
  if e.version ≠ 1 ∨ maxRoomBytes < e.room.length ∨ maxNickBytes < e.nick.length ∨
      maxEnvelopeSize < e.body_cbor.length ∨ ¬ utf8 e.room ∨ ¬ utf8 e.nick then
    .error .invalidArgument
  else if e.body_cbor ≠ [] ∧ ¬ e.bodyValid then .error .protocol
  else if cap < e.wire.length ∨ maxEnvelopeSize < e.wire.length then .error .overflow
  else .ok e.wire

/-- `rns_rrc_cbor_text`. -/
def cborText (text : List UInt8) (cap : ℕ) : Except Status (List UInt8) :=
  if ¬ utf8 text then .error .invalidArgument
  else if cap < (putstr 3 text).length then .error .overflow
  else .ok (putstr 3 text)

/-- `rns_rrc_cbor_text_parse`. -/
def cborTextParse (input : List UInt8) : Except Status (List UInt8) :=
  if input.length = 0 ∨ maxEnvelopeSize < input.length then .error .invalidArgument
  else
    match Reader.stringv maxItems 3 ⟨input, 0⟩ with
    | none => .error .protocol
    | some (text, r) => if r.rest = [] then .ok text else .error .protocol

/-- The loop of `rns_rrc_member_list_parse`. -/
def memberItems : ℕ → Reader → Option (List (Octets 16) × Reader)
  | 0, r => some ([], r)
  | count + 1, r =>
    (r.stringv maxItems 2).bind fun (value, r) =>
      if value.length ≠ 16 then none
      else (memberItems count r).map fun (members, r) => (ofList 16 value :: members, r)

/-- `rns_rrc_member_list_parse`. -/
def memberListParse (input : List UInt8) (capacity : ℕ) : Except Status (List (Octets 16)) :=
  if input.length = 0 ∨ maxEnvelopeSize < input.length then .error .invalidArgument
  else
    match Reader.head maxItems ⟨input, 0⟩ with
    | none => .error .protocol
    | some (major, count, r) =>
      if major ≠ 4 then .error .protocol
      else if capacity < count then .error .overflow
      else
        match memberItems count r with
        | none => .error .protocol
        | some (members, r) => if r.rest = [] then .ok members else .error .protocol

end Reticulum.Rrc
