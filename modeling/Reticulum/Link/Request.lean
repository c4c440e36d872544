import Reticulum.Link.Model
import Reticulum.Resource.Msgpack
import Reticulum.Status

/-!
# Requests and responses

The codec of `src/link/request.c`. A request is a MessagePack array of a time, the hash of a path
and one object of data; a response is one of the id of the request and one object. Objects are only
skipped, not read: `skipObject` finds where one ends.

A cursor is the bytes that are left. Objects are nested 32 levels deep at most, and `skipObject`
recurses on the levels that are left.
-/

namespace Reticulum.Request

open Bytes (beEncode beDecode)
open Resource (mpTake)

/-- `RNS_REQUEST_PATH_MAX`. -/
def pathMax : ℕ := 1024

/-- A number of the width, and what follows it. -/
def readWidth (cursor : List UInt8) (width : ℕ) : Option (ℕ × List UInt8) :=
  (mpTake cursor width).map (fun (bytes, cursor) => (beDecode bytes, cursor))

/-- The code of an object: how many bytes and how many other objects it has, and what follows its
header. -/
def objectHeader (code : UInt8) (cursor : List UInt8) : Option (ℕ × ℕ × List UInt8) :=
  let bytes (width : ℕ) := (readWidth cursor width).map (fun (n, cursor) => (n, 0, cursor))
  let children (width factor : ℕ) :=
    (readWidth cursor width).map (fun (n, cursor) => (0, factor * n, cursor))
  if code ≤ 0x7f ∨ code ≥ 0xe0 ∨ code = 0xc0 ∨ code = 0xc2 ∨ code = 0xc3 then some (0, 0, cursor)
  else if code &&& 0xe0 = 0xa0 then some ((code &&& 0x1f).toNat, 0, cursor)
  else if code &&& 0xf0 = 0x90 then some (0, (code &&& 0x0f).toNat, cursor)
  else if code &&& 0xf0 = 0x80 then some (0, 2 * (code &&& 0x0f).toNat, cursor)
  else if code = 0xc4 ∨ code = 0xd9 then bytes 1
  else if code = 0xc5 ∨ code = 0xda then bytes 2
  else if code = 0xc6 ∨ code = 0xdb then bytes 4
  else if code = 0xca then some (4, 0, cursor)
  else if code = 0xcb then some (8, 0, cursor)
  else if code = 0xcc ∨ code = 0xd0 then some (1, 0, cursor)
  else if code = 0xcd ∨ code = 0xd1 then some (2, 0, cursor)
  else if code = 0xce ∨ code = 0xd2 then some (4, 0, cursor)
  else if code = 0xcf ∨ code = 0xd3 then some (8, 0, cursor)
  else if code = 0xd4 then some (2, 0, cursor)
  else if code = 0xd5 then some (3, 0, cursor)
  else if code = 0xd6 then some (5, 0, cursor)
  else if code = 0xd7 then some (9, 0, cursor)
  else if code = 0xd8 then some (17, 0, cursor)
  else if code = 0xdc then children 2 1
  else if code = 0xdd then children 4 1
  else if code = 0xde then children 2 2
  else if code = 0xdf then children 4 2
  else none

/-- `count` objects, one after the other. -/
def skipMany (skip : List UInt8 → Option (List UInt8)) : ℕ → List UInt8 → Option (List UInt8)
  | 0, cursor => some cursor
  | count + 1, cursor => (skip cursor).bind (skipMany skip count)

/-- `skip_object`, with the levels that are left: what follows the object. -/
def skipObject : ℕ → List UInt8 → Option (List UInt8)
  | 0, _ => none
  | levels + 1, cursor =>
    match cursor with
    | [] => none
    | code :: cursor =>
      match objectHeader code cursor with
      | none => none
      | some (bytes, children, cursor) =>
        match mpTake cursor bytes with
        | none => none
        | some (_, cursor) => skipMany (skipObject levels) children cursor

/-- The levels of an object that stands by itself. -/
def levels : ℕ := 33

/-- Whether the bytes are one object and nothing else. -/
def isObject (data : List UInt8) : Bool := skipObject levels data = some []

/-- `rns_request_encode` into a buffer of the capacity. -/
def encode (p : Primitives) (path : List UInt8) (requested_at : ℚ) (data : List UInt8)
    (capacity : ℕ) : Except Status (List UInt8) :=
  if requested_at < 0 ∨ path.length = 0 ∨ path.length > pathMax then .error .invalidArgument
  else if data.length ≠ 0 ∧ !isObject data then .error .protocol
  else
    let request := 0x93 :: 0xcb :: beEncode 8 (p.doubleBits requested_at) ++ [0xc4, 16] ++
      (truncatedHash (p.sha256 path)).bytes ++ (if data.length ≠ 0 then data else [0xc0])
    if request.length > capacity then .error .overflow else .ok request

/-- `rns_request_view`. -/
structure View where
  requested_at : ℚ
  path_hash : Octets 16
  data_msgpack : List UInt8
deriving DecidableEq

/-- `rns_request_decode`. -/
def decode (p : Primitives) (input : List UInt8) : Except Status View :=
  if input.length < 29 ∨ input.getD 0 0 ≠ 0x93 ∨ input.getD 1 0 ≠ 0xcb ∨
      input.getD 10 0 ≠ 0xc4 ∨ input.getD 11 0 ≠ 16 then .error .protocol
  else
    match p.doubleValue (beDecode (Bytes.slice input 2 8)) with
    | none => .error .protocol
    | some requested_at =>
      if requested_at < 0 ∨ !isObject (input.drop 28) then .error .protocol
      else
        .ok { requested_at
              path_hash := Octets.ofList 16 (input.drop 12)
              data_msgpack := input.drop 28 }

/-- `read_bytes`: the bytes of a string, and what follows it. -/
def readBytes (cursor : List UInt8) : Option (List UInt8 × List UInt8) :=
  match cursor with
  | [] => none
  | code :: cursor =>
    let sized (width : ℕ) := (readWidth cursor width).bind (fun (size, cursor) => mpTake cursor size)
    if code &&& 0xe0 = 0xa0 then mpTake cursor (code &&& 0x1f).toNat
    else if code = 0xc4 ∨ code = 0xd9 then sized 1
    else if code = 0xc5 ∨ code = 0xda then sized 2
    else if code = 0xc6 ∨ code = 0xdb then sized 4
    else none

/-- `rns_response_view`: the response is the bytes of the object where it is a string. -/
structure ResponseView where
  request_id : Octets 16
  response_msgpack : List UInt8
  response : List UInt8
deriving DecidableEq

/-- `rns_response_decode`. -/
def decodeResponse (input : List UInt8) : Except Status ResponseView :=
  if input.head? ≠ some 0x92 then .error .protocol
  else
    match readBytes (input.drop 1) with
    | none => .error .protocol
    | some (id, object) =>
      if id.length ≠ 16 ∨ !isObject object then .error .protocol
      else
        .ok { request_id := Octets.ofList 16 id
              response_msgpack := object
              response :=
                match readBytes object with
                | some (body, []) => body
                | _ => object }

/-- `rns_response_encode` into a buffer of the capacity. -/
def encodeResponse (request_id : Octets 16) (response_msgpack : List UInt8) (capacity : ℕ) :
    Except Status (List UInt8) :=
  if response_msgpack.length = 0 then .error .invalidArgument
  else if !isObject response_msgpack then .error .protocol
  else if capacity < 19 + response_msgpack.length then .error .overflow
  else .ok ([0x92, 0xc4, 16] ++ request_id.bytes ++ response_msgpack)

end Reticulum.Request
