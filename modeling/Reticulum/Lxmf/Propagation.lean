import Reticulum.Lxmf.Message

/-!
# Requests to a propagation node

The requests and responses of `/get` as `src/lxmf/propagation.c` writes and reads them. A request
says which messages are wanted and which ones the client has; a response is a list of ids or of
messages, or an error.
-/

namespace Reticulum.Lxmf.Propagation

open Bytes (beEncode)
open Resource (mpTake mpPutBin)

/-- `LXMF_PN_MAX_ITEMS`. -/
def maxItems : ℕ := 128

/-- `LXMF_PN_MAX_WIRE`. -/
def maxWire : ℕ := 8 * 1024 * 1024

/-! ## Reading -/

/-- `count`, for an array. -/
def count : List UInt8 → Option (ℕ × List UInt8)
  | [] => none
  | c :: reader =>
    if c &&& 0xf0 = 0x90 then some ((c &&& 15).toNat, reader)
    else if c = 0xdc ∨ c = 0xdd then
      (readLength (if c = 0xdc then 2 else 4) reader).bind fun (n, reader) =>
        if n > maxWire then none else some (n, reader)
    else none

/-- `uint_value`. What `number` reads as a float is refused. -/
def uintValue : List UInt8 → Option (ℕ × List UInt8)
  | [] => none
  | c :: reader =>
    if c ≤ 0x7f then some (c.toNat, reader)
    else if 0xcc ≤ c ∧ c ≤ 0xcf then readLength (2 ^ (c - 0xcc).toNat) reader
    else if 0xd0 ≤ c ∧ c ≤ 0xd3 then
      if reader = [] ∨ reader.headD 0 &&& 0x80 ≠ 0 then none
      else readLength (2 ^ (c - 0xd0).toNat) reader
    else none

/-- `binary`. -/
def binary : List UInt8 → Option (List UInt8 × List UInt8)
  | [] => none
  | c :: reader =>
    if c < 0xc4 ∨ c > 0xc6 then none
    else
      (readLength (2 ^ (c - 0xc4).toNat) reader).bind fun (n, reader) =>
        if n > maxWire then none else mpTake reader n

/-- The loop of `get_slices`. -/
def getItems (ids : Bool) : ℕ → List UInt8 → Option (List (List UInt8) × List UInt8)
  | 0, reader => some ([], reader)
  | n + 1, reader => do
    let (item, reader) ← binary reader
    if item = [] ∨ (ids ∧ item.length ≠ 32) then none
    else
      let (items, reader) ← getItems ids n reader
      some (item :: items, reader)

/-- `get_slices`. -/
def getSlices (ids : Bool) (reader : List UInt8) : Option (List (List UInt8) × List UInt8) :=
  (count reader).bind fun (n, reader) => if n > maxItems then none else getItems ids n reader

/-- `error_valid`. -/
def errorValid (e : UInt8) : Bool :=
  e = 0xf0 ∨ e = 0xf1 ∨ e = 0xf3 ∨ e = 0xf4 ∨ e = 0xf5 ∨ e = 0xf6 ∨ e = 0xfd ∨ e = 0xfe

/-- `lxmf_pn_get_response_t`. -/
inductive GetResponse
  | items (items : List (List UInt8))
  | nil
  | error (error : UInt8)
deriving DecidableEq

/-- `lxmf_pn_get_response_decode`. -/
def getResponseDecode (data : List UInt8) (ids : Bool) : Except Status GetResponse :=
  if data.length > maxWire then .error .bounds
  else
    match data with
    | [] => .error .bounds
    | c :: reader =>
      if c = 0xc0 then if reader = [] then .ok .nil else .error .format
      else if c &&& 0xf0 = 0x90 ∨ c = 0xdc ∨ c = 0xdd then
        match getSlices ids data with
        | some (items, []) => .ok (.items items)
        | _ => .error .format
      else
        match uintValue data with
        | some (e, []) =>
          if e > 255 ∨ ¬ errorValid (UInt8.ofNat e) then .error .format
          else .ok (.error (UInt8.ofNat e))
        | _ => .error .format

/-! ## Writing -/

/-- `lxmf_pn_get_request_t`, with nothing for a list that is null. The limit is the bits of a
double. -/
structure GetRequest where
  wants : Option (List (Octets 32))
  haves : Option (List (Octets 32))
  limit_kb : Option (Octets 8)
deriving DecidableEq

/-- `array`. -/
def putArray (n : ℕ) : List UInt8 := if n < 16 then [UInt8.ofNat (0x90 + n)] else 0xdc :: beEncode 2 n

/-- A list of ids, or null. -/
def putIds : Option (List (Octets 32)) → List UInt8
  | none => [0xc0]
  | some ids => putArray ids.length ++ ids.flatMap fun id => mpPutBin id.bytes

/-- A double that is finite and not negative: `valid_number`. -/
def validReal (bits : Octets 8) : Bool :=
  let v := Bytes.beDecode bits.bytes
  v / 2 ^ 52 % 2 ^ 11 ≠ 2 ^ 11 - 1 ∧ (v / 2 ^ 63 = 0 ∨ v % 2 ^ 63 = 0)

/-- `lxmf_pn_get_request_encode`, of lists of ids. -/
def getRequestEncode (q : GetRequest) (cap : ℕ) : Except Status (List UInt8) :=
  if (q.wants.getD []).length > maxItems ∨ (q.haves.getD []).length > maxItems ∨
      (q.limit_kb.map validReal) = some false then .error .format
  else
    let bytes := putArray (if q.limit_kb.isSome then 3 else 2) ++ putIds q.wants ++ putIds q.haves ++
      (match q.limit_kb with
      | none => []
      | some bits => 0xcb :: bits.bytes)
    if bytes.length > cap ∨ bytes.length > maxWire then .error .bounds else .ok bytes

end Reticulum.Lxmf.Propagation
