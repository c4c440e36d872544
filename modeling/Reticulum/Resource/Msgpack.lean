import Reticulum.Base.Bytes

/-!
# MessagePack in resource messages

The reader and the writer of the part of MessagePack that `src/link/resource.c` uses: unsigned
integers, binary strings and one-letter keys. A reader is the bytes that it has not read yet, and a
read that fails is `none`. A `size_t` has 64 bits, so what is read always fits one.

`mpUint_mpPutUint` and `mpBin_mpPutBin` are the round trips: what was written is read back, and the
bytes behind it are left.
-/

namespace Reticulum.Resource

open List
open Bytes (beEncode beDecode)

/-! ## The reader -/

/-- `mp_byte`. -/
def mpByte : List UInt8 → Option (UInt8 × List UInt8)
  | [] => none
  | b :: reader => some (b, reader)

/-- `mp_take`. -/
def mpTake (reader : List UInt8) (length : ℕ) : Option (List UInt8 × List UInt8) :=
  if reader.length < length then none else some (reader.take length, reader.drop length)

/-- The bytes that follow the tag of an integer. -/
def uintWidth (tag : UInt8) : Option ℕ :=
  if tag = 0xcc then some 1
  else if tag = 0xcd then some 2
  else if tag = 0xce then some 4
  else if tag = 0xcf then some 8
  else none

/-- `mp_uint`. -/
def mpUint (reader : List UInt8) : Option (ℕ × List UInt8) := do
  let (tag, reader) ← mpByte reader
  if tag ≤ 0x7f then some (tag.toNat, reader)
  else
    let length ← uintWidth tag
    let (p, reader) ← mpTake reader length
    some (beDecode p, reader)

/-- The bytes of the length that follows the tag of a binary string. -/
def binWidth (tag : UInt8) : Option ℕ :=
  if tag = 0xc4 then some 1
  else if tag = 0xc5 then some 2
  else if tag = 0xc6 then some 4
  else none

/-- `mp_bin`. -/
def mpBin (reader : List UInt8) : Option (List UInt8 × List UInt8) := do
  let (tag, reader) ← mpByte reader
  let width ← binWidth tag
  let (p, reader) ← mpTake reader width
  mpTake reader (beDecode p)

/-- A binary string of exactly `n` bytes, which every other length fails. -/
def mpOctets (n : ℕ) (reader : List UInt8) : Option (Octets n × List UInt8) := do
  let (value, reader) ← mpBin reader
  if value.length ≠ n then none else some (Octets.ofList n value, reader)

/-- `mp_key`. -/
def mpKey (reader : List UInt8) : Option (UInt8 × List UInt8) := do
  let (tag, reader) ← mpByte reader
  if tag = 0xa1 then mpByte reader else none

/-! ## The writer -/

/-- `mp_uint_size`. -/
def mpUintSize (value : ℕ) : ℕ :=
  if value ≤ 0x7f then 1
  else if value ≤ 0xff then 2
  else if value ≤ 0xffff then 3
  else if value ≤ 0xffffffff then 5
  else 9

/-- `mp_put_uint`. -/
def mpPutUint (value : ℕ) : List UInt8 :=
  if value ≤ 0x7f then [UInt8.ofNat value]
  else if value ≤ 0xff then 0xcc :: beEncode 1 value
  else if value ≤ 0xffff then 0xcd :: beEncode 2 value
  else if value ≤ 0xffffffff then 0xce :: beEncode 4 value
  else 0xcf :: beEncode 8 value

/-- `mp_bin_header_size`. -/
def mpBinHeaderSize (length : ℕ) : ℕ :=
  if length ≤ 0xff then 2 else if length ≤ 0xffff then 3 else 5

/-- `mp_put_bin`. -/
def mpPutBin (data : List UInt8) : List UInt8 :=
  if data.length ≤ 0xff then 0xc4 :: beEncode 1 data.length ++ data
  else if data.length ≤ 0xffff then 0xc5 :: beEncode 2 data.length ++ data
  else 0xc6 :: beEncode 4 data.length ++ data

/-- `mp_put_key`. -/
def mpPutKey (key : UInt8) : List UInt8 := [0xa1, key]

/-! ## What was written is read back -/

@[simp]
theorem mpByte_cons (b : UInt8) (reader : List UInt8) : mpByte (b :: reader) = some (b, reader) :=
  rfl

/-- A read of as many bytes as a string has gives the string. -/
theorem mpTake_append {data : List UInt8} {n : ℕ} (h : data.length = n) (rest : List UInt8) :
    mpTake (data ++ rest) n = some (data, rest) := by
  subst h
  have hroom : ¬ (data ++ rest).length < data.length := by simp
  rw [mpTake, if_neg hroom, take_left, drop_left]

/-- A key is read back. -/
@[simp]
theorem mpKey_mpPutKey (key : UInt8) (rest : List UInt8) :
    mpKey (mpPutKey key ++ rest) = some (key, rest) := rfl

/-- An integer that follows a tag is read back. -/
theorem mpUint_tag {tag : UInt8} {width value : ℕ} (htag : ¬ tag ≤ 0x7f)
    (hwidth : uintWidth tag = some width) (hvalue : value < 256 ^ width) (rest : List UInt8) :
    mpUint (tag :: beEncode width value ++ rest) = some (value, rest) := by
  have htake := mpTake_append (Bytes.length_beEncode width value) rest
  simp [mpUint, if_neg htag, hwidth, htake, Bytes.beDecode_beEncode hvalue]

/-- An integer is read back. -/
theorem mpUint_mpPutUint {value : ℕ} (h : value < 2 ^ 64) (rest : List UInt8) :
    mpUint (mpPutUint value ++ rest) = some (value, rest) := by
  unfold mpPutUint
  split_ifs with h₁ h₂ h₃ h₄
  · -- A small integer is its own tag.
    have hnat : (UInt8.ofNat value).toNat = value := by
      rw [UInt8.toNat_ofNat']
      omega
    have htag : UInt8.ofNat value ≤ 0x7f := by
      rw [UInt8.le_iff_toNat_le, hnat]
      exact h₁
    simp [mpUint, if_pos htag, hnat]
  all_goals exact mpUint_tag (by decide) rfl (by omega) rest

/-- A binary string that follows a tag is read back. -/
theorem mpBin_tag {tag : UInt8} {width : ℕ} {data : List UInt8}
    (hwidth : binWidth tag = some width) (hlength : data.length < 256 ^ width) (rest : List UInt8) :
    mpBin (tag :: beEncode width data.length ++ data ++ rest) = some (data, rest) := by
  have htake := mpTake_append (Bytes.length_beEncode width data.length) (data ++ rest)
  simp only [mpBin, cons_append, append_assoc, mpByte_cons, Option.bind_eq_bind,
    Option.bind_some, hwidth, htake, Bytes.beDecode_beEncode hlength]
  exact mpTake_append rfl rest

/-- A binary string is read back. -/
theorem mpBin_mpPutBin {data : List UInt8} (h : data.length < 2 ^ 32) (rest : List UInt8) :
    mpBin (mpPutBin data ++ rest) = some (data, rest) := by
  unfold mpPutBin
  split_ifs with h₁ h₂
  all_goals exact mpBin_tag rfl (by omega) rest

/-- A binary string of a fixed size is read back. -/
theorem mpOctets_mpPutBin {n : ℕ} (hn : n < 2 ^ 32) (x : Octets n) (rest : List UInt8) :
    mpOctets n (mpPutBin x.bytes ++ rest) = some (x, rest) := by
  have hlength : ¬ x.bytes.length ≠ n := not_not.2 x.length_eq
  have hread := mpBin_mpPutBin (lt_of_eq_of_lt x.length_eq hn) rest
  simp [mpOctets, hread]

/-! ## Sizes -/

/-- An integer takes as many bytes as its size says. -/
@[simp]
theorem length_mpPutUint (value : ℕ) : (mpPutUint value).length = mpUintSize value := by
  unfold mpPutUint mpUintSize
  split_ifs <;> simp

/-- A binary string takes its header and its bytes. -/
@[simp]
theorem length_mpPutBin (data : List UInt8) :
    (mpPutBin data).length = mpBinHeaderSize data.length + data.length := by
  unfold mpPutBin mpBinHeaderSize
  split_ifs <;> simp <;> omega

@[simp]
theorem length_mpPutKey (key : UInt8) : (mpPutKey key).length = 2 := rfl

end Reticulum.Resource
