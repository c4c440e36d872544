import Mathlib.Tactic

/-!
# CRC-32

The checksum of the reflected polynomial `0xedb88320`, a bit at a time. `Crc.update` goes on from a
remainder, so a checksum of several pieces is one of their concatenation.
-/

namespace Crc

/-- One bit of the division. -/
def bit (crc : UInt32) : UInt32 := (crc >>> 1) ^^^ (0xedb88320 &&& (0 - (crc &&& 1)))

/-- The remainder after more bytes. -/
def update (crc : UInt32) (data : List UInt8) : UInt32 :=
  data.foldl (fun crc b => bit^[8] (crc ^^^ b.toUInt32)) crc

/-- The checksum of a byte string. -/
def sum (data : List UInt8) : UInt32 := ~~~ update 0xffffffff data

end Crc
