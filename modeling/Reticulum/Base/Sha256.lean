import Reticulum.Base.Bytes
import Mathlib.Data.Nat.NthRoot.Defs

/-!
# SHA-256

The hash function of FIPS 180-4, on messages of whole bytes. The constants are defined as the
standard describes them, by the roots of the first primes, and the message schedule is its
recurrence. `hashAfter m n` is the hash value `H⁽ⁿ⁾` after the first `n` blocks of `m`.

`Absorbed s m` says that `s` is the hash value after `m`, which is a number of whole blocks. A
program that hashes block by block keeps it (`Absorbed.block`), and has the digest when it has
absorbed the padded message (`Absorbed.digest`).
-/

namespace Sha256

open Bytes List

/-! ## The functions and constants -/

/-- The rotation to the right. -/
def rotr (n : ℕ) (x : UInt32) : UInt32 := ⟨x.toBitVec.rotateRight n⟩

def ch (x y z : UInt32) : UInt32 := (x &&& y) ^^^ (~~~x &&& z)

def maj (x y z : UInt32) : UInt32 := (x &&& y) ^^^ (x &&& z) ^^^ (y &&& z)

def bigSigma0 (x : UInt32) : UInt32 := rotr 2 x ^^^ rotr 13 x ^^^ rotr 22 x

def bigSigma1 (x : UInt32) : UInt32 := rotr 6 x ^^^ rotr 11 x ^^^ rotr 25 x

def smallSigma0 (x : UInt32) : UInt32 := rotr 7 x ^^^ rotr 18 x ^^^ x >>> 3

def smallSigma1 (x : UInt32) : UInt32 := rotr 17 x ^^^ rotr 19 x ^^^ x >>> 10

/-- The first 32 bits of the fractional part of the `n`-th root of `p`. -/
def rootBits (n p : ℕ) : UInt32 := UInt32.ofNat (Nat.nthRoot n (p * 2 ^ (32 * n)))

/-- The constants of the rounds, from the cube roots of the first 64 primes. -/
def constants : List UInt32 := ((List.range 312).filter Nat.Prime).map (rootBits 3)

/-! ## The hash -/

/-- Eight words: a hash value, or the working variables. -/
structure Words where
  a : UInt32
  b : UInt32
  c : UInt32
  d : UInt32
  e : UInt32
  f : UInt32
  g : UInt32
  h : UInt32
deriving DecidableEq

/-- The hash value to start from, from the square roots of the first 8 primes. -/
def initial : Words :=
  ⟨rootBits 2 2, rootBits 2 3, rootBits 2 5, rootBits 2 7, rootBits 2 11, rootBits 2 13,
    rootBits 2 17, rootBits 2 19⟩

/-- The words of a block, and those that are made from them. -/
def schedule (block : List UInt8) (t : ℕ) : UInt32 :=
  if t < 16 then UInt32.ofNat (number block (4 * t) 4)
  else smallSigma1 (schedule block (t - 2)) + schedule block (t - 7) +
    smallSigma0 (schedule block (t - 15)) + schedule block (t - 16)

/-- One round on the working variables. -/
def round (s : Words) (k w : UInt32) : Words :=
  let t1 := s.h + bigSigma1 s.e + ch s.e s.f s.g + k + w
  let t2 := bigSigma0 s.a + maj s.a s.b s.c
  ⟨t1 + t2, s.a, s.b, s.c, s.d + t1, s.e, s.f, s.g⟩

/-- The hash value after one more block. -/
def compress (s : Words) (block : List UInt8) : Words :=
  let v := (List.range 64).foldl (fun v t => round v (constants.getD t 0) (schedule block t)) s
  ⟨s.a + v.a, s.b + v.b, s.c + v.c, s.d + v.d, s.e + v.e, s.f + v.f, s.g + v.g, s.h + v.h⟩

/-- The hash value after the first blocks of a message. -/
def hashAfter (m : List UInt8) : ℕ → Words
  | 0 => initial
  | n + 1 => compress (hashAfter m n) (slice m (64 * n) 64)

/-- The message, a one bit, the fewest zero bits that leave 8 bytes of a block, and the number of
bits of the message. -/
def pad (m : List UInt8) : List UInt8 :=
  m ++ 0x80 :: (replicate ((119 - m.length % 64) % 64) 0 ++ beEncode 8 (8 * m.length))

/-- The bytes of a hash value. -/
def Words.bytes (s : Words) : List UInt8 :=
  [s.a, s.b, s.c, s.d, s.e, s.f, s.g, s.h].flatMap fun x => beEncode 4 x.toNat

/-- The digest of a message. -/
def digest (m : List UInt8) : List UInt8 := (hashAfter (pad m) ((pad m).length / 64)).bytes

/-! ## Hashing block by block -/

variable {s : Words} {m : List UInt8}

/-- The hash value after the whole blocks of `m`. -/
def Absorbed (s : Words) (m : List UInt8) : Prop := ∃ n, m.length = 64 * n ∧ s = hashAfter m n

/-- The hash value after some blocks depends on no others. -/
theorem hashAfter_append {n : ℕ} (h : 64 * n ≤ m.length) (rest : List UInt8) :
    hashAfter (m ++ rest) n = hashAfter m n := by
  induction n with
  | zero => rfl
  | succ n ih => rw [hashAfter, hashAfter, ih (by omega), slice_append_of_le (by omega)]

/-- One more block is absorbed. -/
theorem Absorbed.block (h : Absorbed s m) {block : List UInt8} (hblock : block.length = 64) :
    Absorbed (compress s block) (m ++ block) := by
  obtain ⟨n, hlength, rfl⟩ := h
  refine ⟨n + 1, by rw [length_append]; omega, ?_⟩
  rw [hashAfter, hashAfter_append hlength.ge, slice_append_right hlength.le, hlength, Nat.sub_self,
    slice, drop_zero, take_of_length_le hblock.le]

/-- The digest is the hash value when the padded message is absorbed. -/
theorem Absorbed.digest (h : Absorbed s (pad m)) : s.bytes = digest m := by
  obtain ⟨n, hlength, rfl⟩ := h
  rw [Sha256.digest, hlength, Nat.mul_div_cancel_left n (by decide)]

end Sha256
