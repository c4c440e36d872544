import Mathlib.Tactic

/-!
# Byte strings

A byte string is a `List UInt8`. `beEncode n v` writes the `n` low bytes of a number, the most
significant first, and `beDecode` reads such a string back; every big-endian reader and writer of a
wire format is one of the two at a fixed width. `Octets n` is a byte string of exactly `n` bytes,
for fields whose size the format fixes.
-/

namespace Bytes

open List Nat

/-- The `n` low bytes of `v`, the most significant first. -/
def beEncode : ℕ → ℕ → List UInt8
  | 0, _ => []
  | n + 1, v => UInt8.ofNat (v / 256 ^ n) :: beEncode n v

/-- The number that a byte string spells, its most significant byte first. -/
def beDecode (bs : List UInt8) : ℕ := bs.foldl (fun value b => value * 256 + b.toNat) 0

/-- `beEncode` writes as many bytes as it is asked for. -/
@[simp]
theorem length_beEncode (n v : ℕ) : (beEncode n v).length = n := by
  induction n with
  | zero => rfl
  | succ n ih => simp [beEncode, ih]

/-- Reading on from a value already read puts that value above the bytes that follow. -/
theorem foldl_beDecode (bs : List UInt8) (v : ℕ) :
    bs.foldl (fun value b => value * 256 + b.toNat) v = v * 256 ^ bs.length + beDecode bs := by
  induction bs generalizing v with
  | nil => simp [beDecode]
  | cons b bs ih =>
    simp only [foldl_cons, List.length_cons, beDecode]
    rw [ih, ih (0 * 256 + b.toNat)]
    ring

/-- The first byte of a string carries the highest weight. -/
theorem beDecode_cons (b : UInt8) (bs : List UInt8) :
    beDecode (b :: bs) = b.toNat * 256 ^ bs.length + beDecode bs := by
  have h := foldl_beDecode bs (0 * 256 + b.toNat)
  simpa [beDecode] using h

/-- A string of `n` bytes spells a number below `256 ^ n`. -/
theorem beDecode_lt (bs : List UInt8) : beDecode bs < 256 ^ bs.length := by
  induction bs with
  | nil => simp [beDecode]
  | cons b bs ih =>
    rw [beDecode_cons, List.length_cons, pow_succ]
    have hb : b.toNat < 256 := b.toNat_lt
    have hmul : b.toNat * 256 ^ bs.length ≤ 255 * 256 ^ bs.length := mul_le_mul_right _ (by omega)
    omega

/-- The bytes written spell the number modulo the width. -/
theorem beDecode_beEncode_mod (n v : ℕ) : beDecode (beEncode n v) = v % 256 ^ n := by
  induction n with
  | zero => simp [beEncode, beDecode, mod_one]
  | succ n ih =>
    rw [beEncode, beDecode_cons, ih, length_beEncode]
    have hbyte : (UInt8.ofNat (v / 256 ^ n)).toNat = v / 256 ^ n % 256 := by simp
    rw [hbyte, pow_succ, mod_mul, add_comm, mul_comm]

variable {n : ℕ} {a b : List UInt8} {k : ℕ}

/-- A number that fits is read back as it was written. -/
theorem beDecode_beEncode {v : ℕ} (h : v < 256 ^ n) : beDecode (beEncode n v) = v := by
  rw [beDecode_beEncode_mod, mod_eq_of_lt h]

/-- `n` bytes of a string, from offset `k` on. -/
def slice (l : List UInt8) (k n : ℕ) : List UInt8 := (l.drop k).take n

/-- Dropping a string and more drops from what follows it. -/
theorem drop_append_right (h : a.length ≤ k) : (a ++ b).drop k = b.drop (k - a.length) := by
  rw [drop_append, drop_eq_nil_of_le h, nil_append]

/-- A slice behind a string is one of what follows it. -/
theorem slice_append_right (h : a.length ≤ k) : slice (a ++ b) k n = slice b (k - a.length) n := by
  unfold slice
  rw [drop_append_right h]

/-- The slice at the start of a string that begins with `a`. -/
theorem slice_append_left (h : a.length = n) : slice (a ++ b) 0 n = a := by
  subst h
  simp [slice]

/-- The number in the `n` bytes from offset `k` on. -/
def number (l : List UInt8) (k n : ℕ) : ℕ := beDecode (slice l k n)

/-- A number behind a string is one of what follows it. -/
theorem number_append_right (h : a.length ≤ k) :
    number (a ++ b) k n = number b (k - a.length) n := by
  unfold number
  rw [slice_append_right h]

/-- A number that fits is read back. -/
theorem number_beEncode {v : ℕ} (h : v < 256 ^ n) (rest : List UInt8) :
    number (beEncode n v ++ rest) 0 n = v := by
  unfold number
  rw [slice_append_left (length_beEncode n v), beDecode_beEncode h]

/-- A slice of a string is one of every longer string that starts with it. -/
theorem slice_append_of_le (h : k + n ≤ a.length) : slice (a ++ b) k n = slice a k n := by
  unfold slice
  rw [drop_append_of_le_length (by omega), take_append_of_le_length]
  rw [length_drop]
  omega

/-- A number in a string is one of every longer string that starts with it. -/
theorem number_append_of_le (h : k + n ≤ a.length) : number (a ++ b) k n = number a k n := by
  unfold number
  rw [slice_append_of_le h]

/-- A slice of the beginning of a string is one of the string. -/
theorem slice_take {l : List UInt8} {m : ℕ} (h : k + n ≤ m) :
    slice (l.take m) k n = slice l k n := by
  unfold slice
  rw [drop_take, take_take, min_eq_left (by omega)]

/-- A number in the beginning of a string is one of the string. -/
theorem number_take {l : List UInt8} {m : ℕ} (h : k + n ≤ m) :
    number (l.take m) k n = number l k n := by
  unfold number
  rw [slice_take h]

/-- A property of bytes is decided on all of them. -/
instance decidableForall {P : UInt8 → Prop} [DecidablePred P] : Decidable (∀ b, P b) :=
  decidable_of_iff (∀ b : BitVec 8, P (UInt8.ofBitVec b)) ⟨fun h b => h b.toBitVec, fun h _ => h _⟩

end Bytes

/-- A byte string of exactly `n` bytes. -/
structure Octets (n : ℕ) where
  /-- The bytes, in order. -/
  bytes : List UInt8
  /-- There are `n` of them. -/
  length_bytes : bytes.length = n
deriving DecidableEq

namespace Octets

variable {n : ℕ}

/-- Two fixed-size strings with the same bytes are equal. -/
@[ext]
theorem ext {x y : Octets n} (h : x.bytes = y.bytes) : x = y := by
  cases x
  cases y
  simpa using h

/-- Whether a string is one of some. -/
instance decidableMem (x : Octets n) (l : List (Octets n)) : Decidable (x ∈ l) :=
  List.instDecidableMemOfLawfulBEq x l

/-- The string of `n` zero bytes. -/
def zero (n : ℕ) : Octets n := ⟨List.replicate n 0, List.length_replicate⟩

/-- The first `n` bytes of a string, filled up with zeros when it is shorter. -/
def ofList (n : ℕ) (l : List UInt8) : Octets n :=
  ⟨l.take n ++ List.replicate (n - l.length) 0, by
    simp only [List.length_append, List.length_take, List.length_replicate]
    omega⟩

/-- The bytes of a fixed-size string, as a simp lemma about their number. -/
@[simp]
theorem length_eq (x : Octets n) : x.bytes.length = n := x.length_bytes

/-- Taking the first `n` bytes of a string that starts with `x` gives `x`. -/
@[simp]
theorem ofList_append (x : Octets n) (rest : List UInt8) : ofList n (x.bytes ++ rest) = x := by
  apply ext
  have hlen := x.length_bytes
  simp [ofList]

/-- Taking the first `n` bytes of exactly `n` bytes. -/
@[simp]
theorem ofList_bytes (x : Octets n) : ofList n x.bytes = x := by
  simpa using ofList_append x []

/-- A string that is long enough keeps its bytes. -/
theorem bytes_ofList {l : List UInt8} (h : n ≤ l.length) : (ofList n l).bytes = l.take n := by
  have hz : n - l.length = 0 := by omega
  simp [ofList, hz]

/-- `count` strings of `n` bytes each, one after the other. -/
def readMany (n : ℕ) : ℕ → List UInt8 → List (Octets n)
  | 0, _ => []
  | count + 1, l => ofList n l :: readMany n count (l.drop n)

/-- The bytes of fixed-size strings, one after the other. -/
def writeMany {n : ℕ} (xs : List (Octets n)) : List UInt8 := xs.flatMap bytes

/-- Blocks of one size. -/
@[simp]
theorem length_writeMany (xs : List (Octets n)) : (writeMany xs).length = xs.length * n := by
  induction xs with
  | nil => simp [writeMany]
  | cons x xs ih =>
    simp only [writeMany, List.flatMap_cons, List.length_append, length_eq, List.length_cons]
    rw [show (xs.flatMap bytes).length = xs.length * n from ih]
    ring

/-- Fixed-size strings are read back as they were written. -/
theorem readMany_writeMany (xs : List (Octets n)) (rest : List UInt8) :
    readMany n xs.length (writeMany xs ++ rest) = xs := by
  induction xs with
  | nil => rfl
  | cons x xs ih =>
    have hdrop : (x.bytes ++ (writeMany xs ++ rest)).drop n = writeMany xs ++ rest :=
      List.drop_left' x.length_bytes
    have hcons : writeMany (x :: xs) ++ rest = x.bytes ++ (writeMany xs ++ rest) := by
      simp [writeMany]
    rw [hcons, List.length_cons, readMany, ofList_append, hdrop, ih]

end Octets
