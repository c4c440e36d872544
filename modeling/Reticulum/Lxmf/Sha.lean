import Reticulum.Base.Sha256

/-!
# The hash of the messages

The SHA-256 of `lxmf.c`: a context with a block that fills, which `sha_update` takes chunks into and
`sha_final` pads. It is the function of the standard (`sha_is_sha256`), however the message is cut,
also where several messages go on from one copied context, as the search for a stamp does.

A word read by shifts is the number of its bytes, and the shifts of `rotr32` are a rotation, so one
`sha_block` is one `compress` (`shaBlock_eq`). A context holds a message when it has absorbed its
whole blocks and its block begins with the rest (`ShaCtx.Holds`); every turn of the loop of
`sha_update` keeps that (`holds_take`), and the one or two blocks of `sha_final` are the end of the
padded message (`shaLast_eq`).
-/

namespace Reticulum.Lxmf

open Bytes Sha256 List Octets Nat

/-! ## The code -/

def rotr32 (x n : UInt32) : UInt32 := x >>> n ||| x <<< (32 - n)

def load32be (p : List UInt8) : UInt32 :=
  (p.getD 0 0).toUInt32 <<< 24 ||| (p.getD 1 0).toUInt32 <<< 16 |||
    (p.getD 2 0).toUInt32 <<< 8 ||| (p.getD 3 0).toUInt32

def store32be (x : UInt32) : List UInt8 :=
  [(x >>> 24).toUInt8, (x >>> 16).toUInt8, (x >>> 8).toUInt8, x.toUInt8]

def store64be (x : UInt64) : List UInt8 :=
  [7, 6, 5, 4, 3, 2, 1, 0].map fun i : UInt64 => (x >>> (8 * i)).toUInt8

def shaK : List UInt32 :=
  [0x428a2f98, 0x71374491, 0xb5c0fbcf, 0xe9b5dba5, 0x3956c25b, 0x59f111f1, 0x923f82a4, 0xab1c5ed5,
    0xd807aa98, 0x12835b01, 0x243185be, 0x550c7dc3, 0x72be5d74, 0x80deb1fe, 0x9bdc06a7, 0xc19bf174,
    0xe49b69c1, 0xefbe4786, 0x0fc19dc6, 0x240ca1cc, 0x2de92c6f, 0x4a7484aa, 0x5cb0a9dc, 0x76f988da,
    0x983e5152, 0xa831c66d, 0xb00327c8, 0xbf597fc7, 0xc6e00bf3, 0xd5a79147, 0x06ca6351, 0x14292967,
    0x27b70a85, 0x2e1b2138, 0x4d2c6dfc, 0x53380d13, 0x650a7354, 0x766a0abb, 0x81c2c92e, 0x92722c85,
    0xa2bfe8a1, 0xa81a664b, 0xc24b8b70, 0xc76c51a3, 0xd192e819, 0xd6990624, 0xf40e3585, 0x106aa070,
    0x19a4c116, 0x1e376c08, 0x2748774c, 0x34b0bcb5, 0x391c0cb3, 0x4ed8aa4a, 0x5b9cca4f, 0x682e6ff3,
    0x748f82ee, 0x78a5636f, 0x84c87814, 0x8cc70208, 0x90befffa, 0xa4506ceb, 0xbef9a3f7, 0xc67178f2]

/-- `w[i]` for `i ≥ 16`, behind the words before it. -/
def extendWords (w : List UInt32) (i : ℕ) : List UInt32 :=
  let w15 := w.getD (i - 15) 0
  let w2 := w.getD (i - 2) 0
  let s0 := rotr32 w15 7 ^^^ rotr32 w15 18 ^^^ w15 >>> 3
  let s1 := rotr32 w2 17 ^^^ rotr32 w2 19 ^^^ w2 >>> 10
  w ++ [w.getD (i - 16) 0 + s0 + w.getD (i - 7) 0 + s1]

/-- The body of the second loop of `sha_block`. -/
def mixWords (w : List UInt32) (v : Words) (i : ℕ) : Words :=
  let s1 := rotr32 v.e 6 ^^^ rotr32 v.e 11 ^^^ rotr32 v.e 25
  let ch := (v.e &&& v.f) ^^^ (~~~v.e &&& v.g)
  let t1 := v.h + s1 + ch + shaK.getD i 0 + w.getD i 0
  let s0 := rotr32 v.a 2 ^^^ rotr32 v.a 13 ^^^ rotr32 v.a 22
  let maj := (v.a &&& v.b) ^^^ (v.a &&& v.c) ^^^ (v.b &&& v.c)
  let t2 := s0 + maj
  { h := v.g, g := v.f, f := v.e, e := v.d + t1, d := v.c, c := v.b, b := v.a, a := t1 + t2 }

def shaBlock (h : Words) (b : List UInt8) : Words :=
  let w := (range' 16 48).foldl extendWords
    ((range 16).map fun i => load32be (b.drop (4 * i)))
  let v := (range 64).foldl (mixWords w) h
  ⟨h.a + v.a, h.b + v.b, h.c + v.c, h.d + v.d, h.e + v.e, h.f + v.f, h.g + v.g, h.h + v.h⟩

/-- `sha_ctx`. Between two calls the block is not full. -/
structure ShaCtx where
  h : Words
  block : Octets 64
  used : ℕ
  bits : UInt64
  used_lt : used < 64

/-- `memcpy` or `memset` into a block. -/
def copyTo (block : Octets 64) (k : ℕ) (bytes : List UInt8) : Octets 64 :=
  .ofList 64 (block.bytes.take k ++ (bytes ++ block.bytes.drop (k + bytes.length)))

def shaInit (block : Octets 64) : ShaCtx :=
  { h := ⟨0x6a09e667, 0xbb67ae85, 0x3c6ef372, 0xa54ff53a, 0x510e527f, 0x9b05688c, 0x1f83d9ab,
      0x5be0cd19⟩
    block
    used := 0
    bits := 0
    used_lt := by decide }

/-- The body of the loop of `sha_update`, with the bytes that the block takes. -/
def ShaCtx.take (c : ShaCtx) (bytes : List UInt8) (h : c.used + bytes.length ≤ 64) : ShaCtx :=
  let block := copyTo c.block c.used bytes
  let bits := c.bits + UInt64.ofNat bytes.length * 8
  if hfull : c.used + bytes.length = 64 then
    { h := shaBlock c.h block.bytes, block, used := 0, bits, used_lt := by decide }
  else
    { c with block, used := c.used + bytes.length, bits, used_lt := by omega }

def shaUpdate (c : ShaCtx) (p : List UInt8) : ShaCtx :=
  if p = [] then c
  else
    let n := min (64 - c.used) p.length
    shaUpdate (c.take (p.take n) (by grind [c.used_lt])) (p.drop n)
termination_by p.length
decreasing_by grind [c.used_lt, length_pos_iff]

/-- The end of `sha_final`: the last block and the digest. -/
def shaLast (h : Words) (block : Octets 64) (used : ℕ) (bits : UInt64) : List UInt8 :=
  let block := copyTo (copyTo block used (replicate (56 - used) 0)) 56 (store64be bits)
  let h := shaBlock h block.bytes
  [h.a, h.b, h.c, h.d, h.e, h.f, h.g, h.h].flatMap store32be

def shaFinal (c : ShaCtx) : List UInt8 :=
  let block := copyTo c.block c.used [0x80]
  let used := c.used + 1
  if 56 < used then
    let block := copyTo block used (replicate (64 - used) 0)
    shaLast (shaBlock c.h block.bytes) block 0 c.bits
  else shaLast c.h block used c.bits

def lxmfSha256 (block : Octets 64) (data : List UInt8) : List UInt8 :=
  shaFinal (if data ≠ [] then shaUpdate (shaInit block) data else shaInit block)

/-! ## Words -/

/-- The two shifts make the rotation. -/
theorem rotr32_eq (x : UInt32) {n : UInt32} (hpos : 0 < n) (h : n < 32) :
    rotr32 x n = rotr n.toNat x := by
  rw [UInt32.lt_iff_toNat_lt] at hpos h
  change 0 < n.toNat at hpos
  change n.toNat < 32 at h
  have hsub : (32 - n).toNat = 32 - n.toNat :=
    UInt32.toNat_sub_of_le _ _ (UInt32.le_iff_toNat_le.2 h.le)
  apply UInt32.toNat_inj.mp
  rw [rotr32, UInt32.toNat_or, UInt32.toNat_shiftRight, UInt32.toNat_shiftLeft, hsub,
    mod_eq_of_lt h, mod_eq_of_lt (show 32 - n.toNat < 32 by omega)]
  simp [rotr, mod_eq_of_lt h]

/-- Four bytes are read as the number they spell. -/
theorem load32be_eq {p : List UInt8} (h : 4 ≤ p.length) :
    load32be p = UInt32.ofNat (number p 0 4) := by
  obtain _ | ⟨a, _ | ⟨b, _ | ⟨c, _ | ⟨d, rest⟩⟩⟩⟩ := p
  case cons.cons.cons.cons =>
    have hor {i x y : ℕ} (h : y < 2 ^ i) : x * 2 ^ i ||| y = x * 2 ^ i + y := by
      rw [mul_comm, two_pow_add_eq_or_of_lt h]
    have ha := a.toNat_lt
    have hb := b.toNat_lt
    have hc := c.toNat_lt
    have hd := d.toNat_lt
    have hload : a.toNat * 2 ^ 24 % 2 ^ 32 ||| (b.toNat * 2 ^ 16 % 2 ^ 32 |||
        (c.toNat * 2 ^ 8 % 2 ^ 32 ||| d.toNat)) =
          (((a.toNat * 256 + b.toNat) * 256 + c.toNat) * 256 + d.toNat) % 2 ^ 32 := by
      simp (disch := omega) only [mod_eq_of_lt, hor]
      omega
    apply UInt32.toNat_inj.mp
    simpa [load32be, number, slice, beDecode, Nat.shiftLeft_eq, Nat.or_assoc] using hload
  all_goals
    simp only [length_cons, length_nil] at h
    omega

theorem store32be_eq (x : UInt32) : store32be x = beEncode 4 x.toNat := by
  simp only [store32be, beEncode, cons.injEq, and_true]
  refine ⟨?_, ?_, ?_, ?_⟩ <;> apply UInt8.toNat_inj.mp <;> simp [shiftRight_eq_div_pow]

theorem store64be_eq (x : UInt64) : store64be x = beEncode 8 x.toNat := by
  simp only [store64be, beEncode, map_cons, map_nil, cons.injEq, and_true]
  refine ⟨?_, ?_, ?_, ?_, ?_, ?_, ?_, ?_⟩ <;> apply UInt8.toNat_inj.mp <;>
    simp [shiftRight_eq_div_pow]

/-! ## Blocks -/

/-- The table of the code holds the constants of the standard. -/
theorem shaK_eq : shaK = constants := by decide +kernel

/-- The array that the first two loops fill is the message schedule. -/
theorem words_eq {b : List UInt8} (hb : b.length = 64) (n : ℕ) :
    (range' 16 n).foldl extendWords ((range 16).map fun i => load32be (b.drop (4 * i))) =
      (range (16 + n)).map (schedule b) := by
  induction n with
  | zero =>
    refine map_congr_left fun i hi => ?_
    rw [mem_range] at hi
    rw [load32be_eq (by rw [length_drop]; omega), schedule, if_pos hi]
    rfl
  | succ n ih =>
    have hget (j : ℕ) (hj : j < 16 + n) :
        ((range (16 + n)).map (schedule b)).getD j 0 = schedule b j := by
      simp [getElem?_range hj]
    rw [range'_concat, foldl_append, ih, foldl_cons, foldl_nil,
      ← add_assoc, range_succ, map_append, extendWords]
    simp only [one_mul]
    rw [hget _ (by omega), hget _ (by omega), hget _ (by omega), hget _ (by omega)]
    refine congrArg (fun x => .map (schedule b) (.range (16 + n)) ++ [x]) ?_
    conv_rhs => rw [schedule, if_neg (by omega)]
    simp (disch := decide) only [rotr32_eq, smallSigma0, smallSigma1, UInt32.reduceToNat]
    ac_rfl

/-- `sha_block` computes the next hash value. -/
theorem shaBlock_eq (s : Words) {b : List UInt8} (hb : b.length = 64) :
    shaBlock s b = compress s b := by
  have hrounds : (range 64).foldl (mixWords ((range 64).map (schedule b))) s =
      (range 64).foldl (fun v t => round v (constants.getD t 0) (schedule b t)) s := by
    refine foldl_ext _ _ _ fun v t ht => ?_
    have hget : ((range 64).map (schedule b)).getD t 0 = schedule b t := by
      simp [getElem?_range (mem_range.mp ht)]
    simp (disch := decide) only [mixWords, rotr32_eq, hget, shaK_eq]
    rfl
  rw [shaBlock, words_eq hb 48, hrounds, compress]

/-! ## Contexts -/

/-- What is copied behind the first bytes of a block stands there. -/
theorem take_copyTo (block : Octets 64) {k : ℕ} {bytes : List UInt8} (h : k + bytes.length ≤ 64) :
    (copyTo block k bytes).bytes.take (k + bytes.length) = block.bytes.take k ++ bytes := by
  have hlength := block.length_bytes
  have hk : (block.bytes.take k ++ bytes).length = k + bytes.length := by
    rw [length_append, length_take]
    omega
  rw [copyTo, ← append_assoc, bytes_ofList (by grind), take_take, min_eq_left h, take_left' hk]

/-- A copy up to the end of a block fills it. -/
theorem bytes_copyTo (block : Octets 64) {k : ℕ} {bytes : List UInt8} (h : k + bytes.length = 64) :
    (copyTo block k bytes).bytes = block.bytes.take k ++ bytes := by
  rw [← take_copyTo block h.le, h, take_of_length_le (length_eq _).le]

/-- The context has taken in `m`: the blocks of it but for the bytes that are waiting. -/
def ShaCtx.Holds (c : ShaCtx) (m : List UInt8) : Prop :=
  c.bits = UInt64.ofNat (8 * m.length) ∧
    ∃ front, m = front ++ c.block.bytes.take c.used ∧ Absorbed c.h front

/-- One turn of the loop takes its bytes in. -/
theorem holds_take {c : ShaCtx} {m bytes : List UInt8} (hc : c.Holds m)
    (h : c.used + bytes.length ≤ 64) : (c.take bytes h).Holds (m ++ bytes) := by
  obtain ⟨hbits, front, hm, habsorbed⟩ := hc
  have hbits' : c.bits + .ofNat bytes.length * 8 =
      .ofNat (8 * (m ++ bytes).length) := by
    rw [hbits, length_append, mul_add, UInt64.ofNat_add, mul_comm 8 bytes.length,
      UInt64.ofNat_mul bytes.length]
    rfl
  unfold ShaCtx.take
  split_ifs with hfull
  · have hblock := bytes_copyTo c.block hfull
    refine ⟨hbits', m ++ bytes, (append_nil _).symm, ?_⟩
    dsimp only
    rw [shaBlock_eq _ (length_eq _), hblock, hm, append_assoc]
    exact habsorbed.block (by rw [← hblock, length_eq])
  · refine ⟨hbits', front, ?_, habsorbed⟩
    dsimp only
    rw [take_copyTo c.block h, hm, append_assoc]

/-- `sha_update` takes in the bytes that it is given. -/
theorem holds_update {c : ShaCtx} {m : List UInt8} (hc : c.Holds m) (p : List UInt8) :
    (shaUpdate c p).Holds (m ++ p) := by
  induction c, p using shaUpdate.induct generalizing m with
  | case1 c =>
    rw [shaUpdate, if_pos rfl]
    rwa [append_nil]
  | case2 c p hp n =>
    rename_i ih
    rw [shaUpdate, if_neg hp]
    have h := ih (holds_take hc _)
    rwa [append_assoc, take_append_drop] at h

/-- The hash value of `sha_init` is that of the standard. -/
theorem initial_eq : (⟨0x6a09e667, 0xbb67ae85, 0x3c6ef372, 0xa54ff53a, 0x510e527f, 0x9b05688c,
    0x1f83d9ab, 0x5be0cd19⟩ : Words) = initial := by decide +kernel

theorem holds_init (block : Octets 64) : (shaInit block).Holds [] :=
  ⟨rfl, [], rfl, 0, rfl, initial_eq⟩

/-- The last block ends the padded message. -/
theorem shaLast_eq {h : Words} {front m : List UInt8} (habsorbed : Absorbed h front)
    (block : Octets 64) {used : ℕ} (hused : used ≤ 56) {bits : UInt64}
    (hbits : bits.toNat = 8 * m.length) (hpad : pad m = front ++ (block.bytes.take used ++
      (replicate (56 - used) 0 ++ beEncode 8 (8 * m.length)))) :
    shaLast h block used bits = digest m := by
  have hzeros : used + (replicate (56 - used) (0 : UInt8)).length = 56 := by
    rw [length_replicate]
    omega
  have hblock : (copyTo (copyTo block used (replicate (56 - used) 0)) 56
      (store64be bits)).bytes = block.bytes.take used ++
        (replicate (56 - used) 0 ++ beEncode 8 (8 * m.length)) := by
    have htake := take_copyTo block (hzeros.trans_le (by decide))
    rw [hzeros] at htake
    rw [bytes_copyTo _ (by rfl), htake, store64be_eq, hbits, append_assoc]
  have hlast := habsorbed.block (length_eq
    (copyTo (copyTo block used (replicate (56 - used) 0)) 56 (store64be bits)))
  rw [← shaBlock_eq _ (length_eq _), hblock, ← hpad] at hlast
  rw [← hlast.digest, shaLast, hblock, Words.bytes, funext store32be_eq]

/-- `sha_final` returns the digest of what was taken in. -/
theorem shaFinal_eq {c : ShaCtx} {m : List UInt8} (hc : c.Holds m) (hm : m.length < 2 ^ 61) :
    shaFinal c = digest m := by
  obtain ⟨hbits, front, hfront, habsorbed⟩ := hc
  obtain ⟨n, hn, -⟩ := id habsorbed
  have hused := c.used_lt
  have htail : (c.block.bytes.take c.used).length = c.used := by
    rw [length_take, length_eq]
    omega
  have hmod : m.length % 64 = c.used := by
    rw [hfront, length_append, htail]
    omega
  have hbits' : c.bits.toNat = 8 * m.length := by
    rw [hbits, UInt64.toNat_ofNat_of_lt' (by simp [UInt64.size]; omega)]
  have hone : (copyTo c.block c.used [0x80]).bytes.take (c.used + 1) =
      c.block.bytes.take c.used ++ [0x80] :=
    @take_copyTo c.block c.used [0x80] hused
  unfold shaFinal
  dsimp only
  split_ifs with hlate
  · -- The one bit and zeros fill the block, and another one is needed.
    have hfull : c.used + 1 + (replicate (64 - (c.used + 1)) (0 : UInt8)).length = 64 := by
      rw [length_replicate]
      omega
    have hblock := bytes_copyTo (copyTo c.block c.used [0x80]) hfull
    rw [hone] at hblock
    refine shaLast_eq (shaBlock_eq c.h (length_eq _) ▸
      habsorbed.block (length_eq _)) _ (by decide) hbits' ?_
    have hzeros : (119 - c.used) % 64 = 64 - (c.used + 1) + 56 := by omega
    rw [pad, hmod, hzeros, replicate_add, hblock]
    nth_rewrite 1 [hfront]
    simp
  · refine shaLast_eq habsorbed _ (by omega) hbits' ?_
    have hzeros : (119 - c.used) % 64 = 56 - (c.used + 1) := by omega
    rw [pad, hmod, hzeros, hone]
    nth_rewrite 1 [hfront]
    simp

/-- Chunks are taken in one after the other. -/
theorem holds_updates {c : ShaCtx} {m : List UInt8} (hc : c.Holds m) (chunks : List (List UInt8)) :
    (chunks.foldl shaUpdate c).Holds (m ++ chunks.flatten) := by
  induction chunks generalizing c m with
  | nil => rwa [flatten_nil, append_nil]
  | cons chunk chunks ih =>
    rw [flatten_cons, ← append_assoc]
    exact ih (holds_update hc chunk)

/-- However a message is cut into chunks, and however many messages go on from one context, the
digest is that of the standard; `block` is what the buffer holds before `sha_init`. -/
theorem sha_is_sha256 (block : Octets 64) (common more : List (List UInt8))
    (h : (common ++ more).flatten.length < 2 ^ 61) :
    shaFinal (more.foldl shaUpdate (common.foldl shaUpdate (shaInit block))) =
        digest (common ++ more).flatten ∧
      lxmfSha256 block (common ++ more).flatten = digest (common ++ more).flatten := by
  constructor
  · refine shaFinal_eq ?_ h
    rw [flatten_append]
    exact holds_updates (holds_updates (holds_init block) common) more
  · refine shaFinal_eq ?_ h
    split_ifs with hempty
    · exact holds_update (holds_init block) _
    · rw [not_not.mp hempty]
      exact holds_init block

/-- The first message of the standard's examples, in two chunks. -/
theorem sha_is_sha256_abc :
    shaFinal ([[0x62, 0x63]].foldl shaUpdate ([[0x61]].foldl shaUpdate (shaInit (.zero 64)))) =
      digest [0x61, 0x62, 0x63] :=
  (sha_is_sha256 (.zero 64) [[0x61]] [[0x62, 0x63]] (by decide)).1

/-- Its digest, as the standard's examples give it. -/
example : lxmfSha256 (.zero 64) [0x61, 0x62, 0x63] =
    [0xba, 0x78, 0x16, 0xbf, 0x8f, 0x01, 0xcf, 0xea, 0x41, 0x41, 0x40, 0xde, 0x5d, 0xae, 0x22, 0x23,
      0xb0, 0x03, 0x61, 0xa3, 0x96, 0x17, 0x7a, 0x9c, 0xb4, 0x10, 0xff, 0x61, 0xf2, 0x00, 0x15,
      0xad] := by
  decide +kernel

end Reticulum.Lxmf
