import Reticulum.Crypto
import Reticulum.Packet

/-!
# Interface authentication

`src/transport/ifac.c`. A packet for a closed network carries a tag between its second and its third
byte, the end of a signature of the packet, and everything but the tag is masked by a key stream
that depends on the tag. The first bit of the packet marks it as protected. `ifac_bijection` says
that protecting and unprotecting undo each other.
-/

namespace Reticulum

open Bytes List Octets

/-- What `ifac.c` takes from the crypto provider. -/
structure IfacProvider extends Crypto where
  /-- `rns_hkdf_sha256` without a context: the input, the salt and the number of bytes. -/
  hkdf : List UInt8 → List UInt8 → (n : ℕ) → Octets n
  /-- `rns_ed25519_sign`. -/
  ed25519Sign : Octets 32 → List UInt8 → Octets 64
  /-- Whether `rns_identity_from_private` accepts the key. -/
  fromPrivate : Octets 64 → Bool

/-- `rns_ifac`, with the part of its identity that signs. -/
structure Ifac where
  key : Octets 64
  signing_private : Octets 32
  has_private : Bool
  tag_size : ℕ

namespace Ifac

/-- `IFAC_SALT`. -/
def ifacSalt : List UInt8 :=
  [0xad, 0xf5, 0x4d, 0x88, 0x2c, 0x9a, 0x9b, 0x80, 0x77, 0x1e, 0xb4, 0x99, 0x5d, 0x70, 0x2d, 0x4a,
    0x3e, 0x73, 0x33, 0x91, 0xb2, 0xa0, 0xf5, 0x3f, 0x41, 0x6d, 0x9f, 0x90, 0x7e, 0x55, 0xcf, 0xf8]

section

variable (p : IfacProvider) (ifac : Ifac)

/-- The sizes of a tag that are allowed, `RNS_IFAC_MIN_SIZE` to `RNS_IFAC_MAX_SIZE`. -/
def TagSize (n : ℕ) : Prop := 1 ≤ n ∧ n ≤ 64

instance (n : ℕ) : Decidable (TagSize n) := inferInstanceAs (Decidable (_ ∧ _))

/-- `valid`. -/
def valid : Bool := TagSize ifac.tag_size ∧ ifac.has_private

/-- `equal_ct`. -/
def equalCt (a b : List UInt8) : Bool :=
  (List.zipWith (· ^^^ ·) a b).foldl (· ||| ·) 0 = 0

/-- The key of a network. -/
def networkKey (network_name passphrase : List UInt8) : Octets 64 :=
  let origin := (if network_name = [] then [] else (p.sha256 network_name).bytes) ++
    (if passphrase = [] then [] else (p.sha256 passphrase).bytes)
  p.hkdf (p.sha256 origin).bytes ifacSalt 64

/-- `rns_ifac_derive`. -/
def derive (network_name passphrase : List UInt8) (tag_size : ℕ) : Option Ifac :=
  if ¬ TagSize tag_size ∨ (network_name = [] ∧ passphrase = []) then none
  else
    let key := networkKey p network_name passphrase
    if ¬ p.fromPrivate key then none
    else
      some { key, signing_private := ofList 32 (key.bytes.drop 32), has_private := true,
             tag_size }

/-- `rns_ifac_protected_bound`. -/
def protectedBound (raw_length tag_size : ℕ) : ℕ :=
  if raw_length < 2 ∨ raw_length > mtu ∨ ¬ TagSize tag_size then 0 else raw_length + tag_size

/-- The bytes of a packet from the third one on, masked. -/
def masked (bytes mask : List UInt8) : List UInt8 := List.zipWith (· ^^^ ·) bytes mask

/-- The tag of a packet: the end of its signature. -/
def tagOf (raw : List UInt8) : List UInt8 :=
  (p.ed25519Sign ifac.signing_private raw).bytes.drop (64 - ifac.tag_size)

/-- The mask of a protected packet with a tag. -/
def maskOf (tag : List UInt8) (length : ℕ) : List UInt8 :=
  (p.hkdf tag ifac.key.bytes length).bytes

/-- `rns_ifac_protect` into a buffer of the capacity. -/
def protect (raw : List UInt8) (out_capacity : ℕ) : Option (List UInt8) :=
  let total := protectedBound raw.length ifac.tag_size
  if ¬ valid ifac ∨ total = 0 ∨ out_capacity < total then none
  else
    let tag := tagOf p ifac raw
    let mask := maskOf p ifac tag total
    some ((((raw.getD 0 0 ||| 0x80) ^^^ mask.getD 0 0) ||| 0x80) ::
      (raw.getD 1 0 ^^^ mask.getD 1 0) ::
      (tag ++ masked (raw.drop 2) (mask.drop (2 + ifac.tag_size))))

/-- `rns_ifac_unprotect` into a buffer of the capacity. -/
def unprotect (protected_raw : List UInt8) (out_capacity : ℕ) : Option (List UInt8) :=
  if ¬ valid ifac ∨ protected_raw.getD 0 0 &&& 0x80 = 0 ∨
      protected_raw.length ≤ 2 + ifac.tag_size then none
  else
    let raw_length := protected_raw.length - ifac.tag_size
    if raw_length > mtu ∨ out_capacity < raw_length then none
    else
      let tag := slice protected_raw 2 ifac.tag_size
      let mask := maskOf p ifac tag protected_raw.length
      let out := ((protected_raw.getD 0 0 ^^^ mask.getD 0 0) &&& 0x7f) ::
        (protected_raw.getD 1 0 ^^^ mask.getD 1 0) ::
        masked (protected_raw.drop (2 + ifac.tag_size)) (mask.drop (2 + ifac.tag_size))
      if equalCt tag (tagOf p ifac out) then some out else none

end

/-! ## Bytes and masks -/

/-- A protected packet is marked. -/
theorem first_marked (x : UInt8) : ¬ (x ||| 0x80) &&& 0x80 = 0 := by
  revert x
  decide +kernel

/-- The low bits of a first byte and its mark are the same under a mask and without it. -/
theorem first_masked (x m : UInt8) :
    (((x ||| 0x80) ^^^ m ||| 0x80) ^^^ m) &&& 0x7f = x &&& 0x7f ∧
      ((((x ^^^ m) &&& 0x7f) ||| 0x80) ^^^ m) ||| 0x80 = x ||| 0x80 := by
  -- The two constants have no bit in common, and together all.
  have hlow {i : ℕ} (hi : i < 8) : (127#8)[i] = !(128#8)[i] := by
    revert i
    decide
  constructor
  all_goals
    apply UInt8.toBitVec_inj.mp
    ext i hi
    simp only [UInt8.toBitVec_and, UInt8.toBitVec_xor, UInt8.toBitVec_or, BitVec.getElem_and,
      BitVec.getElem_xor, BitVec.getElem_or, UInt8.toBitVec_ofNat, hlow hi]
    cases (128#8)[i] <;> cases x.toBitVec[i] <;> cases m.toBitVec[i] <;> rfl

/-- A first byte with its bit clear is given back. -/
theorem first_protected {a : UInt8} (m : UInt8) (h : a &&& 0x80 = 0) :
    (((a ||| 0x80) ^^^ m ||| 0x80) ^^^ m) &&& 0x7f = a := by
  rw [(first_masked a m).1]
  revert a
  decide +kernel

/-- A first byte with its bit set is made again. -/
theorem first_unprotected {x : UInt8} (m : UInt8) (h : ¬ x &&& 0x80 = 0) :
    ((((x ^^^ m) &&& 0x7f) ||| 0x80) ^^^ m) ||| 0x80 = x := by
  rw [(first_masked x m).2]
  revert x
  decide +kernel

/-- The mask is taken off again. -/
theorem masked_masked {bytes mask : List UInt8} (h : bytes.length = mask.length) :
    masked (masked bytes mask) mask = bytes := by
  induction bytes generalizing mask with
  | nil => rfl
  | cons b bytes ih =>
    obtain ⟨m, mask, rfl⟩ := exists_cons_of_length_eq_add_one h.symm
    have hrest : bytes.length = mask.length := by simpa using h
    simp only [masked, zipWith_cons_cons] at ih ⊢
    rw [ih hrest, UInt8.xor_assoc, UInt8.xor_self, UInt8.xor_zero]

theorem length_masked {bytes mask : List UInt8} (h : mask.length = bytes.length) :
    (masked bytes mask).length = bytes.length := by
  rw [masked, length_zipWith, h, min_self]

theorem foldl_or_eq_zero (bytes : List UInt8) (acc : UInt8) :
    bytes.foldl (· ||| ·) acc = 0 ↔ acc = 0 ∧ ∀ b ∈ bytes, b = 0 := by
  induction bytes generalizing acc with
  | nil => simp
  | cons b bytes ih =>
    rw [foldl_cons, ih, UInt8.or_eq_zero_iff, forall_mem_cons, and_assoc]

/-- `equal_ct` compares strings of one length. -/
theorem equalCt_iff {a b : List UInt8} (h : a.length = b.length) : equalCt a b = true ↔ a = b := by
  rw [equalCt, decide_eq_true_eq, foldl_or_eq_zero]
  induction a generalizing b with
  | nil => simp [eq_nil_of_length_eq_zero h.symm]
  | cons x a ih =>
    obtain ⟨y, b, rfl⟩ := exists_cons_of_length_eq_add_one h.symm
    have hrest : a.length = b.length := by simpa using h
    simp only [true_and, zipWith_cons_cons, forall_mem_cons, List.cons.injEq] at ih ⊢
    rw [ih hrest, UInt8.xor_eq_zero_iff]

/-! ## Both directions -/

variable {p : IfacProvider} {ifac : Ifac} {capacity : ℕ}

section

variable (h : valid ifac = true)
include h

theorem tagSize_of_valid : TagSize ifac.tag_size :=
  (of_decide_eq_true h).1

theorem length_tagOf (raw : List UInt8) : (tagOf p ifac raw).length = ifac.tag_size := by
  have hsize := (tagSize_of_valid h).2
  rw [tagOf, length_drop, length_eq]
  omega

/-- What `rns_ifac_protect` makes of a packet. -/
theorem protect_cons {a b : UInt8} {rest : List UInt8}
    (hmtu : rest.length + 2 ≤ mtu) (hcapacity : rest.length + 2 + ifac.tag_size ≤ capacity) :
    let tag := tagOf p ifac (a :: b :: rest)
    let mask := maskOf p ifac tag (rest.length + 2 + ifac.tag_size)
    protect p ifac (a :: b :: rest) capacity =
      some ((((a ||| 0x80) ^^^ mask.getD 0 0) ||| 0x80) :: (b ^^^ mask.getD 1 0) ::
        (tag ++ masked rest (mask.drop (2 + ifac.tag_size)))) := by
  have hsize := tagSize_of_valid h
  have htotal : protectedBound (a :: b :: rest).length ifac.tag_size =
      rest.length + 2 + ifac.tag_size := by
    refine if_neg ?_
    rw [not_or, not_or, not_not]
    exact ⟨by simp, not_lt.mpr hmtu, hsize⟩
  unfold protect
  rw [htotal, if_neg]
  · rfl
  · rw [not_or, not_or, not_not]
    exact ⟨h, by omega, not_lt.mpr hcapacity⟩

/-- What `rns_ifac_unprotect` makes of a packet with a tag. -/
theorem unprotect_cons {x y : UInt8} {tag rest : List UInt8}
    (htag : tag.length = ifac.tag_size) (hfirst : ¬ x &&& 0x80 = 0) (hrest : rest ≠ [])
    (hmtu : rest.length + 2 ≤ mtu) (hcapacity : rest.length + 2 ≤ capacity) :
    let mask := maskOf p ifac tag (rest.length + 2 + ifac.tag_size)
    let out := ((x ^^^ mask.getD 0 0) &&& 0x7f) :: (y ^^^ mask.getD 1 0) ::
      masked rest (mask.drop (2 + ifac.tag_size))
    unprotect p ifac (x :: y :: (tag ++ rest)) capacity =
      if tag = tagOf p ifac out then some out else none := by
  have hpos := length_pos_iff.mpr hrest
  have hlength : (x :: y :: (tag ++ rest)).length = rest.length + 2 + ifac.tag_size := by
    simp only [length_cons, length_append, htag]
    omega
  have hslice : slice (x :: y :: (tag ++ rest)) 2 ifac.tag_size = tag := by
    rw [slice, ← htag]
    exact take_left
  have hdrop : (x :: y :: (tag ++ rest)).drop (2 + ifac.tag_size) = rest := by
    rw [← drop_drop, ← htag]
    exact drop_left
  intro mask out
  unfold unprotect
  rw [hlength, hslice, hdrop, if_neg, Nat.add_sub_cancel, if_neg]
  · show (if equalCt tag (tagOf p ifac out) = true then some out else none) = _
    simp only [equalCt_iff (htag.trans (length_tagOf h out).symm)]
  · rw [not_or]
    exact ⟨not_lt.mpr hmtu, not_lt.mpr hcapacity⟩
  · rw [not_or, not_or, not_not]
    exact ⟨h, hfirst, by omega⟩

end

/-- The mask covers what follows the tag. -/
theorem length_mask (p : IfacProvider) (ifac : Ifac) (tag : List UInt8) (n : ℕ) :
    ((maskOf p ifac tag (n + 2 + ifac.tag_size)).drop (2 + ifac.tag_size)).length = n := by
  rw [length_drop, maskOf, length_eq]
  omega

/-- What is accepted is marked, has a tag, and is not too short or too long. -/
theorem unprotect_eq_some {raw bytes : List UInt8}
    (h : unprotect p ifac bytes capacity = some raw) :
    valid ifac = true ∧ ∃ x y tag rest, bytes = x :: y :: (tag ++ rest) ∧
      tag.length = ifac.tag_size ∧ ¬ x &&& 0x80 = 0 ∧ rest ≠ [] ∧ rest.length + 2 ≤ mtu ∧
      rest.length + 2 ≤ capacity := by
  unfold unprotect at h
  split at h
  · cases h
  rename_i hbad
  dsimp only at h
  split at h
  · cases h
  rename_i hlong
  rw [not_or, not_or, not_not, not_le] at hbad
  obtain ⟨hvalid, hfirst, hlength⟩ := hbad
  obtain ⟨x, y, body, rfl⟩ : ∃ x y body, bytes = x :: y :: body := by
    match bytes, hlength with
    | [], hlength | [_], hlength => simp at hlength
    | x :: y :: body, _ => exact ⟨x, y, body, rfl⟩
  rw [length_cons, length_cons] at hlength hlong
  refine ⟨hvalid, x, y, body.take ifac.tag_size, body.drop ifac.tag_size, ?_, ?_, hfirst, ?_, ?_,
    ?_⟩
  · rw [take_append_drop]
  · rw [length_take]
    omega
  · refine ne_nil_of_length_pos ?_
    rw [length_drop]
    omega
  all_goals
    rw [length_drop]
    omega

/-- What is accepted is what protecting the packet makes. -/
theorem protect_unprotect {raw bytes : List UInt8} (h : unprotect p ifac bytes capacity = some raw)
    {capacity' : ℕ} (hcapacity' : raw.length + ifac.tag_size ≤ capacity') :
    protect p ifac raw capacity' = some bytes := by
  obtain ⟨hvalid, x, y, tag, rest, rfl, htag, hfirst, hrest, hmtu, hcapacity⟩ := unprotect_eq_some h
  rw [unprotect_cons hvalid htag hfirst hrest hmtu hcapacity] at h
  split_ifs at h with hsigned
  cases h
  have hmask := length_mask p ifac tag rest.length
  have hmasked := length_masked hmask
  rw [length_cons, length_cons, hmasked] at hcapacity'
  rw [protect_cons hvalid (hmasked.symm ▸ hmtu) (hmasked.symm ▸ hcapacity'), ← hsigned, hmasked,
    first_unprotected _ hfirst, UInt8.xor_assoc, UInt8.xor_self, UInt8.xor_zero,
    masked_masked hmask.symm]

/-- For every derived `rns_ifac`: a packet of three bytes up to the MTU whose first bit is clear is
protected and given back, whatever is accepted is what protecting the packet makes, and so no two
byte strings are accepted as the same packet. -/
theorem ifac_bijection {network_name passphrase : List UInt8} {tag_size : ℕ}
    (h : derive p network_name passphrase tag_size = some ifac) :
    (∀ raw capacity capacity', 3 ≤ raw.length → raw.length ≤ mtu → raw.getD 0 0 &&& 0x80 = 0 →
      raw.length + tag_size ≤ capacity → raw.length ≤ capacity' →
      ∃ out, protect p ifac raw capacity = some out ∧ unprotect p ifac out capacity' = some raw) ∧
    (∀ bytes raw capacity capacity', unprotect p ifac bytes capacity = some raw →
      raw.length + tag_size ≤ capacity' → protect p ifac raw capacity' = some bytes) ∧
    ∀ x y raw capacity capacity', unprotect p ifac x capacity = some raw →
      unprotect p ifac y capacity' = some raw → x = y := by
  obtain ⟨hvalid, rfl⟩ : valid ifac = true ∧ ifac.tag_size = tag_size := by
    unfold derive at h
    split at h
    · cases h
    rename_i hbad
    rw [not_or, not_not] at hbad
    dsimp only at h
    split at h
    · cases h
    cases h
    exact ⟨decide_eq_true ⟨hbad.1, rfl⟩, rfl⟩
  refine ⟨?_, ?_, ?_⟩
  · intro raw capacity capacity' hlong hmtu hclear hcapacity hcapacity'
    obtain ⟨a, b, c, rest, rfl⟩ : ∃ a b c rest, raw = a :: b :: c :: rest := by
      match raw, hlong with
      | a :: b :: c :: rest, _ => exact ⟨a, b, c, rest, rfl⟩
    refine ⟨_, protect_cons hvalid hmtu hcapacity, ?_⟩
    have hfirst : a &&& 0x80 = 0 := hclear
    have hmask := length_mask p ifac (tagOf p ifac (a :: b :: c :: rest)) (c :: rest).length
    have hmasked := length_masked hmask
    rw [unprotect_cons hvalid (length_tagOf hvalid _), hmasked, first_protected _ hfirst,
      UInt8.xor_assoc, UInt8.xor_self, UInt8.xor_zero, masked_masked hmask.symm, if_pos rfl]
    · exact first_marked _
    · exact ne_nil_of_length_pos (hmasked.symm ▸ Nat.succ_pos _)
    · rw [hmasked]
      exact hmtu
    · rw [hmasked]
      exact hcapacity'
  · intro bytes raw capacity capacity' hraw hcapacity'
    exact protect_unprotect hraw hcapacity'
  · intro x y raw capacity capacity' hx hy
    have hprotected := (protect_unprotect hx le_rfl).symm.trans (protect_unprotect hy le_rfl)
    exact Option.some.inj hprotected

/-- A provider that signs and masks with the bytes that it is given. -/
def plainProvider : IfacProvider where
  sha256 := ofList 32
  ed25519Verify := fun _ _ _ => true
  hkdf := fun input salt n => ofList n (input ++ salt)
  ed25519Sign := fun _ message => ofList 64 (List.replicate 60 0x5a ++ message)
  fromPrivate := fun _ => true

/-- A packet of three bytes under a tag of four. -/
theorem ifac_bijection_short : ∃ ifac out, derive plainProvider [0x6e] [] 4 = some ifac ∧
      protect plainProvider ifac [0x41, 0x02, 0x03] 7 = some out ∧
      unprotect plainProvider ifac out 3 = some [0x41, 0x02, 0x03] := by
  obtain ⟨ifac, hifac⟩ : ∃ ifac, derive plainProvider [0x6e] [] 4 = some ifac :=
    Option.isSome_iff_exists.mp (by decide)
  obtain ⟨out, hout, hback⟩ := (ifac_bijection hifac).1 [0x41, 0x02, 0x03] 7 3 (by decide)
    (by decide) (by decide) (by decide) (by decide)
  exact ⟨ifac, out, hifac, hout, hback⟩

end Ifac

end Reticulum
