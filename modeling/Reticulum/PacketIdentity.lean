import Reticulum.Packet

/-!
# What identifies a packet

Nodes re-encode a packet at every hop, with one address or two and with other transport bits. What
the copies share is the packet type, the destination type and the `body`: destination, context and
data. The packet hash and the link id of a request are functions of these (`hash_of_decode`,
`linkId_of_decode`), computed from the raw bytes by skipping whatever stands before the body.

`decode_eq_some` says what a packet that decodes looks like, and `decode_encode` and
`encode_of_decode` are the round trips of the codec.
-/

namespace Reticulum.Packet

open List Octets

/-! ## The flags byte -/

/-- The flags byte that `rns_packet_encode` writes. -/
def flags (packet : Packet) : UInt8 :=
  (packet.header_type <<< 6) ||| (packet.context_flag <<< 5) ||| (packet.transport_type <<< 4) |||
    (packet.destination_type <<< 2) ||| packet.packet_type

/-- The flags of a packet that its byte holds. -/
structure FlagsOf (packet : Packet) (byte : UInt8) : Prop where
  header_type : packet.header_type = (byte >>> 6) &&& 1
  context_flag : packet.context_flag = (byte >>> 5) &&& 1
  transport_type : packet.transport_type = (byte >>> 4) &&& 1
  destination_type : packet.destination_type = (byte >>> 2) &&& 3
  packet_type : packet.packet_type = byte &&& 3

/-- A byte whose number is below `n` is one of the first `n`. -/
theorem exists_fin_of_le {n : ℕ} {x : UInt8} (h : x.toNat < n) : ∃ k : Fin n, x = UInt8.ofNat k :=
  ⟨⟨x.toNat, h⟩, by simp⟩

variable {packet : Packet}

/-- Flags in their ranges are read back from the byte. -/
theorem flagsOf_flags
    (h : ¬ (packet.header_type > 1 ∨ packet.context_flag > 1 ∨ packet.transport_type > 1 ∨
      packet.destination_type > 3 ∨ packet.packet_type > 3)) : FlagsOf packet packet.flags := by
  have hall : ∀ (ht cf tt : Fin 2) (dt pt : Fin 4),
      let byte : UInt8 := (UInt8.ofNat ht <<< 6) ||| (UInt8.ofNat cf <<< 5) |||
        (UInt8.ofNat tt <<< 4) ||| (UInt8.ofNat dt <<< 2) ||| .ofNat pt
      .ofNat ht = (byte >>> 6) &&& 1 ∧ .ofNat cf = (byte >>> 5) &&& 1 ∧
        .ofNat tt = (byte >>> 4) &&& 1 ∧ .ofNat dt = (byte >>> 2) &&& 3 ∧
        .ofNat pt = byte &&& 3 := by decide +kernel
  simp only [not_or, UInt8.not_lt, UInt8.le_iff_toNat_le] at h
  obtain ⟨hht, hcf, htt, hdt, hpt⟩ := h
  obtain ⟨ht, hht⟩ := exists_fin_of_le (n := 2) (Nat.lt_succ_of_le hht)
  obtain ⟨cf, hcf⟩ := exists_fin_of_le (n := 2) (Nat.lt_succ_of_le hcf)
  obtain ⟨tt, htt⟩ := exists_fin_of_le (n := 2) (Nat.lt_succ_of_le htt)
  obtain ⟨dt, hdt⟩ := exists_fin_of_le (n := 4) (Nat.lt_succ_of_le hdt)
  obtain ⟨pt, hpt⟩ := exists_fin_of_le (n := 4) (Nat.lt_succ_of_le hpt)
  obtain ⟨h1, h2, h3, h4, h5⟩ := hall ht cf tt dt pt
  unfold flags
  constructor <;> rw [hht, hcf, htt, hdt, hpt] <;> assumption

/-- The low half of the flags byte holds the destination type and the packet type. -/
theorem FlagsOf.low {byte : UInt8} (h : FlagsOf packet byte) :
    byte &&& (0x0f : UInt8) = (packet.destination_type <<< 2) ||| packet.packet_type := by
  have hall : ∀ b : UInt8, b &&& (0x0f : UInt8) = (((b >>> 2) &&& 3) <<< 2) ||| (b &&& 3) := by
    decide +kernel
  rw [h.destination_type, h.packet_type]
  exact hall byte

/-! ## The codec -/

/-- What every copy of a packet carries behind its header. -/
def body (packet : Packet) : List UInt8 :=
  packet.destination_hash.bytes ++ packet.context :: packet.data

/-- The transport id on the wire: present with two addresses. -/
def address (packet : Packet) : List UInt8 :=
  if packet.header_type = 1 then packet.transport_id.bytes else []

@[simp]
theorem length_body (packet : Packet) : packet.body.length = 17 + packet.data.length := by
  simp only [body, length_append, length_eq, length_cons]
  omega

/-- An address, the byte behind it and the rest of a string. -/
theorem ofList_getD_drop {l : List UInt8} (h : 17 ≤ l.length) :
    l = (Octets.ofList 16 l).bytes ++ l.getD 16 0 :: l.drop 17 := by
  have hget : l.getD 16 0 = l[16] := by simp [List.getElem?_eq_getElem (show 16 < l.length by omega)]
  rw [bytes_ofList (by omega), hget, getElem_cons_drop, take_append_drop]

/-- What a packet that decodes looks like. -/
theorem decode_eq_some {raw : List UInt8} (h : decode raw = some packet) :
    ∃ byte, raw = byte :: packet.hops :: (packet.address ++ packet.body) ∧ FlagsOf packet byte ∧
      packet.data ≠ [] ∧ raw.length ≤ mtu := by
  unfold decode at h
  split_ifs at h with hlength
  obtain ⟨byte, hops, rest, rfl⟩ : ∃ byte hops rest, raw = byte :: hops :: rest := by
    match raw with
    | byte :: hops :: rest => exact ⟨byte, hops, rest, rfl⟩
    | [_] => simp at hlength
    | [] => simp at hlength
  simp only [getD_cons_zero, contextOffset] at h
  by_cases hbit : (byte >>> 6) &&& 1 = 1
  -- With two addresses the body is behind the transport id.
  · simp only [hbit, if_true] at h
    split_ifs at h with hsize
    obtain ⟨hdata, rfl⟩ : ¬ rest.length = 33 ∧ _ = packet := by simpa using h
    simp only [length_cons, not_or, not_le, not_lt] at hsize
    refine ⟨byte, ?_, ⟨hbit.symm, rfl, rfl, rfl, rfl⟩, ?_, by simpa using hsize.2⟩
    · have htail := ofList_getD_drop (l := rest.drop 16) (by simp; omega)
      have hsplit : rest = (Octets.ofList 16 rest).bytes ++ rest.drop 16 := by
        rw [bytes_ofList (by omega), take_append_drop]
      rw [htail] at hsplit
      simpa [address, body] using hsplit
    · simp only [ne_eq, drop_eq_nil_iff]
      omega
  · split_ifs at h with hsize
    obtain ⟨hdata, rfl⟩ : ¬ rest.length = 17 ∧ _ = packet := by simpa using h
    simp only [length_cons, not_or, not_le, not_lt] at hsize
    refine ⟨byte, ?_, ⟨rfl, rfl, rfl, rfl, rfl⟩, ?_, by simpa using hsize.2⟩
    · have htail := ofList_getD_drop (l := rest) (by omega)
      simpa [address, body, hbit] using htail
    · simp only [ne_eq, drop_eq_nil_iff]
      omega

/-- The packet as it decodes: the transport id is read only with two addresses. -/
def onWire (packet : Packet) : Packet :=
  { packet with
    transport_id := if packet.header_type = 1 then packet.transport_id else Octets.zero 16 }

/-- A packet of the layout decodes. -/
theorem decode_layout {byte : UInt8} (hflags : FlagsOf packet byte) (hdata : packet.data ≠ [])
    (hsize : (byte :: packet.hops :: (packet.address ++ packet.body)).length ≤ mtu) :
    decode (byte :: packet.hops :: (packet.address ++ packet.body)) = some packet.onWire := by
  have hpos : 0 < packet.data.length := length_pos_iff.2 hdata
  have hsixteen := packet.destination_hash.length_bytes
  have hdestination : .ofList 16 packet.body = packet.destination_hash := ofList_append _ _
  have hcontext : packet.body.getD 16 0 = packet.context := by simp [body]
  have hrest : packet.body.drop 17 = packet.data := by
    rw [body, Bytes.drop_append_right (by omega), hsixteen]
    rfl
  obtain ⟨hht, hcf, htt, hdt, hpt⟩ := hflags
  unfold decode contextOffset onWire address at *
  by_cases hbit : packet.header_type = 1
  · simp only [hbit, if_true, length_cons, length_append, length_eq, length_body] at hsize ⊢
    have hdrop : (packet.transport_id.bytes ++ packet.body).drop 16 = packet.body :=
      drop_left' packet.transport_id.length_bytes
    have hget : (packet.transport_id.bytes ++ packet.body).getD 32 0 = packet.context := by
      rw [getD_eq_getElem?_getD, List.getElem?_append_right (by simp), length_eq, ← hcontext]
      rfl
    have hdrop' : (packet.transport_id.bytes ++ packet.body).drop 33 = packet.data := by
      rw [Bytes.drop_append_right (by simp), length_eq, ← hrest]
    rw [if_neg (by omega)]
    simp only [getD_cons_zero, ← hht, hbit, if_true]
    rw [if_neg (by omega)]
    dsimp only
    rw [if_neg (by omega)]
    simp only [drop_succ_cons, drop_zero, ofList_append, hdrop, hdestination,
      hdrop', ← hcf, ← htt, ← hdt, ← hpt]
    rw [show (byte :: packet.hops :: (packet.transport_id.bytes ++ packet.body)).getD 34 0 =
      packet.context from hget]
    rfl
  · simp only [hbit, if_false, nil_append, length_cons, length_body] at hsize ⊢
    rw [if_neg (by omega)]
    simp only [getD_cons_zero, ← hht, hbit, if_false]
    rw [if_neg (by omega)]
    dsimp only
    rw [if_neg (by omega)]
    simp only [drop_succ_cons, drop_zero, hdestination, hrest, ← hcf, ← htt, ← hdt, ← hpt]
    rw [show (byte :: packet.hops :: packet.body).getD 18 0 = packet.context from hcontext]
    rfl

/-- What `rns_packet_encode` writes: the layout, within the MTU. -/
theorem encode_eq_some {capacity : ℕ} {bytes : List UInt8} (h : packet.encode capacity = some bytes) :
    FlagsOf packet packet.flags ∧
      bytes = packet.flags :: packet.hops :: (packet.address ++ packet.body) ∧
      bytes.length ≤ mtu := by
  unfold encode at h
  by_cases hranges : packet.header_type > 1 ∨ packet.context_flag > 1 ∨
      packet.transport_type > 1 ∨ packet.destination_type > 3 ∨ packet.packet_type > 3
  · rw [if_pos hranges] at h
    cases h
  refine ⟨flagsOf_flags hranges, ?_⟩
  by_cases hbit : packet.header_type = 1
  · simp only [hbit, if_true] at h
    split_ifs at h with hsize
    obtain rfl : packet.flags :: packet.hops :: (packet.address ++ packet.body) = bytes := by
      simpa [address, body, flags, hbit] using h
    refine ⟨rfl, ?_⟩
    simp only [address, hbit, if_true, length_cons, length_append, length_eq, length_body]
    omega
  · simp only [hbit, if_false] at h
    split_ifs at h with hsize
    obtain rfl : packet.flags :: packet.hops :: (packet.address ++ packet.body) = bytes := by
      simpa [address, body, flags, hbit] using h
    refine ⟨rfl, ?_⟩
    simp only [address, hbit, if_false, nil_append, length_cons, length_body]
    omega

/-- A packet that was encoded decodes to what was encoded. -/
theorem decode_encode {capacity : ℕ} {bytes : List UInt8} (h : packet.encode capacity = some bytes)
    (hdata : packet.data ≠ []) : decode bytes = some packet.onWire := by
  obtain ⟨hflags, rfl, hsize⟩ := encode_eq_some h
  exact decode_layout hflags hdata hsize

/-- Encoding gives back the bytes that decoded, but for the top bit of the first, which is not
read. -/
theorem encode_of_decode {raw : List UInt8} (h : decode raw = some packet) :
    packet.encode mtu = some (raw.modifyHead (· &&& 0x7f)) := by
  obtain ⟨byte, rfl, hflags, -, hsize⟩ := decode_eq_some h
  -- The flags of one byte are in their ranges and make it again.
  have hbyte : packet.flags = byte &&& 0x7f ∧
      ¬ (packet.header_type > 1 ∨ packet.context_flag > 1 ∨ packet.transport_type > 1 ∨
        packet.destination_type > 3 ∨ packet.packet_type > 3) := by
    rw [flags, hflags.header_type, hflags.context_flag, hflags.transport_type,
      hflags.destination_type, hflags.packet_type]
    clear h hflags hsize
    revert byte
    decide +kernel
  rw [encode, if_neg hbyte.2, modifyHead_cons, ← hbyte.1]
  split_ifs at hsize ⊢ with hheader
  all_goals simp_all [flags, address, body]
  all_goals omega

/-- A packet whose first byte has the top bit set. -/
theorem encode_of_decode_plain :
    encode ⟨0, 0, 0, 0, 0, 0, .zero 16, .zero 16, 0, [1]⟩ mtu =
      some (modifyHead (· &&& 0x7f) (0x80 :: replicate 18 0 ++ [1])) :=
  encode_of_decode (by decide +kernel)

/-! ## Hash and link id -/

/-- One packet under two headers: what the copies of a packet share. -/
structure Same (packet copy : Packet) : Prop where
  packet_type : copy.packet_type = packet.packet_type
  destination_type : copy.destination_type = packet.destination_type
  context_flag : copy.context_flag = packet.context_flag
  destination_hash : copy.destination_hash = packet.destination_hash
  context : copy.context = packet.context
  data : copy.data = packet.data

/-- The packet hash as a function of what the copies of a packet share. -/
def identityHash (crypto : Crypto) (packet : Packet) : Octets 32 :=
  crypto.sha256 (((packet.destination_type <<< 2) ||| packet.packet_type) :: packet.body)

/-- The link id of a request as a function of what the copies of the request share. -/
def identityLinkId (crypto : Crypto) (packet : Packet) : Option (Octets 16) :=
  if packet.packet_type ≠ 2 ∨ (packet.data.length ≠ 64 ∧ packet.data.length ≠ 67) then none
  else
    some (truncatedHash (crypto.sha256
      (((packet.destination_type <<< 2) ||| packet.packet_type) ::
        (packet.destination_hash.bytes ++ packet.context :: packet.data.take 64))))

/-- Behind the flags, the hops and the transport id comes the body. -/
theorem drop_layout (packet : Packet) (byte : UInt8) :
    (byte :: packet.hops :: (packet.address ++ packet.body)).drop
      (if packet.header_type = 1 then 18 else 2) = packet.body := by
  unfold address
  split_ifs
  · exact drop_left' packet.transport_id.length_bytes
  · rfl

/-- `rns_packet_hash` depends on what the copies share. -/
theorem hash_of_decode (crypto : Crypto) {raw : List UInt8} (h : decode raw = some packet) :
    hash crypto raw = some (packet.identityHash crypto) := by
  obtain ⟨byte, rfl, hflags, -, hsize⟩ := decode_eq_some h
  have hdrop := drop_layout packet byte
  have hlow := hflags.low
  unfold hash contextOffset
  simp only [length_cons, length_append, length_body] at hsize ⊢
  rw [if_neg (by omega)]
  simp only [getD_cons_zero, ← hflags.header_type, hlow, hdrop]
  by_cases hbit : packet.header_type = 1
  · have haddress : packet.address.length = 16 := by simp [address, hbit]
    rw [if_pos hbit, if_neg (by omega)]
    rfl
  · rw [if_neg hbit, if_neg (by omega)]
    rfl

/-- `rns_link_id_from_request_packet` depends on what the copies share. -/
theorem linkId_of_decode (crypto : Crypto) {raw : List UInt8} (h : decode raw = some packet) :
    linkIdFromRequestPacket crypto raw = packet.identityLinkId crypto := by
  unfold linkIdFromRequestPacket identityLinkId
  rw [h]
  obtain ⟨byte, rfl, hflags, -, -⟩ := decode_eq_some h
  -- Up to the end of the keys the raw bytes are the body cut off after them.
  have hkept : (byte :: packet.hops :: (packet.address ++ packet.body)).length -
      packet.data.length - (if packet.header_type = 1 then 18 else 2) + 64 = 81 := by
    simp only [length_cons, length_append, length_body, address]
    split_ifs <;> simp <;> omega
  have htake : packet.body.take 81 =
      packet.destination_hash.bytes ++ packet.context :: packet.data.take 64 := by
    simp [body, take_append]
  simp only [hkept, drop_layout, htake, getD_cons_zero, hflags.low]

/-- Two raw packets that are one packet under two headers. -/
def Converted (raw raw' : List UInt8) : Prop :=
  ∃ packet copy, decode raw = some packet ∧ decode raw' = some copy ∧ Same packet copy

section Same

variable {crypto : Crypto} {packet copy : Packet}

/-- A copy has the packet hash of the packet. -/
theorem Same.identityHash_eq (h : Same packet copy) :
    copy.identityHash crypto = packet.identityHash crypto := by
  simp only [identityHash, body, h.destination_type, h.packet_type, h.destination_hash, h.context,
    h.data]

/-- A copy of a request has its link id. -/
theorem Same.identityLinkId_eq (h : Same packet copy) :
    copy.identityLinkId crypto = packet.identityLinkId crypto := by
  simp only [identityLinkId, h.destination_type, h.packet_type, h.destination_hash, h.context,
    h.data]

end Same

end Reticulum.Packet
