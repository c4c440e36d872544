import Reticulum.Packet

/-!
# Who made an announce

`rns_announce_build` of `src/announce/announce.c`, beside the parser and the check of
`Reticulum.Packet`, and what an accepted announce says about the identity whose key it carries.

The signature covers the destination, the body before the signature and the application data, but
not the context flag, which says whether 32 bytes of it are a ratchet. An announce with a ratchet
and one without whose application data begin with it are signed alike, so one can be made of the
other: `Request.flip`. `authentic_iff` says that this is all: an accepted announce was made as it is
read exactly when the identity made the flipped one of each of its announces too.
-/

namespace Reticulum

open List Octets
open Bytes (beEncode beDecode)

/-- `RNS_ANNOUNCE_MAX_BODY_SIZE`. -/
def announceMaxBodySize : ℕ := 465

/-- `RNS_ANNOUNCE_MAX_TIMESTAMP`. -/
def announceMaxTimestamp : ℕ := 0xffffffffff

/-- `rns_identity_export_public`. -/
def Identity.exportPublic (identity : Identity) : Octets 64 :=
  ⟨identity.encryption_public.bytes ++ identity.signing_public.bytes, by simp⟩

/-- The bytes of a ratchet that may be absent. -/
def ratchetBytes (ratchet : Option (Octets 32)) : List UInt8 := ratchet.elim [] bytes

namespace Announce

/-! ## Bodies -/

/-- The body of an announce before the signature. -/
def head (a : Announce) : List UInt8 :=
  a.public_key.bytes ++ (a.name_hash.bytes ++ (a.random_blob.bytes ++ ratchetBytes a.ratchet))

/-- The body of an announce. -/
def body (a : Announce) : List UInt8 := a.head ++ (a.signature.bytes ++ a.app_data)

/-- The context flag that goes with a body. -/
def contextFlag (a : Announce) : UInt8 := if a.ratchet.isSome then 1 else 0

/-- What the signature covers behind the destination. -/
def content (a : Announce) : List UInt8 := a.head ++ a.app_data

/-- The signature comes behind the head. -/
theorem length_head (a : Announce) : a.head.length = signatureOffset a.contextFlag := by
  unfold head contextFlag signatureOffset ratchetBytes
  cases a.ratchet with
  | none => simp
  | some ratchet => simp

/-- A field of a body and what follows it. -/
theorem ofList_drop {n k : ℕ} {l : List UInt8} (h : k + n ≤ l.length) :
    (ofList n (l.drop k)).bytes ++ l.drop (k + n) = l.drop k := by
  rw [bytes_ofList (by rw [length_drop]; omega), ← drop_drop, take_append_drop]

/-- The timestamp is read from the second half of the random blob. -/
theorem timestamp_eq {l : List UInt8} (h : 84 ≤ l.length) :
    (l.drop 79).take 5 = (ofList 10 (l.drop 74)).bytes.drop 5 := by
  rw [bytes_ofList (by rw [length_drop]; omega), drop_take, drop_drop]

/-- What is parsed of a body gives the body back. -/
theorem body_of_parse {bytes : List UInt8} {context_flag : UInt8} {a : Announce}
    (h : parse bytes context_flag = some a) :
    bytes = a.body ∧ context_flag = a.contextFlag ∧
      a.timestamp = beDecode (a.random_blob.bytes.drop 5) := by
  unfold parse at h
  split at h
  · cases h
  rename_i hbad
  rw [not_or, not_or, not_or] at hbad
  obtain ⟨hflag, -, hplain, hratchet⟩ := hbad
  have hpublic := @ofList_drop 64 0 bytes
  have hname := @ofList_drop 10 64 bytes
  have hblob := @ofList_drop 10 74 bytes
  have hbit : ∀ b : UInt8, ¬ b > 1 → b = 0 ∨ b = 1 := by decide +kernel
  obtain rfl | rfl := hbit _ hflag
  · have hlen : 148 ≤ bytes.length := by simpa using hplain
    cases h
    refine ⟨?_, by simp [contextFlag], congrArg beDecode (timestamp_eq (by omega))⟩
    have hsignature := @ofList_drop 64 84 bytes
    simp only [body, head, ratchetBytes, signatureOffset, ne_eq, not_true_eq_false, if_false,
      Option.elim_none, append_nil, append_assoc]
    rw [hsignature (by omega), hblob (by omega), hname (by omega)]
    exact (hpublic (by omega)).symm
  · have hlen : 180 ≤ bytes.length := by simpa using hratchet
    cases h
    refine ⟨?_, by simp [contextFlag], congrArg beDecode (timestamp_eq (by omega))⟩
    have hkey := @ofList_drop 32 84 bytes
    have hsignature := @ofList_drop 64 116 bytes
    have hone : (1 : UInt8) ≠ 0 := by decide
    simp only [body, head, ratchetBytes, signatureOffset, if_pos hone, Option.elim_some,
      append_assoc]
    rw [hsignature (by omega), hkey (by omega), hblob (by omega), hname (by omega)]
    exact (hpublic (by omega)).symm

/-- The body of an announce is parsed to the announce. -/
theorem parse_body {a : Announce} (hmax : a.body.length ≤ announceMaxBodySize)
    (htime : a.timestamp = beDecode (a.random_blob.bytes.drop 5)) :
    parse a.body a.contextFlag = some a := by
  have hlength : a.body.length = signatureOffset a.contextFlag + 64 + a.app_data.length := by
    rw [body, length_append, length_append, length_head, length_eq]
    omega
  have hrange : ¬ (a.contextFlag > 1 ∨ a.body.length > 465 ∨
      (a.contextFlag = 0 ∧ a.body.length < 148) ∨ (a.contextFlag ≠ 0 ∧ a.body.length < 180)) := by
    rw [hlength] at hmax ⊢
    unfold announceMaxBodySize at hmax
    cases hratchet : a.ratchet with
    | none | some ratchet =>
      simp [contextFlag, hratchet, signatureOffset] at hmax ⊢
      omega
  unfold parse
  rw [if_neg hrange]
  obtain ⟨public_key, name_hash, random_blob, ratchet, signature, app_data, timestamp⟩ := a
  dsimp only at htime
  rw [htime]
  cases ratchet with
  | none | some ratchet =>
    simp only [body, head, ratchetBytes, contextFlag, signatureOffset, append_assoc]
    simp (disch := simp) [Bytes.drop_append_right, drop_append_of_le_length]

end Announce

/-! ## What an identity makes -/

/-- An `rns_identity` with its private part: `none` is an identity without `has_private`. -/
structure PrivateIdentity extends Identity where
  /-- `rns_identity_sign`. -/
  sign : Option (List UInt8 → Octets 64)

namespace Announce

/-- The arguments of `rns_announce_build`. -/
structure Request where
  destination_hash : Octets 16
  name_hash : Octets 10
  random_prefix : Octets 5
  timestamp : ℕ
  ratchet : Option (Octets 32)
  app_data : List UInt8
deriving DecidableEq

namespace Request

/-- The random blob of a request, its second half the timestamp. -/
def randomBlob (r : Request) : Octets 10 :=
  ⟨r.random_prefix.bytes ++ beEncode 5 r.timestamp, by simp⟩

/-- The announce that a request asks for, with a signature. -/
def announce (identity : Identity) (r : Request) (signature : Octets 64) : Announce where
  public_key := identity.exportPublic
  name_hash := r.name_hash
  random_blob := r.randomBlob
  ratchet := r.ratchet
  signature := signature
  app_data := r.app_data
  timestamp := r.timestamp

/-- The bytes that are signed for a request. -/
def signedData (identity : Identity) (r : Request) : List UInt8 :=
  r.destination_hash.bytes ++ (identity.exportPublic.bytes ++ r.name_hash.bytes ++
    r.random_prefix.bytes ++ beEncode 5 r.timestamp ++ ratchetBytes r.ratchet) ++ r.app_data

end Request

/-- `rns_announce_build` into a buffer of the capacity: the body and the context flag. -/
def build (identity : PrivateIdentity) (r : Request) (out_capacity : ℕ) :
    Option (List UInt8 × UInt8) :=
  match identity.sign with
  | none => none
  | some sign =>
    if r.timestamp > announceMaxTimestamp then none
    else
      let prefix_length := if r.ratchet.isSome then 116 else 84
      let body_length := prefix_length + 64 + r.app_data.length
      if body_length > announceMaxBodySize ∨ out_capacity < body_length then none
      else
        let out := identity.exportPublic.bytes ++ r.name_hash.bytes ++ r.random_prefix.bytes ++
          beEncode 5 r.timestamp ++ ratchetBytes r.ratchet
        let signed_data := r.destination_hash.bytes ++ out ++ r.app_data
        some (out ++ (sign signed_data).bytes ++ r.app_data, if r.ratchet.isSome then 1 else 0)

/-- What an honest identity made, in a world where a signature is accepted under its key only for
what it signed. It signs other messages too (proofs, link packets, messages of the application),
none of which has the shape of what an announce with its key signs. -/
structure History (crypto : Crypto) where
  /-- The identity. -/
  identity : PrivateIdentity
  /-- The hash of the identity is that of its public keys. -/
  hash_eq : identity.hash = truncatedHash (crypto.sha256 identity.exportPublic.bytes)
  /-- The announces that it made. -/
  made : Set Request
  /-- They were built, with signatures that are accepted. -/
  built : ∀ r ∈ made, ∃ capacity body flag, build identity r capacity = some (body, flag)
  /-- The signatures are accepted. -/
  signs : ∀ r ∈ made, ∀ sign, identity.sign = some sign →
    crypto.ed25519Verify identity.signing_public (r.signedData identity.toIdentity)
      (sign (r.signedData identity.toIdentity)) = true
  /-- Of the messages that an announce with its key would sign, no others are accepted. -/
  unforgeable : ∀ (destination_hash : Octets 16) (a : Announce),
    a.public_key = identity.exportPublic →
    crypto.ed25519Verify identity.signing_public (destination_hash.bytes ++ a.content)
      a.signature = true →
      ∃ r ∈ made, destination_hash.bytes ++ a.content = r.signedData identity.toIdentity

/-- The destination of a name under an identity, as `rns_announce_verify` derives it. -/
def destinationHash (crypto : Crypto) (identity : Identity) (name_hash : Octets 10) : Octets 16 :=
  truncatedHash (crypto.sha256 (name_hash.bytes ++ identity.hash.bytes))

/-- The fields that an announce was asked for with are those it is read with. -/
def Request.Matches (r : Request) (a : Announce) : Prop :=
  r.name_hash = a.name_hash ∧ r.randomBlob = a.random_blob ∧ r.timestamp = a.timestamp ∧
    r.ratchet = a.ratchet ∧ r.app_data = a.app_data

namespace History

variable {crypto : Crypto} (h : History crypto)

/-- Every announce that is accepted with the key of the identity was made by it, for the same
destination and with the fields that are read; and every announce it made is accepted and read with
the fields it was asked for with. -/
def Authentic : Prop :=
  (∀ destination_hash body flag a, verify crypto destination_hash body flag = true →
    parse body flag = some a → a.public_key = h.identity.exportPublic →
      ∃ r ∈ h.made, r.destination_hash = destination_hash ∧ r.Matches a) ∧
    ∀ r ∈ h.made, ∀ capacity body flag, build h.identity r capacity = some (body, flag) →
      verify crypto r.destination_hash body flag = true ∧
        ∃ a, parse body flag = some a ∧ a.public_key = h.identity.exportPublic ∧ r.Matches a

end History

/-- The request for the announce that the same bytes are signed for: the ratchet as the beginning of
the application data, or the other way. -/
def Request.flip (r : Request) : Request :=
  match r.ratchet with
  | some ratchet => { r with ratchet := none, app_data := ratchet.bytes ++ r.app_data }
  | none =>
    if 32 ≤ r.app_data.length then
      { r with ratchet := some (ofList 32 r.app_data), app_data := r.app_data.drop 32 }
    else r

/-! ## Signed bytes -/

variable (identity : Identity) (r : Request) (signature : Octets 64)

/-- What the signature of an announce covers is the request for it. -/
theorem Request.signedData_eq :
    r.signedData identity = r.destination_hash.bytes ++ (r.announce identity signature).content
    := by
  simp [Request.signedData, Request.announce, content, head, Request.randomBlob]

/-- What `rns_announce_build` gives. -/
theorem build_eq_some_iff {identity : PrivateIdentity} {r : Request} {capacity : ℕ}
    {bytes : List UInt8} {flag : UInt8} :
    build identity r capacity = some (bytes, flag) ↔ ∃ sign, identity.sign = some sign ∧
      r.timestamp ≤ announceMaxTimestamp ∧ bytes.length ≤ announceMaxBodySize ∧
      bytes.length ≤ capacity ∧
      bytes = (r.announce identity.toIdentity (sign (r.signedData identity.toIdentity))).body ∧
      flag = (r.announce identity.toIdentity (sign (r.signedData identity.toIdentity))).contextFlag
        := by
  have hlength (signature : Octets 64) : (r.announce identity.toIdentity signature).body.length =
      (if r.ratchet.isSome then 116 else 84) + 64 + r.app_data.length := by
    cases hratchet : r.ratchet <;>
      simp [body, head, Request.announce, hratchet, ratchetBytes] <;> omega
  unfold build
  cases hsign : identity.sign with
  | none => simp
  | some sign =>
    have hout : identity.exportPublic.bytes ++ r.name_hash.bytes ++ r.random_prefix.bytes ++
        beEncode 5 r.timestamp ++ ratchetBytes r.ratchet ++
        (sign (r.signedData identity.toIdentity)).bytes ++ r.app_data =
        (r.announce identity.toIdentity (sign (r.signedData identity.toIdentity))).body := by
      simp [body, head, Request.announce, Request.randomBlob]
    dsimp only
    rw [show r.destination_hash.bytes ++ (identity.exportPublic.bytes ++ r.name_hash.bytes ++
      r.random_prefix.bytes ++ beEncode 5 r.timestamp ++ ratchetBytes r.ratchet) ++ r.app_data =
      r.signedData identity.toIdentity from rfl, hout,
      show (if r.ratchet.isSome = true then (1 : UInt8) else 0) = (r.announce identity.toIdentity
        (sign (r.signedData identity.toIdentity))).contextFlag from rfl,
      ← hlength (sign (r.signedData identity.toIdentity))]
    split_ifs with htime hroom
    · simp [not_le.mpr htime]
    · refine iff_of_false not_false ?_
      rintro ⟨_, hsome, -, hmax, hcapacity, rfl, -⟩
      cases hsome
      omega
    · rw [not_or, not_lt, not_lt] at hroom
      rw [not_lt] at htime
      constructor
      · intro h
        cases h
        exact ⟨sign, rfl, htime, hroom.1, hroom.2, rfl, rfl⟩
      · rintro ⟨_, hsome, -, -, -, rfl, rfl⟩
        cases hsome
        rfl

/-- The check of an announce, in terms of what is parsed of it. -/
theorem verify_iff {crypto : Crypto} {destination_hash : Octets 16} {bytes : List UInt8}
    {flag : UInt8} {a : Announce} (h : parse bytes flag = some a) :
    verify crypto destination_hash bytes flag = true ↔
      destinationHash crypto (identityFromPublic crypto a.public_key) a.name_hash =
        destination_hash ∧
      crypto.ed25519Verify (identityFromPublic crypto a.public_key).signing_public
        (destination_hash.bytes ++ a.content) a.signature = true := by
  obtain ⟨hbody, hflag, -⟩ := body_of_parse h
  have htake : bytes.take (signatureOffset flag) = a.head := by
    rw [hbody, hflag, body]
    exact take_left' a.length_head
  unfold verify
  rw [h]
  dsimp only
  rw [htake, append_assoc, Bool.and_eq_true, decide_eq_true_iff]
  rfl

/-- Two ways to read the same bytes as a ratchet and application data: as they were asked for, or
flipped. -/
theorem Request.eq_or_flip {r : Request} {ratchet : Option (Octets 32)} {app_data : List UInt8}
    (h : ratchetBytes ratchet ++ app_data = ratchetBytes r.ratchet ++ r.app_data) :
    r.ratchet = ratchet ∧ r.app_data = app_data ∨
      r.flip.ratchet = ratchet ∧ r.flip.app_data = app_data := by
  cases ratchet with
  | none =>
    cases hratchet : r.ratchet with
    | none =>
      left
      exact ⟨rfl, by simpa [ratchetBytes, hratchet] using h.symm⟩
    | some key =>
      right
      simpa [Request.flip, hratchet, ratchetBytes] using h.symm
  | some ratchet =>
    cases hratchet : r.ratchet with
    | none =>
      right
      rw [hratchet] at h
      have happ : r.app_data = ratchet.bytes ++ app_data := by simpa [ratchetBytes] using h.symm
      simp [Request.flip, hratchet, happ]
    | some key =>
      left
      rw [hratchet] at h
      obtain ⟨hkey, happ⟩ := append_inj h (by simp [ratchetBytes])
      exact ⟨congrArg some (ext hkey.symm), happ.symm⟩

/-- Flipping a request changes nothing but the ratchet and the application data. -/
theorem Request.flip_fields :
    r.flip.destination_hash = r.destination_hash ∧ r.flip.name_hash = r.name_hash ∧
      r.flip.random_prefix = r.random_prefix ∧ r.flip.timestamp = r.timestamp := by
  unfold Request.flip
  split
  · exact ⟨rfl, rfl, rfl, rfl⟩
  · split_ifs
    all_goals exact ⟨rfl, rfl, rfl, rfl⟩

/-- The ratchet and the application data of a flipped request are the same bytes. -/
theorem Request.flip_bytes :
    ratchetBytes r.flip.ratchet ++ r.flip.app_data = ratchetBytes r.ratchet ++ r.app_data := by
  unfold Request.flip
  split
  · rename_i ratchet hratchet
    simp [ratchetBytes, hratchet]
  · rename_i hratchet
    split_ifs with hlength
    · simp [ratchetBytes, hratchet, bytes_ofList hlength]
    · rfl

/-- The bytes signed for a flipped request are the same. -/
theorem Request.signedData_flip : r.flip.signedData identity = r.signedData identity := by
  obtain ⟨hdestination, hname, hrandom, htime⟩ := r.flip_fields
  have hbytes := r.flip_bytes
  simp [Request.signedData, hdestination, hname, hrandom, htime, hbytes]

/-- A destination and the fields of an announce determine the request. -/
theorem Request.eq_of_matches {r r' : Request} {identity : Identity} {signature : Octets 64}
    (hdestination : r'.destination_hash = r.destination_hash)
    (h : r'.Matches (r.announce identity signature)) : r' = r := by
  obtain ⟨hname, hblob, htime, hratchet, happ⟩ := h
  have hbytes : r'.random_prefix.bytes ++ beEncode 5 r'.timestamp =
      r.random_prefix.bytes ++ beEncode 5 r.timestamp := congrArg bytes hblob
  have hrandom : r'.random_prefix = r.random_prefix := ext (append_inj hbytes (by simp)).1
  obtain ⟨_, _, _, _, _, _⟩ := r'
  simp_all [Request.announce]

/-- The timestamp of a request is read from its random blob. -/
theorem Request.timestamp_eq {r : Request} (h : r.timestamp ≤ announceMaxTimestamp) :
    r.timestamp = beDecode (r.randomBlob.bytes.drop 5) := by
  have hdrop : r.randomBlob.bytes.drop 5 = beEncode 5 r.timestamp := by
    exact drop_left' r.random_prefix.length_eq
  rw [hdrop, Bytes.beDecode_beEncode]
  unfold announceMaxTimestamp at h
  omega

/-- The bytes that are signed for an announce with the key of an identity say which request it
answers: the one that was signed, or the flipped one. -/
theorem Request.matches_or_flip {identity : Identity} {r : Request} {a : Announce}
    {destination_hash : Octets 16} (htime : a.timestamp = beDecode (a.random_blob.bytes.drop 5))
    (hmax : r.timestamp ≤ announceMaxTimestamp)
    (h : destination_hash.bytes ++ a.content = r.signedData identity) :
    r.destination_hash = destination_hash ∧ (r.Matches a ∨ r.flip.Matches a) := by
  rw [Request.signedData_eq identity r a.signature] at h
  simp only [content, head, Request.announce, append_assoc] at h
  obtain ⟨hdestination, h⟩ := append_inj h (by simp)
  obtain ⟨-, h⟩ := append_inj h (by simp)
  obtain ⟨hname, h⟩ := append_inj h (by simp)
  obtain ⟨hblob, h⟩ := append_inj h (by simp)
  have hblob : r.randomBlob = a.random_blob := ext hblob.symm
  have hstamp : r.timestamp = a.timestamp := by
    rw [htime, ← hblob]
    exact Request.timestamp_eq hmax
  have hname : r.name_hash = a.name_hash := ext hname.symm
  refine ⟨ext hdestination.symm, ?_⟩
  obtain hsame | hflip := Request.eq_or_flip h
  · exact .inl ⟨hname, hblob, hstamp, hsame⟩
  · obtain ⟨-, hname', hrandom', htime'⟩ := r.flip_fields
    have hblob' : r.flip.randomBlob = r.randomBlob := by
      simp only [Request.randomBlob, hrandom', htime']
    exact .inr ⟨hname'.trans hname, hblob'.trans hblob, htime'.trans hstamp, hflip⟩

/-! ## Authenticity -/

namespace History

variable {crypto : Crypto} {h : History crypto}

/-- The public keys of the identity give it back. -/
theorem identityFromPublic_eq (h : History crypto) :
    identityFromPublic crypto h.identity.exportPublic = h.identity.toIdentity := by
  have hhash := h.hash_eq
  simp only [identityFromPublic]
  rw [← hhash]
  simp [Identity.exportPublic]

/-- A request that was built: its timestamp, and the body of its announce. -/
theorem exists_sign {r : Request} (hr : r ∈ h.made) :
    ∃ sign, h.identity.sign = some sign ∧ r.timestamp ≤ announceMaxTimestamp ∧
      (r.announce h.identity.toIdentity
        (sign (r.signedData h.identity.toIdentity))).body.length ≤ announceMaxBodySize := by
  obtain ⟨capacity, bytes, flag, hbuild⟩ := h.built r hr
  obtain ⟨sign, hsign, htime, hmax, -, rfl, -⟩ := build_eq_some_iff.mp hbuild
  exact ⟨sign, hsign, htime, hmax⟩

/-- An announce with the fields of a request that has the signed bytes of one that was made is
accepted for the destination of the name. -/
theorem verify_announce {r r' : Request} (hr : r ∈ h.made)
    (hsigned : r'.signedData h.identity.toIdentity = r.signedData h.identity.toIdentity)
    {sign : List UInt8 → Octets 64} (hsign : h.identity.sign = some sign)
    {bytes : List UInt8} {flag : UInt8}
    (hparse : parse bytes flag = some (r'.announce h.identity.toIdentity
      (sign (r.signedData h.identity.toIdentity)))) :
    verify crypto r'.destination_hash bytes flag = true ↔
      r'.destination_hash = destinationHash crypto h.identity.toIdentity r'.name_hash := by
  rw [verify_iff hparse, ← Request.signedData_eq, hsigned]
  simp only [Request.announce]
  rw [h.identityFromPublic_eq, h.signs r hr sign hsign, and_iff_left rfl, eq_comm]

/-- An announce that was built for the destination of its name is accepted and read with the fields
it was asked for with, and one for another destination is not. -/
theorem accepted_of_build {r : Request} (hr : r ∈ h.made) {capacity : ℕ} {bytes : List UInt8}
    {flag : UInt8} (hbuild : build h.identity r capacity = some (bytes, flag)) :
    (verify crypto r.destination_hash bytes flag = true ↔
      r.destination_hash = destinationHash crypto h.identity.toIdentity r.name_hash) ∧
      ∃ a, parse bytes flag = some a ∧ a.public_key = h.identity.exportPublic ∧ r.Matches a := by
  obtain ⟨sign, hsign, htime, hmax, -, rfl, rfl⟩ := build_eq_some_iff.mp hbuild
  have hparse := parse_body hmax (Request.timestamp_eq htime)
  exact ⟨verify_announce hr rfl hsign hparse, _, hparse, rfl, ⟨rfl, rfl, rfl, rfl, rfl⟩⟩

/-- Where every accepted announce was made as it is read, the flipped announces were made too. -/
theorem flip_mem_of_authentic (hauthentic : h.Authentic) {r : Request} (hr : r ∈ h.made)
    (hdestination : r.destination_hash =
      destinationHash crypto h.identity.toIdentity r.name_hash) : r.flip ∈ h.made := by
  obtain ⟨sign, hsign, htime, hmax⟩ := exists_sign hr
  obtain ⟨hdestination', hname', -, htime'⟩ := r.flip_fields
  -- The flipped announce carries the signature of the one that was made.
  have hlength : (r.flip.announce h.identity.toIdentity
      (sign (r.signedData h.identity.toIdentity))).body.length =
        (r.announce h.identity.toIdentity (sign (r.signedData h.identity.toIdentity))).body.length := by
    have hbytes := congrArg List.length r.flip_bytes
    simp only [length_append] at hbytes
    simp only [Request.announce, body, head, length_append, length_eq]
    omega
  have hparse := parse_body (hlength.trans_le hmax) (Request.timestamp_eq (htime'.trans_le htime))
  have hverify := (verify_announce hr (Request.signedData_flip _ r) hsign hparse).mpr
    (by rw [hdestination', hname', hdestination])
  obtain ⟨r', hr', hdest', hmatches⟩ := hauthentic.1 _ _ _ _ hverify hparse rfl
  rwa [← Request.eq_of_matches hdest' hmatches]

/-- Announces are authentic exactly when the identity made each of them for the destination of its
name, and made the flipped one too. -/
theorem authentic_iff (h : History crypto) : h.Authentic ↔ ∀ r ∈ h.made,
      r.destination_hash = destinationHash crypto h.identity.toIdentity r.name_hash ∧
        r.flip ∈ h.made := by
  constructor
  · intro hauthentic r hr
    obtain ⟨capacity, bytes, flag, hbuild⟩ := h.built r hr
    have hverify := (hauthentic.2 r hr capacity bytes flag hbuild).1
    have hdestination := (accepted_of_build hr hbuild).1.mp hverify
    exact ⟨hdestination, flip_mem_of_authentic hauthentic hr hdestination⟩
  · intro hmade
    refine ⟨fun destination_hash bytes flag a hverify hparse hkey => ?_,
      fun r hr capacity bytes flag hbuild => ?_⟩
    · obtain ⟨-, -, htime⟩ := body_of_parse hparse
      obtain ⟨-, hsignature⟩ := (verify_iff hparse).mp hverify
      rw [hkey, h.identityFromPublic_eq] at hsignature
      obtain ⟨r, hr, hsigned⟩ := h.unforgeable _ _ hkey hsignature
      obtain ⟨_, _, hmax, _⟩ := exists_sign hr
      obtain ⟨hdestination, hsame | hflip⟩ := Request.matches_or_flip htime hmax hsigned
      · exact ⟨r, hr, hdestination, hsame⟩
      · exact ⟨r.flip, (hmade r hr).2, r.flip_fields.1.trans hdestination, hflip⟩
    · obtain ⟨hverify, hread⟩ := accepted_of_build hr hbuild
      exact ⟨hverify.mpr (hmade r hr).1, hread⟩

end History

/-- A digest that keeps the first 32 bytes, and a signature check that knows what was signed. -/
def loggedCrypto (signed : List (List UInt8)) : Crypto where
  sha256 := ofList 32
  ed25519Verify := fun _ message _ => decide (message ∈ signed)

/-- An identity of fixed keys. -/
def plainIdentity : PrivateIdentity where
  encryption_public := ofList 32 [1]
  signing_public := ofList 32 [2]
  hash := ofList 16 [1]
  sign := some fun _ => zero 64

/-- An announce for the destination of a fixed name. -/
def plainRequest (ratchet : Option (Octets 32)) (app_data : List UInt8) : Request where
  destination_hash := ofList 16 [3, 0, 0, 0, 0, 0, 0, 0, 0, 0, 1]
  name_hash := ofList 10 [3]
  random_prefix := ofList 5 [4]
  timestamp := 5
  ratchet := ratchet
  app_data := app_data

/-- The history of an identity that made one announce and signed the proof of a packet. -/
def plainHistory (ratchet : Option (Octets 32)) (app_data : List UInt8)
    (hbuilt : (build plainIdentity (plainRequest ratchet app_data) 500).isSome = true) :
    History (loggedCrypto [(plainRequest ratchet app_data).signedData plainIdentity.toIdentity,
      replicate 32 0]) where
  identity := plainIdentity
  hash_eq := by
    show plainIdentity.hash = truncatedHash (ofList 32 plainIdentity.exportPublic.bytes)
    decide +kernel
  made := {plainRequest ratchet app_data}
  built := by
    rintro r rfl
    obtain ⟨⟨body, flag⟩, hbuild⟩ := Option.isSome_iff_exists.mp hbuilt
    exact ⟨500, body, flag, hbuild⟩
  signs := by
    rintro r rfl sign -
    simp [loggedCrypto]
  unforgeable := by
    intro destination_hash a _ h
    rcases mem_pair.mp (of_decide_eq_true h) with hsigned | hproof
    · exact ⟨_, rfl, hsigned⟩
    · -- A packet hash is shorter than what an announce signs.
      have hlength := congrArg length hproof
      rw [content, length_append, length_append, length_head, length_eq] at hlength
      unfold signatureOffset at hlength
      split at hlength <;> simp at hlength <;> omega

/-- The identity made one announce, with a ratchet: the announce without a ratchet whose application
data are that ratchet is accepted under its key. -/
theorem stripped_ratchet_accepted :
    ¬ (plainHistory (some (ofList 32 [6])) [] (by decide +kernel)).Authentic := by
  intro h
  obtain ⟨r, rfl, -, -, -, -, hratchet, -⟩ := h.1
    (plainRequest none (ofList 32 [6]).bytes).destination_hash
    ((plainRequest none (ofList 32 [6]).bytes).announce plainIdentity.toIdentity
      (zero 64)).body 0
    ((plainRequest none (ofList 32 [6]).bytes).announce plainIdentity.toIdentity
      (zero 64)) (by decide +kernel) (by decide +kernel) rfl
  cases hratchet

/-- The identity made one announce, without a ratchet and with few application data: it is
authentic. -/
theorem few_data_authentic : (plainHistory none [7] (by decide +kernel)).Authentic := by
  refine (History.authentic_iff _).mpr ?_
  rintro r rfl
  exact ⟨by decide +kernel, by simp [plainHistory, Request.flip, plainRequest]⟩

end Announce

end Reticulum
