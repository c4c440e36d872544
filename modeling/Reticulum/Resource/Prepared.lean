import Reticulum.Link.Handshake
import Reticulum.Resource.Sender

/-!
# Prepared senders

What a sender is once a segment is prepared. `Prepared` says it in one place: the hash and the wire
are those of the segment, the map has the hash of every part in order and none of them twice. Every
sender that `create` or `advanceSegment` returns is prepared (`Produced.prepared`), and the receiver
parses the advertisement of a prepared sender as what it announces (`Prepared.advertisementParse`).
-/

namespace Reticulum.ResourceSender

open Resource List Octets Option

/-- What a segment is prepared from: the fields that the preparation leaves alone. -/
structure Fresh (sender : ResourceSender) : Prop where
  source_le : sender.source.length ≤ maxSize
  segments : sender.total_segments =
    (sender.source.length + singleSegmentMaxSize - 1) / singleSegmentMaxSize
  segment_pos : 1 ≤ sender.segment_index
  segment_le : sender.segment_index ≤ sender.total_segments

/-- The sender has a segment ready to send over a link with the key. -/
structure Prepared (p : Primitives) (bzip2 : Option Bzip2) (key : Octets 64)
    (sender : ResourceSender) : Prop extends Fresh sender where
  hash_eq : sender.hash = p.sha256 (sender.segment ++ sender.random_hash.bytes)
  original_eq : sender.segment_index = 1 → sender.original_hash = sender.hash
  /-- The wire is a token of the salt and the segment, compressed as the flags say. -/
  wire_eq : ∃ compressed iv,
    compressedSegment bzip2 sender.auto_compress sender.segment = .ok compressed ∧
      sender.flags = segmentFlags compressed.isSome (decide (sender.total_segments > 1))
        sender.is_response ∧
      sender.wire = p.tokenSeal key iv
        (sender.random_hash.bytes ++ compressed.getD sender.segment)
  parts_eq : sender.parts = partCount sender.wire.length
  parts_pos : 0 < sender.parts
  parts_le : sender.parts ≤ maxParts
  map_eq : sender.map_hashes = (List.range sender.parts).map
    (fun i => mapHash p.toCrypto (partOf sender.wire i) sender.random_hash)
  nodup : sender.map_hashes.Nodup

/-! ## Preparation -/

/-- The loop over the parts gives the map hash of each, and none of them twice. -/
theorem mapHashesFrom_eq_some {crypto : Crypto} {wire : List UInt8} {random_hash : Octets 4}
    {count i : ℕ} {hashes result : List (Octets 4)} (hnodup : hashes.Nodup)
    (h : mapHashesFrom crypto wire random_hash count i hashes = some result) :
    result.Nodup ∧ result = hashes ++ (List.range' i count).map
      (fun i => mapHash crypto (partOf wire i) random_hash) := by
  induction count generalizing i hashes with
  | zero =>
    cases h
    simpa using hnodup
  | succ count ih =>
    rw [mapHashesFrom] at h
    split_ifs at h with hmem
    have hnodup' : (hashes ++ [mapHash crypto (partOf wire i) random_hash]).Nodup := by
      rw [← concat_eq_append]
      exact hnodup.concat hmem
    obtain ⟨hresult, heq⟩ := ih hnodup' h
    refine ⟨hresult, heq.trans ?_⟩
    rw [append_assoc, range'_succ, map_cons, singleton_append]

section

variable {p : Primitives} {bzip2 : Option Bzip2} {sender prepared : ResourceSender}
    (hfresh : sender.Fresh) {link : Link}
include hfresh

/-- An attempt that succeeds prepares the segment. -/
theorem Fresh.attempt {draw : Draw}
    (h : prepareSegmentAttempt p bzip2 sender link draw = .ok (some prepared)) :
    Prepared p bzip2 link.derived_key prepared := by
  unfold prepareSegmentAttempt at h
  split at h
  · cases h
  dsimp only at h
  split at h
  · cases h
  rename_i compressed hcompressed
  split at h
  · cases h
  rename_i wire hwire
  split at h
  · cases h
  rename_i hparts
  split at h
  · cases h
  rename_i map_hashes hmap
  obtain ⟨iv, -, hencrypt⟩ := bind_eq_some_iff.1 hwire
  obtain ⟨hnodup, hhashes⟩ := mapHashesFrom_eq_some nodup_nil hmap
  obtain rfl := some.inj (Except.ok.inj h)
  rw [not_or] at hparts
  refine
    { hfresh with
      hash_eq := rfl
      original_eq := fun hfirst => if_pos hfirst
      wire_eq := ⟨compressed, iv, hcompressed, rfl, ?_⟩
      parts_eq := rfl
      parts_pos := Nat.pos_of_ne_zero hparts.1
      parts_le := not_lt.1 hparts.2
      map_eq := ?_
      nodup := hnodup }
  · unfold Link.encrypt tokenEncrypt at hencrypt
    dsimp only at hencrypt
    split_ifs at hencrypt
    exact (some.inj hencrypt).symm
  · rw [range_eq_range']
    simpa using hhashes

/-- The attempts end in a prepared segment where they succeed. -/
theorem Fresh.prepareSegmentFrom {draws : ℕ → Draw} {count attempt : ℕ}
    (h : prepareSegmentFrom p bzip2 sender link draws count attempt = .ok prepared) :
    Prepared p bzip2 link.derived_key prepared := by
  induction count generalizing attempt with
  | zero => cases h
  | succ count ih =>
    rw [ResourceSender.prepareSegmentFrom] at h
    split at h
    · cases h
    · rename_i prepared' hattempt
      cases h
      exact hfresh.attempt hattempt
    · exact ih h

end

/-- A sender that `create` returned, or a later `advanceSegment`, over links with the key. -/
inductive Produced (p : Primitives) (bzip2 : Option Bzip2) (key : Octets 64) :
    ResourceSender → Prop
  | create {link : Link} {source : List UInt8} {options : Options} {draws : ℕ → Draw}
      {sender : ResourceSender} (hkey : link.derived_key = key)
      (h : create p bzip2 link source options draws = .ok sender) : Produced p bzip2 key sender
  | advance {link : Link} {draws : ℕ → Draw} {sender next : ResourceSender}
      (hsender : Produced p bzip2 key sender) (hkey : link.derived_key = key)
      (h : advanceSegment p bzip2 sender link draws = .ok next) : Produced p bzip2 key next

/-- Every sender that the calls return is prepared. -/
theorem Produced.prepared {p : Primitives} {bzip2 : Option Bzip2} {key : Octets 64}
    {sender : ResourceSender} (h : Produced p bzip2 key sender) : Prepared p bzip2 key sender := by
  induction h with
  | create hkey h =>
    unfold ResourceSender.create at h
    dsimp only at h
    split at h
    · cases h
    rename_i harguments
    split at h
    · cases h
    split at h
    · cases h
    · simp only [not_or, not_lt] at harguments
      rw [← hkey]
      refine Fresh.prepareSegmentFrom ?_ h
      refine ⟨harguments.2.2, rfl, le_rfl, (Nat.le_div_iff_mul_le (by decide)).mpr ?_⟩
      dsimp only
      omega
  | advance _ hkey h ih =>
    unfold advanceSegment at h
    split_ifs at h with hactive hlast
    rw [← hkey]
    refine Fresh.prepareSegmentFrom ?_ h
    exact ⟨ih.source_le, ih.segments, Nat.le_succ_of_le ih.segment_pos, not_le.1 hlast⟩

/-! ## Sizes -/

namespace Prepared

variable {p : Primitives} {bzip2 : Option Bzip2} {key : Octets 64} {sender : ResourceSender}

section

variable (h : Prepared p bzip2 key sender)
include h

/-- The map has as many hashes as there are parts. -/
theorem length_map : sender.map_hashes.length = sender.parts := by
  rw [h.map_eq, List.length_map, List.length_range]

/-- The map hash of a part is the hash of its bytes. -/
theorem map_get {i : ℕ} (hi : i < sender.parts) : sender.map_hashes[i]? =
      some (mapHash p.toCrypto (partOf sender.wire i) sender.random_hash) := by
  rw [h.map_eq, List.getElem?_map, List.getElem?_range hi, map_some]

/-- The wire is a token: a multiple of 16 bytes, 64 at least. -/
theorem length_wire (hp : p.TokenSound) :
    64 ≤ sender.wire.length ∧ sender.wire.length % 16 = 0 := by
  obtain ⟨compressed, iv, -, -, hwire⟩ := h.wire_eq
  rw [hwire, hp.length_seal]
  omega

/-- The parts are as many as the wire needs. -/
theorem parts_bounds (hp : p.TokenSound) : sender.wire.length ≤ sender.parts * partMax ∧
      (sender.parts - 1) * partMax < sender.wire.length ∧ sender.parts ≤ sender.wire.length := by
  have hwire := (h.length_wire hp).1
  have hparts : sender.parts = (sender.wire.length + 464 - 1) / 464 := h.parts_eq
  have hmax : partMax = 464 := rfl
  rw [hmax]
  omega

end

/-- A segment is not longer than the payload, nor than a segment may be. -/
theorem length_segment (sender : ResourceSender) : sender.segment.length ≤ sender.source.length ∧
      sender.segment.length ≤ singleSegmentMaxSize := by
  unfold segment segmentOf
  rw [length_take, length_drop]
  omega

/-- Every part has bytes, and not more than a part may have. -/
theorem length_partOf (h : Prepared p bzip2 key sender) (hp : p.TokenSound) {i : ℕ}
    (hi : i < sender.parts) :
    0 < (partOf sender.wire i).length ∧ (partOf sender.wire i).length ≤ partMax := by
  obtain ⟨-, hlast, -⟩ := h.parts_bounds hp
  have hmul : i * partMax ≤ (sender.parts - 1) * partMax := Nat.mul_le_mul_right _ (by omega)
  have hmax : partMax = 464 := rfl
  unfold partOf Bytes.slice
  rw [length_take, length_drop]
  omega

end Prepared

/-! ## The advertisement -/

/-- The advertisement that the sender announces its segment with. -/
def announced (sender : ResourceSender) : Advertisement :=
  { transfer_size := sender.wire.length
    data_size := sender.source.length
    parts := sender.parts
    hash := sender.hash
    random_hash := sender.random_hash
    original_hash := sender.original_hash
    segment_index := sender.segment_index
    total_segments := sender.total_segments
    request_id := sender.request_id
    flags := sender.flags
    hashmap := writeMany sender.firstPage }

namespace Prepared

variable {p : Primitives} {bzip2 : Option Bzip2} {key : Octets 64} {sender : ResourceSender}

/-- The first page has every hash, or as many as a page can have. -/
theorem length_firstPage (h : Prepared p bzip2 key sender) :
    sender.firstPage.length = min sender.parts hashmapMaxEntries := by
  unfold firstPage
  rw [length_take, h.length_map]
  split_ifs <;> omega

/-- The flags of a segment say that it is encrypted, and whether it is compressed and one of
several. -/
theorem flags (compressed split is_response : Bool) :
    segmentFlags compressed split is_response &&& 0x01 ≠ 0 ∧
      (decide (segmentFlags compressed split is_response &&& 0x02 ≠ 0) = compressed) ∧
      (decide (segmentFlags compressed split is_response &&& 0x04 ≠ 0) = split) := by
  cases compressed <;> cases split <;> cases is_response <;> decide

/-- What a prepared sender announces is valid. -/
theorem validateAdvertisement (h : Prepared p bzip2 key sender) (hp : p.TokenSound) :
    validateAdvertisement sender.announced = .ok := by
  obtain ⟨hwire, haligned⟩ := h.length_wire hp
  obtain ⟨hcover, -, hparts⟩ := h.parts_bounds hp
  obtain ⟨compressed, iv, -, hflags, -⟩ := h.wire_eq
  obtain ⟨hencrypted, -, hsplit⟩ :=
    flags compressed.isSome (decide (sender.total_segments > 1)) sender.is_response
  have hpos := h.parts_pos
  have hle := h.parts_le
  have hmap : (writeMany sender.firstPage).length =
      (if sender.parts < hashmapMaxEntries then sender.parts else hashmapMaxEntries) * 4 := by
    rw [length_writeMany, h.length_firstPage]
    split_ifs <;> omega
  have henc : sender.announced.encrypted = true := by
    show decide (sender.flags &&& 0x01 ≠ 0) = true
    rw [hflags]
    exact decide_eq_true hencrypted
  unfold Resource.validateAdvertisement
  rw [if_neg, if_neg, if_neg, if_neg, if_neg, if_neg]
  · rintro ⟨hfirst, hne⟩
    exact hne (h.original_eq hfirst).symm
  · show ¬ decide (sender.flags &&& 0x04 ≠ 0) ≠ decide (sender.total_segments > 1)
    rw [hflags, not_not]
    exact hsplit
  · simp [henc]
  · show ¬ (_ ∧ (sender.wire.length < 64 ∨ sender.wire.length % 16 ≠ 0))
    omega
  · show ¬ (sender.wire.length > sender.parts * partMax ∨ sender.parts > sender.wire.length)
    omega
  · have hsource := h.source_le
    have hindex := h.segment_pos
    have htotal := h.segment_le
    show ¬ (sender.parts = 0 ∨ sender.parts > maxParts ∨ sender.wire.length = 0 ∨
      sender.source.length > maxSize ∨ sender.segment_index = 0 ∨
      sender.segment_index > sender.total_segments ∨
      (writeMany sender.firstPage).length % 4 ≠ 0 ∨
      (writeMany sender.firstPage).length ≠
        (if sender.parts < hashmapMaxEntries then sender.parts else hashmapMaxEntries) * 4)
    omega

end Prepared

section Parse

/-- A letter is read as the key that it is. -/
@[simp]
theorem Field.ofKey_key (field : Field) : Field.ofKey field.key = some field := by
  cases field <;> decide

/-- The step of the parser over a key that it has not seen. -/
theorem readFields_succ {field : Field} {count : ℕ} {parsed parsed' : Advertisement}
    {seen : List Field} {value rest : List UInt8} (hseen : field ∉ seen)
    (hvalue : parsed.readField field (value ++ rest) = some (parsed', rest)) :
    Advertisement.readFields (count + 1) parsed seen (mpPutKey field.key ++ (value ++ rest)) =
      Advertisement.readFields count parsed' (field :: seen) rest := by
  simp [Advertisement.readFields, if_neg hseen, hvalue]

/-- The request id is read back, or that there is none. -/
theorem readField_q {parsed : Advertisement} (hnone : parsed.request_id = none)
    (request_id : Option (Octets 16)) (rest : List UInt8) :
    parsed.readField .q (requestIdBytes request_id ++ rest) =
      some ({ parsed with request_id }, rest) := by
  cases request_id with
  | none =>
    show some (parsed, rest) = _
    rw [← hnone]
  | some request_id =>
    have hhead : (mpPutBin request_id.bytes ++ rest).head? = some 0xc4 := by
      simp [mpPutBin]
    simp [requestIdBytes, Advertisement.readField, hhead, mpOctets_mpPutBin]

end Parse

namespace Prepared

variable {p : Primitives} {bzip2 : Option Bzip2} {key : Octets 64} {sender : ResourceSender}

variable (h : Prepared p bzip2 key sender)
include h

/-- The receiver parses the advertisement of a prepared sender as what it announces. -/
theorem advertisementParse (hp : p.TokenSound) :
    advertisementParse sender.advertisementBytes = .ok sender.announced := by
  -- The sizes are far below what an integer of eight bytes can be.
  have hsizes : sender.wire.length < 2 ^ 64 ∧ sender.source.length < 2 ^ 64 ∧
      sender.parts < 2 ^ 64 ∧ sender.segment_index < 2 ^ 64 ∧ sender.total_segments < 2 ^ 64 := by
    obtain ⟨hcover, -, -⟩ := h.parts_bounds hp
    have hparts : sender.parts ≤ 18000 := h.parts_le
    have hsource : sender.source.length ≤ 8 * 1024 * 1024 := h.source_le
    have hindex := h.segment_le
    have hsegments : sender.total_segments = (sender.source.length + 1048575 - 1) / 1048575 :=
      h.segments
    rw [show partMax = 464 from rfl] at hcover
    omega
  obtain ⟨hwire, hsource, hparts, hindex, htotal⟩ := hsizes
  have hpage : (writeMany sender.firstPage).length < 2 ^ 32 := by
    have hentries : hashmapMaxEntries = 74 := rfl
    rw [length_writeMany, h.length_firstPage]
    omega
  have hflag : sender.flags.toNat < 256 := sender.flags.toNat_lt
  have hread : Advertisement.readFields 11 .empty []
      (sender.advertisementBytes.drop 1) = some (sender.announced, Field.all.reverse, []) := by
    simp only [advertisementBytes, drop_succ_cons, drop_zero, append_assoc]
    -- One key after the other, each with the value that was written behind it.
    refine (readFields_succ (by decide)
      (by rw [Advertisement.readField, mpUint_mpPutUint hwire]; rfl)).trans ?_
    refine (readFields_succ (by decide)
      (by rw [Advertisement.readField, mpUint_mpPutUint hsource]; rfl)).trans ?_
    refine (readFields_succ (by decide)
      (by rw [Advertisement.readField, mpUint_mpPutUint hparts]; rfl)).trans ?_
    iterate 3
      refine (readFields_succ (by decide)
        (by rw [Advertisement.readField, mpOctets_mpPutBin (by decide)]; rfl)).trans ?_
    dsimp only
    refine (readFields_succ (by decide)
      (by rw [Advertisement.readField, mpUint_mpPutUint hindex]; rfl)).trans ?_
    refine (readFields_succ (by decide)
      (by rw [Advertisement.readField, mpUint_mpPutUint htotal]; rfl)).trans ?_
    refine (readFields_succ (by decide) (readField_q rfl sender.request_id _)).trans ?_
    refine (readFields_succ (by decide) (by
      rw [Advertisement.readField, mpUint_mpPutUint (by omega)]
      exact if_neg (by omega))).trans ?_
    rw [← append_nil (mpPutBin _)]
    refine (readFields_succ (by decide)
      (by rw [Advertisement.readField, mpBin_mpPutBin hpage]; rfl)).trans ?_
    rw [UInt8.ofNat_toNat]
    rfl
  have hseen : ¬ (¬ Field.all ⊆ Field.all.reverse ∨ ([] : List UInt8) ≠ []) := by decide
  have hvalid : ¬ Resource.validateAdvertisement sender.announced ≠ .ok :=
    not_not.2 (h.validateAdvertisement hp)
  have hbytes : sender.advertisementBytes = 0x8b :: sender.advertisementBytes.drop 1 := rfl
  unfold Resource.advertisementParse
  rw [hbytes, if_neg (by simp), mpByte_cons]
  dsimp only
  rw [if_neg (by decide), hread]
  dsimp only
  rw [if_neg hseen, if_neg hvalid]

/-- An advertisement takes the bytes that it was measured to need. -/
theorem length_advertisementBytes :
    sender.advertisementBytes.length = sender.advertisementSize := by
  have hid : (requestIdBytes sender.request_id).length =
      if sender.request_id.isSome then mpBinHeaderSize 16 + 16 else 1 := by
    cases sender.request_id <;> simp [requestIdBytes]
  have hpage : sender.firstPage.length =
      if sender.parts < hashmapMaxEntries then sender.parts else hashmapMaxEntries := by
    rw [h.length_firstPage]
    split_ifs <;> omega
  simp only [advertisementBytes, advertisementSize, length_cons, length_append, hid,
    length_mpPutKey, length_mpPutUint, length_mpPutBin, length_eq, length_writeMany, hpage]
  omega

end Prepared

end Reticulum.ResourceSender
