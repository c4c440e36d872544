import Reticulum.Transport.Paths
import Reticulum.Transport.PathStore

/-!
# What a snapshot of the path table gives back

A snapshot of a path table that a run has reached is read back exactly when every live entry is
`Storable`: its timebase is the newest of its blobs, and it has at most a path lifetime left in
whole milliseconds. `path_store_round_trip_iff` says so for every run, and for every wall time after
the one of the snapshot; what is read back are the live entries whose remaining lifetime exceeds the
time offline, shortened by it.

Two things make an entry that is not storable. An announce of an older timebase replaces an
unresponsive path and keeps its newer blobs, and the decoder then refuses the whole snapshot
(`snapshot_refused`). And a clock that goes back before the last update of an entry leaves it more
than a lifetime. Runs without the two keep all entries storable (`pathStep_fresh`).
-/

namespace Reticulum.Transport

open List Slots Octets Bytes

/-! ## Fields -/

/-- A record has the size that is written before it. -/
theorem length_recordBytes (e : PathEntry) (remaining_ms age_ms : ℕ) :
    (recordBytes e remaining_ms age_ms).length = recordSize e := by
  have hkey (key : Option (Octets 64)) :
      (key.elim [] Octets.bytes).length = if key.isSome then pathStoreIdentitySize else 0 := by
    cases key <;> simp [pathStoreIdentitySize]
  simp only [recordBytes, recordSize, length_append, length_eq, length_beEncode,
    length_writeMany, hkey, pathStoreRecordBaseSize]
  omega

/-- What an entry must be for its record to hold it: a history that fits its count, a timebase of
64 bits. -/
structure PathEntry.Fits (e : PathEntry) : Prop where
  pos : 0 < e.random_blobs.length
  le : e.random_blobs.length ≤ maxRandomBlobs
  timebase : e.announce_timebase < 2^64

variable {e : PathEntry} {now : ℚ} {entries : List PathEntry} {t : State} {config : Config}

/-- The numbers of a record are those of the entry. -/
theorem recordBytes_numbers (h : e.Fits) {remaining_ms age_ms : ℕ} (hrem : remaining_ms < 2^64)
    (hage : age_ms < 2^64) : let record := recordBytes e remaining_ms age_ms
    number record 64 8 = e.announce_timebase ∧
      number record 72 8 = e.interface_id.toNat ∧
      number record 80 4 = e.interface_gravity.toUInt32.toNat ∧
      number record 84 8 = remaining_ms ∧ number record 92 8 = age_ms ∧
      byteAt record 100 = e.hops.toNat ∧
      byteAt record 101 = (if e.unresponsive then 1 else 0) ∧
      byteAt record 102 = e.random_blobs.length ∧
      byteAt record 103 = (if e.identity_public_key.isSome then 1 else 0) := by
  have htime := h.timebase
  have hid := e.interface_id.toNat_lt
  have hgravity := e.interface_gravity.toUInt32.toNat_lt
  have hhops := e.hops.toNat_lt
  have hcount : e.random_blobs.length ≤ 16 := h.le
  simp only [recordBytes, byteAt]
  simp (disch := simp) only [number_append_right, length_eq, length_beEncode, Nat.reduceSub]
  refine ⟨?_, ?_, ?_, ?_, ?_, ?_, ?_, ?_, ?_⟩
  all_goals
    refine number_beEncode ?_ _
    first | omega | (split <;> omega)

/-- The byte strings of a record are those of the entry. -/
theorem recordBytes_strings (e : PathEntry) (remaining_ms age_ms : ℕ) :
    let record := recordBytes e remaining_ms age_ms
    ofList 16 record = e.destination_hash ∧
      ofList 16 (record.drop 16) = e.next_hop ∧
      ofList 32 (record.drop 32) = e.announce_packet_hash ∧
      readMany 10 e.random_blobs.length (record.drop pathStoreRecordBaseSize) =
        e.random_blobs ∧
      record.drop (pathStoreRecordBaseSize + e.random_blobs.length * 10) =
        e.identity_public_key.elim [] Octets.bytes := by
  have hbase : (recordBytes e remaining_ms age_ms).drop pathStoreRecordBaseSize =
      writeMany e.random_blobs ++ e.identity_public_key.elim [] Octets.bytes := by
    simp only [recordBytes, pathStoreRecordBaseSize]
    simp (disch := simp) [drop_append_right]
  refine ⟨by simp [recordBytes], ?_, ?_, ?_, ?_⟩
  iterate 2
    · simp only [recordBytes]
      simp (disch := simp) [drop_append_right]
  · rw [hbase, readMany_writeMany]
  · rw [← drop_drop, hbase]
    exact drop_left' (length_writeMany _)

/-! ## What should be read back -/

/-- The remaining lifetime of an entry, in whole milliseconds. -/
def PathEntry.remainingMs (now : ℚ) (e : PathEntry) : ℕ := ((e.expires_at - now) * 1000).floor.toNat

/-- The age of an entry, in whole milliseconds. -/
def PathEntry.ageMs (now : ℚ) (e : PathEntry) : ℕ :=
  ((if now > e.updated_at then now - e.updated_at else 0) * 1000).floor.toNat

/-- A live entry after a time offline: everything but its times stays, and its expiry is its
remaining lifetime without the time offline from the new reading of the clock on. -/
def PathEntry.restored (now now' : ℚ) (offline_ms : ℕ) (e : PathEntry) : PathEntry :=
  { e with
    updated_at := now' - ((e.ageMs now : ℚ) / 1000 + (offline_ms : ℚ) / 1000)
    expires_at := now' + ((e.remainingMs now - offline_ms : ℕ) : ℚ) / 1000 }

/-- The entries of a table that outlive a time offline, as they are after it. -/
def survivors (paths : List (Option PathEntry)) (now now' : ℚ) (offline_ms : ℕ) : List PathEntry :=
  ((liveEntries paths now).filter fun e => decide (e.remainingMs now > offline_ms)).map
    (PathEntry.restored now now' offline_ms)

/-- An entry that the decoder takes: its timebase is the newest of its blobs, and it has at most a
path lifetime left. -/
structure PathEntry.Storable (config : Config) (now : ℚ) (e : PathEntry) : Prop where
  timebase : e.announce_timebase = latestTimebase e.random_blobs
  lifetime : e.remainingMs now ≤ (config.path_lifetime * 1000).floor.toNat

/-- A path table whose snapshot the decoder takes. -/
structure Storable (t : State) (now : ℚ) : Prop where
  bound : t.config.path_lifetime ≤ (2^64 - 1) / 1000
  entries : ∀ e ∈ liveEntries t.paths now, e.Storable t.config now

/-- Seconds that have milliseconds. -/
theorem secondsToMs_eq_some {seconds : ℚ} {ms : ℕ} (h : secondsToMs seconds = some ms) :
    ms = (seconds * 1000).floor.toNat ∧ ms < 2^64 := by
  unfold secondsToMs at h
  split_ifs at h with hbad
  push Not at hbad
  cases h
  refine ⟨rfl, ?_⟩
  have hle : seconds * 1000 ≤ ((2^64 - 1 : ℤ) : ℚ) := by
    have := hbad.2
    rw [le_div_iff₀ (by norm_num)] at this
    exact_mod_cast this
  have hfloor : (seconds * 1000).floor ≤ 2^64 - 1 := by
    have h1 : ((seconds * 1000).floor : ℚ) ≤ seconds * 1000 := Rat.floor_le _
    exact_mod_cast h1.trans hle
  omega

/-- The times of a record are the remaining lifetime and the age of the entry. -/
theorem recordTimes_eq_some {r : ℕ × ℕ} (h : recordTimes now e = some r) :
    r = (e.remainingMs now, e.ageMs now) ∧ r.1 < 2^64 ∧ r.2 < 2^64 := by
  unfold recordTimes at h
  cases hrem : secondsToMs (e.expires_at - now) with
  | none => simp [hrem] at h
  | some remaining_ms =>
    cases hage : secondsToMs (if now > e.updated_at then now - e.updated_at else 0) with
    | none => simp [hrem, hage] at h
    | some age_ms =>
      obtain rfl : (remaining_ms, age_ms) = r := by simpa [hrem, hage] using h
      obtain ⟨hr, hrlt⟩ := secondsToMs_eq_some hrem
      obtain ⟨ha, halt⟩ := secondsToMs_eq_some hage
      exact ⟨by rw [hr, ha]; rfl, hrlt, halt⟩

/-! ## Records -/

/-- What the decoder makes of the record of an entry whose destination is new. -/
theorem decodeRecord_recordBytes (h : e.Fits) {now' : ℚ} {r : ℕ × ℕ}
    (htimes : recordTimes now e = some r) (offline_ms maximum_lifetime_ms : ℕ)
    {retained : List PathEntry} (hnew : ∀ b ∈ retained, b.destination_hash ≠ e.destination_hash) :
    decodeRecord ⟨pathStoreVersion, now', offline_ms, maximum_lifetime_ms⟩ retained
        (recordBytes e r.1 r.2) = if e.remainingMs now > maximum_lifetime_ms ∨
          e.announce_timebase ≠ latestTimebase e.random_blobs then .error .protocol
      else if e.remainingMs now > offline_ms then .ok (retained ++ [e.restored now now' offline_ms])
      else .ok retained := by
  obtain ⟨rfl, hrem, hage⟩ := recordTimes_eq_some htimes
  obtain ⟨htime, hid, hgravity, hremaining, hageMs, hhops, hresp, hcount, hident⟩ :=
    recordBytes_numbers h hrem hage
  obtain ⟨hdest, hnext, hhash, hblobs, hkey⟩ :=
    recordBytes_strings e (e.remainingMs now) (e.ageMs now)
  have hpos := h.pos
  unfold decodeRecord
  simp only [htime, hid, hgravity, hremaining, hageMs, hhops, hresp, hcount, hident, hdest, hnext,
    hhash, hblobs, hkey, length_recordBytes]
  have hflag : (decide (pathStoreVersion ≥ 2) &&
      decide ((if e.identity_public_key.isSome = true then 1 else 0) = 1)) =
      e.identity_public_key.isSome := by
    cases e.identity_public_key <;> rfl
  have hidentity : (if e.identity_public_key.isSome = true then
      some (ofList 64 (e.identity_public_key.elim [] Octets.bytes)) else none) =
      e.identity_public_key := by
    cases e.identity_public_key <;> simp
  have hunresponsive : decide ((if e.unresponsive = true then 1 else 0) ≠ 0) = e.unresponsive := by
    cases e.unresponsive <;> rfl
  have hany : retained.any (fun b => decide (b.destination_hash = e.destination_hash)) = false := by
    simpa using hnew
  rw [if_neg]
  · simp only [hflag, hidentity, hunresponsive, UInt64.ofNat_toNat, UInt32.ofNat_toNat,
      UInt8.ofNat_toNat, Int32.toInt32_toUInt32]
    rfl
  · simp only [hflag, hany, recordSize, not_or, not_not, Bool.false_eq_true, not_false_eq_true,
    and_true]
    refine ⟨?_, ?_, by omega, not_lt.2 h.le⟩
    · split <;> omega
    · simp only [pathStoreVersion]
      split <;> simp

/-- One turn of the record loop on a record that was encoded. -/
theorem decodeRecords_cons (h : e.Fits) (context : DecodeContext) (n : ℕ) (remaining_ms age_ms : ℕ)
    (rest : List UInt8) (retained : List PathEntry) : decodeRecords context (n + 1)
        (beEncode 2 (recordSize e) ++ (recordBytes e remaining_ms age_ms ++ rest)) retained =
      match decodeRecord context retained (recordBytes e remaining_ms age_ms) with
      | .error status => .error status
      | .ok retained => decodeRecords context n rest retained := by
  have hbounds : pathStoreRecordBaseSize ≤ recordSize e ∧ recordSize e < 2^16 := by
    have hle : e.random_blobs.length ≤ 16 := h.le
    unfold recordSize
    simp only [pathStoreRecordBaseSize, pathStoreIdentitySize]
    split <;> omega
  have hlen := length_recordBytes e remaining_ms age_ms
  generalize recordBytes e remaining_ms age_ms = record at hlen ⊢
  have hsize := number_beEncode (n := 2) (v := recordSize e) (by omega) (record ++ rest)
  have hdrop : (beEncode 2 (recordSize e) ++ (record ++ rest)).drop 2 = record ++ rest :=
    drop_left' (length_beEncode _ _)
  have htake : (record ++ rest).take (recordSize e) = record := take_left' hlen
  have hdrop' : (record ++ rest).drop (recordSize e) = rest := drop_left' hlen
  have hlong : ¬ (beEncode 2 (recordSize e) ++ (record ++ rest)).length < 2 := by
    simp only [length_append, length_beEncode]
    omega
  have hwithin : ¬ (recordSize e < pathStoreRecordBaseSize ∨
      recordSize e > (record ++ rest).length) := by
    simp only [length_append, hlen]
    omega
  rw [decodeRecords, if_neg hlong]
  simp only [hsize, hdrop, htake, hdrop']
  refine (if_neg hwithin).trans ?_
  cases decodeRecord context retained record <;> rfl

/-- The records of a list of entries: that of the first and those of the others. -/
theorem encodeRecords_cons {payload : List UInt8}
    (h : encodeRecords now (e :: entries) = some payload) :
    ∃ r rest, recordTimes now e = some r ∧ encodeRecords now entries = some rest ∧
      beEncode 2 (recordSize e) ++ (recordBytes e r.1 r.2 ++ rest) = payload := by
  cases htimes : recordTimes now e with
  | none => simp [encodeRecords, htimes] at h
  | some r =>
    cases hrest : encodeRecords now entries with
    | none => simp [encodeRecords, htimes, hrest] at h
    | some rest => exact ⟨r, rest, rfl, rfl, by simpa [encodeRecords, htimes, hrest] using h⟩

/-- The records of entries with different destinations are read back when the decoder takes all of
them, and refused when it does not. -/
theorem decodeRecords_encodeRecords (now' : ℚ) (offline_ms maximum_lifetime_ms : ℕ)
    {payload : List UInt8} {retained : List PathEntry} (hfits : ∀ e ∈ entries, e.Fits)
    (hpayload : encodeRecords now entries = some payload)
    (hdistinct : (entries.map PathEntry.destination_hash).Nodup)
    (hnew : ∀ b ∈ retained, ∀ e ∈ entries, b.destination_hash ≠ e.destination_hash) :
    decodeRecords ⟨pathStoreVersion, now', offline_ms, maximum_lifetime_ms⟩ entries.length payload
      retained = if ∀ e ∈ entries, e.remainingMs now ≤ maximum_lifetime_ms ∧
        e.announce_timebase = latestTimebase e.random_blobs
      then .ok (retained ++ (entries.filter fun e => decide (e.remainingMs now > offline_ms)).map
        (PathEntry.restored now now' offline_ms)) else .error .protocol := by
  induction entries generalizing payload retained with
  | nil =>
    obtain rfl : [] = payload := by simpa [encodeRecords] using hpayload
    simp [decodeRecords]
  | cons e entries ih =>
    have hfit := hfits e mem_cons_self
    obtain ⟨r, rest, htimes, hrest, rfl⟩ := encodeRecords_cons hpayload
    rw [map_cons, nodup_cons] at hdistinct
    rw [length_cons, decodeRecords_cons hfit,
      decodeRecord_recordBytes hfit htimes offline_ms maximum_lifetime_ms
        fun b hb => hnew b hb e mem_cons_self]
    have hfits' : ∀ f ∈ entries, f.Fits := fun f hf => hfits f (mem_cons_of_mem _ hf)
    have hnew' : ∀ b ∈ retained, ∀ f ∈ entries, b.destination_hash ≠ f.destination_hash :=
      fun b hb f hf => hnew b hb f (mem_cons_of_mem _ hf)
    by_cases hown : e.remainingMs now ≤ maximum_lifetime_ms ∧
        e.announce_timebase = latestTimebase e.random_blobs
    · have htaken : ¬ (e.remainingMs now > maximum_lifetime_ms ∨
          e.announce_timebase ≠ latestTimebase e.random_blobs) := by
        rw [not_or, not_lt, not_not]
        exact hown
      rw [if_neg htaken]
      by_cases hlong : e.remainingMs now > offline_ms
      · -- The entry is retained, and its destination is not among those of the rest.
        have hnew'' : ∀ b ∈ retained ++ [e.restored now now' offline_ms], ∀ f ∈ entries,
            b.destination_hash ≠ f.destination_hash := by
          intro b hb f hf
          rcases mem_append.1 hb with hb | hb
          · exact hnew' b hb f hf
          · rw [mem_singleton.1 hb]
            exact fun heq => hdistinct.1 (mem_map.2 ⟨f, hf, heq.symm⟩)
        simp [hlong, hown, ih hfits' hrest hdistinct.2 hnew'']
      · simp [hlong, hown, ih hfits' hrest hdistinct.2 hnew']
    · have hrefused : e.remainingMs now > maximum_lifetime_ms ∨
          e.announce_timebase ≠ latestTimebase e.random_blobs := by
        rwa [not_and_or, not_le] at hown
      rw [if_pos hrefused]
      simp [hown]

/-! ## Snapshots -/

/-- The first loop of the encoder passes entries with at least one blob and not too many, and counts
the bytes of their records. -/
theorem requiredSize_ok {start required : ℕ} (h : requiredSize entries start = .ok required) :
    (∀ e ∈ entries, 0 < e.random_blobs.length ∧ e.random_blobs.length ≤ maxRandomBlobs) ∧
      required = start + (entries.map fun e => 2 + recordSize e).sum := by
  induction entries generalizing start with
  | nil =>
    obtain rfl : start = required := by simpa [requiredSize] using h
    simp
  | cons e entries ih =>
    unfold requiredSize at h
    split_ifs at h with hblobs hsize
    obtain ⟨hall, hsum⟩ := ih h
    refine ⟨?_, ?_⟩
    · rw [forall_mem_cons]
      exact ⟨by omega, hall⟩
    · rw [hsum, map_cons, sum_cons]
      omega

/-- The first loop of the encoder fails with a status that is not `RNS_OK`. -/
theorem requiredSize_error {start : ℕ} {status : Status}
    (h : requiredSize entries start = .error status) : status ≠ .ok := by
  induction entries generalizing start with
  | nil => simp [requiredSize] at h
  | cons e entries ih =>
    unfold requiredSize at h
    split_ifs at h with hblobs hsize
    · rintro rfl; cases h
    · rintro rfl; cases h
    · exact ih h

/-- The bytes of the records. -/
theorem length_encodeRecords {payload : List UInt8} (h : encodeRecords now entries = some payload) :
    payload.length = (entries.map fun e => 2 + recordSize e).sum := by
  induction entries generalizing payload with
  | nil =>
    obtain rfl : [] = payload := by simpa [encodeRecords] using h
    rfl
  | cons e entries ih =>
    obtain ⟨r, rest, -, hrest, rfl⟩ := encodeRecords_cons h
    simp only [length_append, length_beEncode, length_recordBytes, ih hrest, map_cons, sum_cons]
    omega

/-- A successful `rns_path_store_encode`: the records of the live entries behind a header. -/
theorem pathStoreEncode_ok {now : Option ℚ} {wall_time_ms capacity : ℕ}
    (h : (pathStoreEncode t now wall_time_ms capacity).status = .ok) : ∃ n payload, now = some n ∧
      (∀ e ∈ liveEntries t.paths n, 0 < e.random_blobs.length ∧
        e.random_blobs.length ≤ maxRandomBlobs) ∧
      encodeRecords n (liveEntries t.paths n) = some payload ∧
      (liveEntries t.paths n).length < 2^32 ∧ payload.length < 2^32 ∧
      (pathStoreEncode t now wall_time_ms capacity).output =
        snapshotHeader (liveEntries t.paths n).length payload.length wall_time_ms ++
          (beEncode 4 (crc32Bytes payload).toNat ++ payload) := by
  unfold pathStoreEncode at h ⊢
  rcases now with _ | n
  · cases h
  cases hreq : requiredSize (liveEntries t.paths n) pathStoreHeaderSize with
  | error status =>
    simp only [hreq] at h
    exact absurd h (requiredSize_error hreq)
  | ok required =>
    obtain ⟨hblobs, hrequired⟩ := requiredSize_ok hreq
    simp only [hreq] at h ⊢
    by_cases hbig : (liveEntries t.paths n).length > 2^32 - 1 ∨
        required - pathStoreHeaderSize > 2^32 - 1
    · rw [if_pos hbig] at h; cases h
    by_cases hroom : required > capacity
    · rw [if_neg hbig, if_pos hroom] at h; cases h
    cases hpayload : encodeRecords n (liveEntries t.paths n) with
    | none =>
      rw [if_neg hbig, if_neg hroom] at h
      simp only [hpayload] at h
      cases h
    | some payload =>
      have hlen := length_encodeRecords hpayload
      have hsize : required - pathStoreHeaderSize = payload.length := by omega
      rw [hsize] at hbig
      refine ⟨n, payload, rfl, hblobs, hpayload, by omega, by omega, ?_⟩
      rw [hsize, if_neg hbig, if_neg hroom]

/-- The fields of the header of a snapshot, and what follows it. -/
theorem snapshot_fields {count payload_length wall_time_ms checksum : ℕ} (payload : List UInt8)
    (hcount : count < 2^32) (hlength : payload_length < 2^32) (hwall : wall_time_ms < 2^64)
    (hchecksum : checksum < 2^32) :
    let input := snapshotHeader count payload_length wall_time_ms ++
      (beEncode 4 checksum ++ payload)
    pathStoreHeaderSize ≤ input.length ∧ slice input 0 8 = pathStoreMagic ∧
      number input 8 2 = pathStoreVersion ∧ number input 10 2 = pathStoreHeaderSize ∧
      number input 12 4 = count ∧ number input 16 4 = payload_length ∧
      number input 20 8 = wall_time_ms ∧ number input 28 4 = checksum ∧
      input.drop pathStoreHeaderSize = payload := by
  have hmagic : pathStoreMagic.length = 8 := rfl
  simp only [snapshotHeader, append_assoc, pathStoreHeaderSize, pathStoreVersion]
  refine ⟨?_, slice_append_left hmagic, ?_, ?_, ?_, ?_, ?_, ?_, ?_⟩
  · simp only [length_append, length_beEncode, hmagic]
    omega
  all_goals
    simp (disch := simp [hmagic]) only [number_append_right, drop_append_right, hmagic,
      length_beEncode, Nat.reduceSub, drop_zero]
  all_goals exact number_beEncode (by omega) _

/-- What `rns_path_store_decode` makes of a snapshot of a good path table, by the first thing that
can go wrong. -/
theorem pathStoreDecode_snapshot (h : PathTable config t) (hpos : 0 < config.path_lifetime) {n : ℚ}
    (n' : ℚ) {wall wall' capacity : ℕ} (hwall : wall < 2^64) (hle : wall ≤ wall')
    (hok : (pathStoreEncode t (some n) wall capacity).status = .ok) {r : State}
    (hr : r.config = config) : (Storable t n → pathStoreDecode r (some n') wall'
        (pathStoreEncode t (some n) wall capacity).output =
      (.ok, { r with
        paths := (survivors t.paths n n' (wall' - wall)).map some ++
          List.replicate (config.path_capacity -
            (survivors t.paths n n' (wall' - wall)).length) none },
        (survivors t.paths n n' (wall' - wall)).length)) ∧
    (¬ Storable t n → (pathStoreDecode r (some n') wall'
        (pathStoreEncode t (some n) wall capacity).output).1 ≠ .ok) := by
  obtain ⟨_, payload, hn, hblobs, hpayload, hcount, hlength, hout⟩ := pathStoreEncode_ok hok
  cases hn
  have hsub : (liveEntries t.paths n).Sublist (Slots.entries t.paths) := filter_sublist
  have hdistinct := (hsub.map PathEntry.destination_hash).nodup h.distinct.nodup_entries
  have hcap : (liveEntries t.paths n).length ≤ config.path_capacity := by
    have hle := hsub.length_le
    rw [length_entries] at hle
    exact hle.trans (used_le_length.trans h.length.le)
  have hlive : ∀ e, e ∈ liveEntries t.paths n ↔ (∃ i, Holds t.paths i e) ∧ n < e.expires_at := by
    intro e
    unfold liveEntries
    rw [mem_filter, mem_entries]
    simp
  have hfields := snapshot_fields payload hcount hlength hwall (crc32Bytes payload).toNat_lt
  rw [← hout] at hfields
  have hfits : ∀ e ∈ liveEntries t.paths n, e.Fits := by
    intro e he
    obtain ⟨⟨i, hi⟩, -⟩ := (hlive e).1 he
    obtain ⟨blob, -, htime⟩ := (h.history i e hi).timebase
    refine ⟨(hblobs e he).1, (hblobs e he).2, ?_⟩
    have hlt := beDecode_lt (blob.bytes.drop 5)
    rw [show (blob.bytes.drop 5).length = 5 by simp] at hlt
    unfold randomBlobTimebase at htime
    omega
  have hstorable : Storable t n ↔ config.path_lifetime ≤ (2^64 - 1) / 1000 ∧
      ∀ e ∈ liveEntries t.paths n, e.remainingMs n ≤ (config.path_lifetime * 1000).floor.toNat ∧
        e.announce_timebase = latestTimebase e.random_blobs := by
    obtain rfl := h.config_eq
    exact ⟨fun hs => ⟨hs.bound, fun e he => ⟨(hs.entries e he).lifetime, (hs.entries e he).timebase⟩⟩,
      fun hs => ⟨hs.1, fun e he => ⟨(hs.2 e he).2, (hs.2 e he).1⟩⟩⟩
  generalize (pathStoreEncode t (some n) wall capacity).output = output at hfields ⊢
  obtain ⟨hsize, hmagic, hversion, hheader, hcnt, hpay, hsaved, hcrc, hdrop⟩ := hfields
  -- The header passes.
  have hpass : ¬ (output.length < pathStoreHeaderSize ∨ slice output 0 8 ≠ pathStoreMagic ∨
      (number output 8 2 ≠ 1 ∧ number output 8 2 ≠ pathStoreVersion) ∨
      number output 10 2 ≠ pathStoreHeaderSize) := by
    simp only [hmagic, hversion, hheader, ne_eq, not_true_eq_false, and_false, or_false, not_lt]
    exact hsize
  have hpass' : ¬ ((liveEntries t.paths n).length > config.path_capacity ∨
      payload.length ≠ payload.length ∨
      (crc32Bytes payload).toNat ≠ (crc32Bytes payload).toNat) := by
    simp only [ne_eq, not_true_eq_false, or_false, not_lt]
    exact hcap
  unfold pathStoreDecode
  rw [if_neg hpass]
  simp only [hdrop, hcnt, hpay, hcrc, hr]
  rw [if_neg hpass']
  simp only [hsaved, hversion, hle, if_true]
  unfold secondsToMs
  by_cases hbound : config.path_lifetime ≤ (2^64 - 1) / 1000
  · rw [if_neg (by rw [not_or, not_lt, not_lt]; exact ⟨hpos.le, hbound⟩)]
    dsimp only
    rw [decodeRecords_encodeRecords n' _ _ hfits hpayload hdistinct
      fun _ hb => absurd hb not_mem_nil]
    constructor
    · intro hs
      rw [if_pos (hstorable.1 hs).2, nil_append]
      rfl
    · intro hs
      rw [hstorable, not_and] at hs
      rw [if_neg (hs hbound)]
      nofun
  · rw [if_pos (.inr (not_le.1 hbound))]
    exact ⟨fun hs => absurd (hstorable.1 hs).1 hbound, fun _ => by simp⟩

/-! ## Runs that keep the table storable -/

/-- The newest timebase is that of some blob, and no blob has a newer one. -/
theorem latestTimebase_foldl (blobs : List (Octets 10)) (start : ℕ) :
    let latest := blobs.foldl (fun latest blob =>
      if randomBlobTimebase blob > latest then randomBlobTimebase blob else latest) start
    start ≤ latest ∧ (∀ b ∈ blobs, randomBlobTimebase b ≤ latest) ∧
      (latest = start ∨ ∃ b ∈ blobs, randomBlobTimebase b = latest) := by
  induction blobs generalizing start with
  | nil => simp
  | cons b blobs ih =>
    generalize hnext : (if randomBlobTimebase b > start then randomBlobTimebase b else start) = next
    obtain ⟨hstart, hall, hsome⟩ := ih next
    simp only [foldl_cons, forall_mem_cons, exists_mem_cons_iff, hnext]
    have hge : start ≤ next ∧ randomBlobTimebase b ≤ next := by
      rw [← hnext]
      split <;> omega
    refine ⟨hge.1.trans hstart, ⟨hge.2.trans hstart, hall⟩, ?_⟩
    rcases hsome with hsame | hmem
    · rw [hsame, ← hnext]
      split
      · exact .inr (.inl rfl)
      · exact .inl rfl
    · exact .inr (.inr hmem)

/-- A timebase that a blob has and that no blob exceeds is the newest one. -/
theorem latestTimebase_eq {blobs : List (Octets 10)} {blob : Octets 10} (hmem : blob ∈ blobs)
    (hall : ∀ b ∈ blobs, randomBlobTimebase b ≤ randomBlobTimebase blob) :
    latestTimebase blobs = randomBlobTimebase blob := by
  obtain ⟨-, hle, hsome⟩ := latestTimebase_foldl blobs 0
  have hge : randomBlobTimebase blob ≤ latestTimebase blobs := hle blob hmem
  rcases hsome with hzero | ⟨b, hb, heq⟩
  · have : latestTimebase blobs = 0 := hzero
    omega
  · have h1 : randomBlobTimebase b = latestTimebase blobs := heq
    have h2 := hall b hb
    omega

/-- Adding a blob that is not older than the newest one makes its timebase the newest. -/
theorem latestTimebase_pathAddBlob {blobs : List (Octets 10)} {blob : Octets 10} {history : ℕ}
    (h : latestTimebase blobs ≤ randomBlobTimebase blob) :
    latestTimebase (pathAddBlob blobs blob history) = randomBlobTimebase blob := by
  obtain ⟨-, hle, -⟩ := latestTimebase_foldl blobs 0
  have hold : ∀ b ∈ blobs, randomBlobTimebase b ≤ randomBlobTimebase blob :=
    fun b hb => (hle b hb).trans h
  unfold pathAddBlob
  split_ifs with hheard hroom
  · exact latestTimebase_eq hheard hold
  all_goals
    refine latestTimebase_eq (by simp) fun b hb => ?_
    rcases mem_append.1 hb with hb | hb
    · first
        | exact hold b hb
        | exact hold b (mem_of_mem_drop (mem_of_mem_take hb))
    · rw [mem_singleton.1 hb]

/-- An announce for a live path that is marked unresponsive is not older than the newest blob that
the path has heard. -/
def Orderly (t : State) : PathCall → Prop
  | .considerAnnounce now a => ∀ i e n, Holds t.paths i e →
    e.destination_hash = a.destination_hash → now = some n → n < e.expires_at →
    e.unresponsive = true → latestTimebase e.random_blobs ≤ randomBlobTimebase a.random_blob
  | _ => True

/-- What an orderly run keeps, at readings of the clock up to `now`. -/
def Fresh (config : Config) (now : ℚ) (t : State) : Prop :=
  t.config = config ∧ ∀ i e, Holds t.paths i e →
    e.announce_timebase = latestTimebase e.random_blobs ∧
      e.expires_at = e.updated_at + config.path_lifetime ∧ e.updated_at ≤ now

/-- Every orderly call at a reading up to `now` keeps the entries fresh. -/
theorem pathStep_fresh (t : State) (call : PathCall) (h : Fresh config now t)
    (hcall : Orderly t call ∧ ∀ n, call.now = some n → n ≤ now) :
    Fresh config now (pathStep t call) := by
  obtain ⟨rfl, hfresh⟩ := h
  -- Writing a fresh entry.
  have hset : ∀ {j : ℕ} {x : PathEntry}, (x.announce_timebase = latestTimebase x.random_blobs ∧
      x.expires_at = x.updated_at + t.config.path_lifetime ∧ x.updated_at ≤ now) →
      Fresh t.config now { t with paths := t.paths.set j (some x) } := by
    intro j x hx
    refine ⟨rfl, fun i e hi => ?_⟩
    obtain ⟨-, -, hsome⟩ | ⟨-, hi⟩ := holds_set.1 hi
    · rw [← Option.some.inj hsome]
      exact hx
    · exact hfresh i e hi
  rcases pathStep_cases t call with ⟨m, a, rfl⟩ | ⟨htended, -⟩
  · rcases considerAnnounce_cases t m a with hr | ⟨n, i, e, old, hn, hi, hd, hold, hr⟩ |
      ⟨n, hn, -, hr⟩
    · simp only [pathStep, hr]
      exact ⟨rfl, hfresh⟩
    · simp only [pathStep, hr]
      have hnewest : latestTimebase old ≤ randomBlobTimebase a.random_blob := by
        rcases hold with ⟨-, rfl⟩ | ⟨hlive, rfl, href⟩
        · exact Nat.zero_le _
        · cases hresp : e.unresponsive with
          | true => exact hcall.1 i e n hi hd hn hlive hresp
          | false =>
            -- A responsive path refuses what is older than its timebase.
            rw [← (hfresh i e hi).1]
            by_contra holder
            simp [refuses, hresp, not_le.1 holder] at href
      exact hset ⟨(latestTimebase_pathAddBlob hnewest).symm, rfl, hcall.2 n hn⟩
    · simp only [pathStep, hr]
      have hnewest : latestTimebase [] ≤ randomBlobTimebase a.random_blob := Nat.zero_le _
      exact hset ⟨(latestTimebase_pathAddBlob hnewest).symm, rfl, hcall.2 n hn⟩
  · refine ⟨htended.config, fun i e hi => ?_⟩
    obtain ⟨old, _, _, hold, rfl⟩ := htended.holds i e hi
    exact hfresh i old hold

/-- For every run of calls on the path table and every snapshot of the table that it reaches, read
back at a wall time not before that of the snapshot: the decoder returns `RNS_OK` and the table
holds exactly the live entries that outlive the time offline, shortened by it, if and only if the
table is storable at the reading of the clock of the snapshot. It is storable after every run whose
calls are orderly and whose readings of the clock are not after that of the snapshot, for a path
lifetime whose milliseconds fit in 64 bits. -/
theorem path_store_round_trip_iff {config : Config} {t₀ : State} (h : init config = some t₀)
    (calls : List PathCall) (now : ℚ) :
    let t := Run.final pathStep t₀ calls
    (∀ wall capacity, wall < 2^64 →
      (pathStoreEncode t (some now) wall capacity).status = .ok →
      ∀ (r : State) (now' : ℚ) (wall' : ℕ), r.config = t.config → wall ≤ wall' →
        (pathStoreDecode r (some now') wall' (pathStoreEncode t (some now) wall capacity).output =
          (.ok, { r with
            paths := (survivors t.paths now now' (wall' - wall)).map some ++
              List.replicate (t.config.path_capacity -
                (survivors t.paths now now' (wall' - wall)).length) none },
            (survivors t.paths now now' (wall' - wall)).length) ↔ Storable t now)) ∧
    (config.path_lifetime ≤ (2^64 - 1) / 1000 → Run.Each pathStep Orderly t₀ calls →
      (∀ call ∈ calls, ∀ n, call.now = some n → n ≤ now) → Storable t now) := by
  intro t
  have htable : PathTable config.withDefaults t := pathTable_run h calls
  obtain ⟨⟨-, -, -, -, hlifetime, -⟩, rfl⟩ := init_ok h
  constructor
  · intro wall capacity hwall hok r now' wall' hr hle
    rw [htable.config_eq] at hr ⊢
    obtain ⟨htaken, hrefused⟩ := pathStoreDecode_snapshot htable hlifetime now' hwall hle hok hr
    constructor
    · intro hdecode
      by_contra hnot
      exact hrefused hnot (by rw [hdecode])
    · exact htaken
  · intro hbound horderly hreadings
    have hempty : Fresh config.withDefaults now
        { config := config.withDefaults
          paths := List.replicate config.path_capacity none
          dedupe := List.replicate config.dedupe_capacity none
          reverse_paths := List.replicate config.reverse_capacity none
          links := List.replicate config.withDefaults.link_capacity none } :=
      ⟨rfl, fun i e hi => absurd hi not_holds_replicate⟩
    obtain ⟨hconfig, hfresh⟩ :=
      Run.invariant pathStep_fresh hempty (horderly.and (Run.each_of_mem hreadings))
    refine ⟨hconfig.symm ▸ hbound, fun e he => ?_⟩
    unfold liveEntries at he
    rw [mem_filter, mem_entries] at he
    obtain ⟨⟨i, hi⟩, -⟩ := he
    obtain ⟨htime, hexp, hupd⟩ := hfresh i e hi
    refine ⟨htime, ?_⟩
    -- The entry was updated at or before `now`, so at most a lifetime is left.
    rw [hconfig]
    have hleft : (e.expires_at - now) * 1000 ≤ config.withDefaults.path_lifetime * 1000 := by
      linarith
    exact Int.toNat_le_toNat (Rat.floor_monotone hleft)

/-- A table with one announced path is read back a second later. -/
theorem path_store_round_trip_one : (pathStoreDecode smallTransport (some 0) 2000 (pathStoreEncode
      (Run.final pathStep smallTransport [.considerAnnounce (some 0) (announceAt 1)])
      (some 3) 1000 1024).output).1 = .ok := by
  obtain ⟨hiff, horderly⟩ := path_store_round_trip_iff init_smallConfig
    [.considerAnnounce (some 0) (announceAt 1)] 3
  have hstorable := horderly (by norm_num [smallConfig])
    ⟨fun i e n hi => absurd hi not_holds_replicate, trivial⟩ (by
      intro call hcall n hn
      rw [mem_singleton.1 hcall] at hn
      cases hn
      norm_num)
  rw [(hiff 1000 1024 (by norm_num) (by decide +kernel) smallTransport 0 2000 rfl
    (by norm_num)).2 hstorable]

/-- An announce of an older timebase over an unresponsive path is taken, and the snapshot of the
table, which encodes without an error, is refused by the decoder. -/
theorem snapshot_refused :
    let t := Run.final pathStep smallTransport
      [.considerAnnounce (some 0) (announceAt 2),
        .markUnresponsive (some 1) (announceAt 2).destination_hash,
        .considerAnnounce (some 2) (announceAt 1)]
    init smallConfig = some smallTransport ∧
      (pathStoreEncode t (some 3) 1000 1024).status = .ok ∧
      (pathStoreDecode smallTransport (some 3) 1000
        (pathStoreEncode t (some 3) 1000 1024).output).1 = .protocol := by
  refine ⟨init_smallConfig, ?_, ?_⟩
  · decide +kernel
  · decide +kernel

end Reticulum.Transport
