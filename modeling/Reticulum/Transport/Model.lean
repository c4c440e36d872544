import Reticulum.Base.Bytes
import Reticulum.Base.Slots

/-!
# The transport tables

`rns_transport` of `src/transport/transport.c`: its four tables, `rns_transport_init` and
`rns_transport_expire`, and the calls on the path table and the duplicate table. An entry that is
not `occupied` is all zero in the source, so a table here is a list of `Option` entries as long as
its capacity.

A reading of the clock is an input of each call, `none` when it is not finite; times and lifetimes
are exact rationals. `random_blob_count` is the length of `random_blobs`, and an entry has an
identity when `identity_public_key` is there.
-/

namespace Reticulum.Transport

open List Slots
open Bytes (beDecode)

/-- `RNS_TRANSPORT_MAX_RANDOM_BLOBS`. -/
def maxRandomBlobs : ℕ := 16

/-- The numbers of `rns_transport_config`. -/
structure Config where
  path_capacity : ℕ
  dedupe_capacity : ℕ
  reverse_capacity : ℕ
  link_capacity : ℕ
  random_blob_history : ℕ
  path_lifetime : ℚ
  dedupe_lifetime : ℚ
  reverse_lifetime : ℚ
  link_lifetime : ℚ
  link_proof_timeout_per_hop : ℚ
deriving DecidableEq

/-- An occupied `rns_path_entry`. -/
structure PathEntry where
  destination_hash : Octets 16
  next_hop : Octets 16
  announce_packet_hash : Octets 32
  identity_public_key : Option (Octets 64)
  random_blobs : List (Octets 10)
  announce_timebase : ℕ
  interface_id : UInt64
  interface_gravity : Int32
  hops : UInt8
  unresponsive : Bool
  updated_at : ℚ
  expires_at : ℚ
deriving DecidableEq

/-- An occupied `rns_dedupe_entry`. -/
structure DedupeEntry where
  packet_hash : Octets 32
  seen_at : ℚ
  expires_at : ℚ
deriving DecidableEq

/-- An occupied `rns_reverse_entry`. -/
structure ReverseEntry where
  packet_hash : Octets 16
  received_interface_id : UInt64
  outbound_interface_id : UInt64
  created_at : ℚ
  expires_at : ℚ
deriving DecidableEq

/-- An occupied `rns_transport_link_entry`. `updated_at` is `none` after a reading of the clock that
was not finite, and `expires_at` is zero until the link is validated. -/
structure LinkEntry where
  link_id : Octets 16
  next_hop : Octets 16
  destination_hash : Octets 16
  destination_public_key : Octets 64
  next_hop_interface_id : UInt64
  received_interface_id : UInt64
  remaining_hops : UInt8
  taken_hops : UInt8
  validated : Bool
  created_at : ℚ
  updated_at : Option ℚ
  proof_deadline : ℚ
  expires_at : ℚ
deriving DecidableEq

/-- The time at which a link entry dies: the deadline of its proof until it is validated. -/
def LinkEntry.deadline (entry : LinkEntry) : ℚ :=
  if entry.validated then entry.expires_at else entry.proof_deadline

/-- `rns_transport`. -/
structure State where
  config : Config
  paths : List (Option PathEntry)
  dedupe : List (Option DedupeEntry)
  reverse_paths : List (Option ReverseEntry)
  links : List (Option LinkEntry)
deriving DecidableEq

section

variable (t : State) (now : Option ℚ) (destination_hash : Octets 16)

/-- `allocation_size_ok`, with the `SIZE_MAX` of a 64-bit target. -/
def allocationSizeOk (count size : ℕ) : Bool := count != 0 && decide (count ≤ (2^64 - 1) / size)

/-- The configuration with the defaults of `rns_transport_init`: a link capacity, lifetime or proof
timeout of zero stands for the default. -/
def Config.withDefaults (config : Config) : Config :=
  { config with
    link_capacity := if config.link_capacity = 0 then 64 else config.link_capacity
    link_lifetime := if config.link_lifetime = 0 then 900 else config.link_lifetime
    link_proof_timeout_per_hop :=
      if config.link_proof_timeout_per_hop = 0 then 6 else config.link_proof_timeout_per_hop }

/-- `rns_transport_init`, where `calloc` succeeds. The sizes are those of the entries on a 64-bit
target. -/
def init (config : Config) : Option State :=
  if !allocationSizeOk config.path_capacity 352 || !allocationSizeOk config.dedupe_capacity 56 ||
      !allocationSizeOk config.reverse_capacity 56 || config.random_blob_history = 0 ||
      config.random_blob_history > maxRandomBlobs || config.path_lifetime ≤ 0 ||
      config.dedupe_lifetime ≤ 0 || config.reverse_lifetime ≤ 0 then none
  else
    let config := config.withDefaults
    if !allocationSizeOk config.link_capacity 176 || config.link_lifetime ≤ 0 ||
        config.link_proof_timeout_per_hop ≤ 0 then none
    else
      some { config
             paths := replicate config.path_capacity none
             dedupe := replicate config.dedupe_capacity none
             reverse_paths := replicate config.reverse_capacity none
             links := replicate config.link_capacity none }

/-- A transport just made: what was checked, and its empty tables. -/
theorem init_ok {config : Config} {t : State} (h : init config = some t) :
    (0 < config.path_capacity ∧ 0 < config.dedupe_capacity ∧ 0 < config.random_blob_history ∧
      config.random_blob_history ≤ maxRandomBlobs ∧ 0 < config.path_lifetime ∧
      0 < config.dedupe_lifetime ∧ 0 < config.reverse_capacity ∧
      0 < config.withDefaults.link_capacity) ∧
    t = { config := config.withDefaults
          paths := replicate config.path_capacity none
          dedupe := replicate config.dedupe_capacity none
          reverse_paths := replicate config.reverse_capacity none
          links := replicate config.withDefaults.link_capacity none } := by
  unfold init at h
  split_ifs at h with h1
  dsimp only at h
  split_ifs at h with h2
  refine ⟨?_, (Option.some.inj h).symm⟩
  simp only [allocationSizeOk, Bool.not_and, Bool.or_eq_true, Bool.not_eq_true',
    bne_eq_false_iff_eq, decide_eq_false_iff_not, decide_eq_true_eq, not_or, not_le,
    not_lt] at h1 h2
  obtain ⟨⟨⟨⟨⟨⟨⟨⟨hpath, -⟩, hdedupe, -⟩, hreverse, -⟩, hhistory⟩, hmax⟩, hpl⟩, hdl⟩, -⟩ := h1
  exact ⟨by omega, by omega, by omega, hmax, hpl, hdl, by omega, by omega⟩

/-- A transport with two slots in each table and a history of two blobs. -/
def smallConfig : Config :=
  { path_capacity := 2
    dedupe_capacity := 2
    reverse_capacity := 2
    link_capacity := 2
    random_blob_history := 2
    path_lifetime := 100
    dedupe_lifetime := 100
    reverse_lifetime := 100
    link_lifetime := 100
    link_proof_timeout_per_hop := 6 }

/-- The transport that `rns_transport_init` makes of `smallConfig`. -/
def smallTransport : State :=
  { config := smallConfig
    paths := replicate 2 none
    dedupe := replicate 2 none
    reverse_paths := replicate 2 none
    links := replicate 2 none }

theorem init_smallConfig : init smallConfig = some smallTransport := by
  norm_num [init, smallConfig, smallTransport, Config.withDefaults, allocationSizeOk,
    maxRandomBlobs]

/-- `rns_transport_expire`: how many entries it removed, and the transport after it. -/
def expire : ℕ × State :=
  match now with
  | none => (0, t)
  | some now =>
    let t' : State :=
      { t with
        paths := sweep (fun e => decide (now ≥ e.expires_at)) t.paths
        dedupe := sweep (fun e => decide (now ≥ e.expires_at)) t.dedupe
        reverse_paths := sweep (fun e => decide (now ≥ e.expires_at)) t.reverse_paths
        links := sweep (fun e => decide (now ≥ e.deadline)) t.links }
    ((used t.paths - used t'.paths) + (used t.dedupe - used t'.dedupe) +
      (used t.reverse_paths - used t'.reverse_paths) +
      (used t.links - used t'.links), t')

/-! ## The path table -/

/-- `random_blob_timebase`: the last five bytes of the blob. -/
def randomBlobTimebase (blob : Octets 10) : ℕ := beDecode (blob.bytes.drop 5)

/-- The slot of the entry for a destination, with the entry. -/
def findPath (paths : List (Option PathEntry)) (destination_hash : Octets 16) :
    Option (ℕ × PathEntry) :=
  find (fun e => decide (e.destination_hash = destination_hash)) paths

/-- `rns_transport_lookup`: the entry for the destination with its slot, and the transport after
it. An expired entry is removed. -/
def lookup : Option (ℕ × PathEntry) × State :=
  match now with
  | none => (none, t)
  | some now =>
    match findPath t.paths destination_hash with
    | none => (none, t)
    | some (i, entry) =>
      if now < entry.expires_at then (some (i, entry), t)
      else (none, { t with paths := t.paths.set i none })

/-- Looks the destination up and changes its entry. -/
def updatePath (change : PathEntry → PathEntry) : Bool × State :=
  match lookup t now destination_hash with
  | (none, t) => (false, t)
  | (some (i, entry), t) => (true, { t with paths := t.paths.set i (some (change entry)) })

/-- `rns_transport_mark_unresponsive`. -/
def markUnresponsive : Bool × State :=
  updatePath t now destination_hash fun entry => { entry with unresponsive := true }

/-- `rns_transport_set_path_identity`. -/
def setPathIdentity (public_key : Octets 64) : Bool × State :=
  updatePath t now destination_hash fun entry =>
    { entry with identity_public_key := some public_key }

end

/-- `path_add_blob` on the blobs of an entry: a blob that was heard stays where it is, and a full
history loses its first blob. `path_heard_blob` is membership. -/
def pathAddBlob (random_blobs : List (Octets 10)) (blob : Octets 10) (history : ℕ) :
    List (Octets 10) :=
  if blob ∈ random_blobs then random_blobs
  else if random_blobs.length < history then random_blobs ++ [blob]
  else (random_blobs.drop 1).take (history - 1) ++ [blob]

/-- `path_replacement_slot`: the first free slot, else the one updated least recently. -/
def pathReplacementSlot (paths : List (Option PathEntry)) : ℕ :=
  victim (fun _ => false) PathEntry.updated_at paths

/-- `rns_path_result`. -/
inductive PathResult
  | rejected
  | inserted
  | updated
deriving DecidableEq, Repr

/-- The arguments of `rns_transport_consider_announce`. -/
structure Announced where
  destination_hash : Octets 16
  next_hop : Octets 16
  interface_id : UInt64
  interface_gravity : Int32
  hops : UInt8
  random_blob : Octets 10
  packet_hash : Octets 32
deriving DecidableEq

/-- The entry that `rns_transport_consider_announce` writes over one with blobs `old_blobs`. -/
def pathEntry (config : Config) (now : ℚ) (a : Announced) (old_blobs : List (Octets 10)) :
    PathEntry :=
  { destination_hash := a.destination_hash
    next_hop := a.next_hop
    announce_packet_hash := a.packet_hash
    identity_public_key := none
    random_blobs := pathAddBlob old_blobs a.random_blob config.random_blob_history
    announce_timebase := randomBlobTimebase a.random_blob
    interface_id := a.interface_id
    interface_gravity := a.interface_gravity
    hops := a.hops
    unresponsive := false
    updated_at := now
    expires_at := now + config.path_lifetime }

/-- Whether a live entry refuses an announce: unless it is unresponsive, one that is older, or of
the same timebase or already heard without coming over an interface of higher gravity. -/
def refuses (entry : PathEntry) (a : Announced) : Bool :=
  !entry.unresponsive &&
    (decide (randomBlobTimebase a.random_blob < entry.announce_timebase) ||
      (decide (randomBlobTimebase a.random_blob = entry.announce_timebase) &&
        !decide (a.interface_gravity > entry.interface_gravity)) ||
      (decide (a.random_blob ∈ entry.random_blobs) &&
        !decide (a.interface_gravity > entry.interface_gravity)))

/-- `rns_transport_consider_announce`. -/
def considerAnnounce (t : State) (now : Option ℚ) (a : Announced) : PathResult × State :=
  match now with
  | none => (.rejected, t)
  | some now =>
    match findPath t.paths a.destination_hash with
    | some (i, entry) =>
      if now ≥ entry.expires_at then
        -- An expired match is overwritten, with a new history.
        (.updated, { t with paths := t.paths.set i (some (pathEntry t.config now a [])) })
      else if refuses entry a then (.rejected, t)
      else
        (.updated,
          { t with paths := t.paths.set i (some (pathEntry t.config now a entry.random_blobs)) })
    | none =>
      (.inserted,
        { t with paths :=
            t.paths.set (pathReplacementSlot t.paths) (some (pathEntry t.config now a [])) })

/-! ## The duplicate table -/

/-- The scan of `rns_transport_accept_packet_hash`: it clears expired entries up to the first live
one with the hash, and says whether there is one. -/
def dedupeScan (now : ℚ) (packet_hash : Octets 32) :
    List (Option DedupeEntry) → Bool × List (Option DedupeEntry)
  | [] => (false, [])
  | none :: entries =>
    let rest := dedupeScan now packet_hash entries
    (rest.1, none :: rest.2)
  | some entry :: entries =>
    if now ≥ entry.expires_at then
      let rest := dedupeScan now packet_hash entries
      (rest.1, none :: rest.2)
    else if entry.packet_hash = packet_hash then (true, some entry :: entries)
    else
      let rest := dedupeScan now packet_hash entries
      (rest.1, some entry :: rest.2)

/-- `oldest_dedupe_slot`: the first free slot, else the one seen first. -/
def oldestDedupeSlot (dedupe : List (Option DedupeEntry)) : ℕ :=
  victim (fun _ => false) DedupeEntry.seen_at dedupe

/-- `rns_transport_accept_packet_hash`. -/
def acceptPacketHash (t : State) (now : Option ℚ) (packet_hash : Octets 32) : Bool × State :=
  match now with
  | none => (false, t)
  | some now =>
    match dedupeScan now packet_hash t.dedupe with
    | (true, dedupe) => (false, { t with dedupe })
    | (false, dedupe) =>
      let entry : DedupeEntry :=
        { packet_hash, seen_at := now, expires_at := now + t.config.dedupe_lifetime }
      (true, { t with dedupe := dedupe.set (oldestDedupeSlot dedupe) (some entry) })

end Reticulum.Transport
