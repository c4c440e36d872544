import Mathlib.Data.List.ReduceOption
import Reticulum.Transport.Rollback

/-!
# What the reverse and link tables find

All calls on a transport as one machine, and what a search finds of what was recorded. An entry is
recorded in the first free, expired or oldest slot, and a search returns the first slot with the
key, expired or not. Two entries with one key can be in the tables together, so an entry is found
exactly when no slot before its own has the key (`Slots.find_eq_some_iff`).

A validated link has two directions, told apart by the interface on which a packet comes in, the
receiving one first. Where the two interfaces are one, only the first direction exists.

The expiry of a link is set when its proof is accepted and by nothing else: packets routed over the
link change `updated_at`, which no function reads (`transportStep_liveUntil`).
-/

namespace Reticulum.Transport

open Slots List Run Octets

/-! ## Searches -/

/-- The first slot with a link entry of the id. -/
def findLink (links : List (Option LinkEntry)) (link_id : Octets 16) : Option (ℕ × LinkEntry) :=
  find (fun e => decide (e.link_id = link_id)) links

/-- The first slot with a reverse entry of the hash. -/
def findReverse (reverse_paths : List (Option ReverseEntry)) (packet_hash : Octets 16) :
    Option (ℕ × ReverseEntry) :=
  find (fun e => decide (e.packet_hash = packet_hash)) reverse_paths

variable (crypto : Crypto) {link_id : Octets 16} {i : ℕ} {e : LinkEntry} {t : State}
  {ingress : UInt64}

/-- What a search for a link returns is an entry of the link. -/
theorem findLink_eq_some {links : List (Option LinkEntry)}
    (h : findLink links link_id = some (i, e)) : Holds links i e ∧ e.link_id = link_id := by
  obtain ⟨hi, hid, -⟩ := find_eq_some h
  exact ⟨hi, by simpa using hid⟩

/-- An entry is found for its link exactly when no slot before it has an entry of the link. -/
theorem findLink_eq_iff {links : List (Option LinkEntry)} (h : Holds links i e) :
    findLink links e.link_id = some (i, e) ↔
      ∀ j f, j < i → Holds links j f → f.link_id ≠ e.link_id := by
  unfold findLink
  rw [find_eq_some_iff h (by simp)]
  simp

/-- What `rns_transport_link_lookup` returns: the entry that the search finds, while it is live. -/
theorem linkLookup_eq_some_iff {now : ℚ} : (linkLookup t (some now) link_id).1 = some (i, e) ↔
      findLink t.links link_id = some (i, e) ∧ now < e.deadline := by
  unfold linkLookup findLink
  rcases find (fun e : LinkEntry => decide (e.link_id = link_id)) t.links with _ | ⟨j, f⟩
  · simp
  · by_cases hdead : now ≥ f.deadline
    · simp only [hdead, if_true]
      constructor
      · nofun
      · rintro ⟨hfe, hlive⟩
        cases hfe
        exact absurd hlive (not_lt.2 hdead)
    · simp only [hdead, if_false]
      constructor
      · intro hfe
        cases hfe
        exact ⟨rfl, not_le.1 hdead⟩
      · exact And.left

/-- What a lookup returns is an entry of the link. -/
theorem linkLookup_link_id {now : Option ℚ} (h : (linkLookup t now link_id).1 = some (i, e)) :
    e.link_id = link_id := by
  rcases now with _ | now
  · cases h
  · exact (findLink_eq_some (linkLookup_eq_some_iff.1 h).1).2

/-- What `rns_transport_consume_reverse` returns for a match: the entry that the search finds is
live and leads from the interface. -/
theorem consumeReverse_matched_iff {now : ℚ} {packet_hash : Octets 16} {forward : UInt64} :
    (consumeReverse t (some now) packet_hash ingress).1 = .matched forward ↔
      ∃ i e, findReverse t.reverse_paths packet_hash = some (i, e) ∧ now < e.expires_at ∧
        e.outbound_interface_id = ingress ∧ e.received_interface_id = forward := by
  unfold consumeReverse findReverse
  rcases find (fun e : ReverseEntry => decide (e.packet_hash = packet_hash))
    t.reverse_paths with _ | ⟨i, e⟩
  · simp
  · by_cases hdead : now ≥ e.expires_at
    · simp [hdead]
    · have hlive : now < e.expires_at := not_le.1 hdead
      by_cases hingress : ingress = e.outbound_interface_id
      · simp [hingress, hlive, hlive.not_ge]
      · simp [hingress, Ne.symm hingress, hlive.not_ge]

/-- What `rns_transport_route_link` returns for a match: the entry that the lookup returns is
validated and has the direction, for packets of these hops. -/
theorem routeLinkTransaction_matched_iff {now now' : Option ℚ} {forward : UInt64} {hops : UInt8} :
    (routeLinkTransaction t now now' link_id ingress hops).1 = .matched forward ↔
      ∃ i e, (linkLookup t now link_id).1 = some (i, e) ∧ e.validated = true ∧
        linkDirection e ingress = some (hops, forward) := by
  unfold routeLinkTransaction
  rcases linkLookup t now link_id with ⟨_ | ⟨i, e⟩, t'⟩
  · simp
  · by_cases hvalidated : e.validated = true
    · rcases hdir : linkDirection e ingress with _ | ⟨expected, f⟩
      · simp [hvalidated, hdir]
      · by_cases hhops : hops = expected
        · simp [hvalidated, hdir, hhops]
        · simp [hvalidated, hdir, hhops, Ne.symm hhops]
    · simp [hvalidated]

/-- Packets that come in on the interface of the next hop are led back, unless the interface is the
receiving one, whose direction comes first, and the hops differ. -/
theorem linkDirection_next_hop_iff (e : LinkEntry) :
    linkDirection e e.next_hop_interface_id = some (e.remaining_hops, e.received_interface_id) ↔
      e.received_interface_id ≠ e.next_hop_interface_id ∨ e.taken_hops = e.remaining_hops := by
  by_cases hsame : e.next_hop_interface_id = e.received_interface_id
  · simp [linkDirection, hsame]
  · simp [linkDirection, hsame, Ne.symm hsame]

/-! ## Runs of a transport -/

/-- A call on a transport, with its readings of the clock. -/
inductive TransportCall
  | path (call : PathCall)
  | route (call : RouteCall)
  | recordReverse (now : Option ℚ) (packet_hash : Octets 32)
    (received_interface_id outbound_interface_id : UInt64)
  | recordLinkRequest (now : Option ℚ) (link_id : Octets 16) (path : PathEntry)
    (received_interface_id : UInt64) (taken_hops : UInt8)
  | acceptLinkProof (now now' : Option ℚ) (link_id : Octets 16) (proof : List UInt8)
    (ingress_interface_id : UInt64) (proof_hops : UInt8)
  | routeLink (now now' : Option ℚ) (link_id : Octets 16) (ingress_interface_id : UInt64)
    (packet_hops : UInt8)
  | rollback (transaction : Transaction)

/-- The transport after a call. -/
def transportStep (crypto : Crypto) (t : State) : TransportCall → State
  | .path call => pathStep t call
  | .route call => routeStep t call
  | .recordReverse now packet_hash received outbound =>
    ((recordReverseTransaction t now packet_hash received outbound).map Prod.fst).getD t
  | .recordLinkRequest now link_id path received hops =>
    ((recordLinkRequestTransaction t now link_id path received hops).map Prod.fst).getD t
  | .acceptLinkProof now now' link_id proof ingress hops =>
    (acceptLinkProofTransaction crypto t now now' link_id proof ingress hops).2.1
  | .routeLink now now' link_id ingress hops =>
    (routeLinkTransaction t now now' link_id ingress hops).2.1
  | .rollback transaction => (transactionRollback t transaction).2.1

/-- Every call keeps the shape of a transport. -/
theorem shape_transportStep (t : State) (call : TransportCall) :
    (transportStep crypto t call).shape = t.shape := by
  cases call with
  | path call => exact shape_pathStep t call
  | route call => exact shape_routeStep t call
  | recordReverse now packet_hash received outbound =>
    rcases now with _ | now
    · rfl
    · simp [transportStep, recordReverseTransaction, State.shape]
  | recordLinkRequest now link_id path received hops =>
    simp only [transportStep, recordLinkRequestTransaction]
    split
    · simp [State.shape]
    · rfl
  | acceptLinkProof now now' link_id proof ingress hops =>
    exact (acceptLinkProofTransaction_routed ..).shape_eq
  | routeLink now now' link_id ingress hops => exact (routeLinkTransaction_routed ..).shape_eq
  | rollback transaction => exact shape_transactionRollback t transaction

/-- Recorded routes are found where no slot before them has their key. In every transport reached, a
link request just recorded is what a lookup returns exactly while its proof is awaited and when no
slot before it has an entry of the link. A reverse path that is still in its slot and has not
expired leads a proof from its outbound interface to its receiving one exactly when the entry found
in a slot before it, if there is one, is live and has the same two interfaces. -/
theorem recorded_routes_found_iff (crypto : Crypto) {config : Config} {t₀ : State}
    (h₀ : init config = some t₀) (calls : List TransportCall) :
    let t := final (transportStep crypto) t₀ calls
    (∀ now link_id path received hops t' tr,
      recordLinkRequestTransaction t (some now) link_id path received hops = some (t', tr) →
      ∃ slot e, tr = .link slot (t.links[slot]?.join) ∧ Holds t'.links slot e ∧
        ∀ now', (linkLookup t' (some now') link_id).1 = some (slot, e) ↔
          now' < now + path.hops.toNat * t.config.link_proof_timeout_per_hop ∧
          ∀ j f, j < slot → Holds t.links j f → f.link_id ≠ link_id) ∧
    (∀ now packet_hash received outbound t' tr,
      recordReverseTransaction t (some now) packet_hash received outbound = some (t', tr) →
      ∃ slot e, tr = .reverse slot (t.reverse_paths[slot]?.join) ∧
        Holds t'.reverse_paths slot e ∧
        ∀ later now', let t'' := final (transportStep crypto) t' later
          Holds t''.reverse_paths slot e → now' < now + t.config.reverse_lifetime →
          ((consumeReverse t'' (some now') (truncatedHash packet_hash) outbound).1 =
              .matched received ↔
            ∀ j f, j < slot →
              findReverse t''.reverse_paths (truncatedHash packet_hash) = some (j, f) →
              now' < f.expires_at ∧ f.outbound_interface_id = outbound ∧
                f.received_interface_id = received)) := by
  intro t
  have hsized : Sized t :=
    invariant (fun t call ht _ => ht.of_shape (shape_transportStep crypto t call))
      (init_sized h₀) (each_true calls)
  constructor
  · intro now link_id path received hops t' tr hrecord
    obtain ⟨slot, e, n, hn, hlt, rfl, rfl, rfl, hdeadline⟩ :=
      recordLinkRequestTransaction_eq_some hrecord
    cases hn
    replace hlt := hlt hsized.links_ne_nil
    have hholds : Holds (t.links.set slot (some e)) slot e := holds_set_self hlt
    refine ⟨slot, e, rfl, hholds, fun now' => ?_⟩
    rw [linkLookup_eq_some_iff, findLink_eq_iff hholds, hdeadline, and_comm]
    -- A slot before the one written holds what it held.
    have hbefore : ∀ j f, j < slot →
        (Holds (t.links.set slot (some e)) j f ↔ Holds t.links j f) := by
      intro j f hj
      simp [holds_set, hj.ne]
    refine and_congr_right fun _ => forall₂_congr fun j f => forall_congr' fun hj => ?_
    rw [hbefore j f hj]
  · intro now packet_hash received outbound t' tr hrecord
    obtain ⟨slot, n, hn, hlt, rfl, rfl⟩ := recordReverseTransaction_eq_some hrecord
    cases hn
    refine ⟨slot, _, rfl, holds_set_self (hlt hsized.reverse_ne_nil), ?_⟩
    intro later now' t'' hholds hlive
    rw [consumeReverse_matched_iff]
    exact find_satisfies_iff hholds (by simp) ⟨hlive, rfl, rfl⟩

/-- A path over interface 7, one hop long, to a destination whose identity is known. -/
def knownPath : PathEntry :=
  { pathEntry smallConfig 0 pathToSeven [] with identity_public_key := some (zero 64) }

/-- The id of the link in the runs below. -/
def linkOne : Octets 16 := ofList 16 [1]

/-- The hash of the packet in the runs below. -/
def packetOne : Octets 32 := ofList 32 [1]

/-- Both routes are found behind those of another link and another packet. -/
theorem recorded_routes_found_iff_behind :
    let t := final (transportStep plainCrypto) smallTransport
      [.recordLinkRequest (some 0) (zero 16) knownPath 6 1,
        .recordReverse (some 0) (zero 32) 6 7]
    (∃ t' tr e, recordLinkRequestTransaction t (some 0) linkOne knownPath 5 1 = some (t', tr) ∧
        Holds t'.links 1 e ∧ (linkLookup t' (some 1) linkOne).1 = some (1, e)) ∧
    ∃ t' tr, recordReverseTransaction t (some 0) packetOne 5 7 = some (t', tr) ∧
      (consumeReverse t' (some 1) (truncatedHash packetOne) 7).1 = .matched 5 := by
  intro t
  obtain ⟨hlink, hreverse⟩ := recorded_routes_found_iff plainCrypto init_smallConfig
    [.recordLinkRequest (some 0) (zero 16) knownPath 6 1,
      .recordReverse (some 0) (zero 32) 6 7]
  constructor
  · obtain ⟨slot, e, hslot, hholds, hfound⟩ := hlink 0 linkOne knownPath 5 1 _ _ rfl
    obtain rfl : 1 = slot := .trans (by decide +kernel) (Transaction.link.inj hslot).1
    refine ⟨_, _, e, rfl, hholds, (hfound 1).2 ⟨by decide +kernel, ?_⟩⟩
    intro j f hj hf
    obtain rfl := Nat.lt_one_iff.mp hj
    cases hf
    decide
  · obtain ⟨slot, e, hslot, hholds, hfound⟩ := hreverse 0 packetOne 5 7 _ _ rfl
    obtain rfl : 1 = slot := .trans (by decide +kernel) (Transaction.reverse.inj hslot).1
    refine ⟨_, _, rfl, (hfound [] 1 hholds (by decide +kernel)).2 ?_⟩
    intro j f hj hf
    obtain rfl := Nat.lt_one_iff.mp hj
    have hfirst : (findReverse _ _).map Prod.fst = some 0 := congrArg (Option.map Prod.fst) hf
    exact absurd hfirst (by decide +kernel)

/-- A retransmission recorded while its older twin is in the table is not found: the lookup returns
the older request, which came in on another interface, and the proof goes back where the older
packet came from, or nowhere once the older entry has expired. -/
theorem older_twin_found : init smallConfig = some smallTransport ∧
    (let t := final (transportStep plainCrypto) smallTransport
      [.recordLinkRequest (some 0) linkOne knownPath 5 1]
     let t' := transportStep plainCrypto t (.recordLinkRequest (some 1) linkOne knownPath 6 1)
     (recordLinkRequestTransaction t (some 1) linkOne knownPath 6 1).isSome = true ∧
     (t'.links.map fun x => x.map LinkEntry.received_interface_id) = [some 5, some 6] ∧
     ((linkLookup t' (some 1) linkOne).1.map fun x => (x.1, x.2.received_interface_id)) =
       some (0, 5)) ∧
    (let t := final (transportStep plainCrypto) smallTransport
      [.recordReverse (some 0) packetOne 5 7, .recordReverse (some 50) packetOne 6 7]
     (t.reverse_paths.map fun x => x.map fun e => (e.received_interface_id, e.expires_at)) =
       [some (5, 100), some (6, 150)] ∧
     (consumeReverse t (some 60) (truncatedHash packetOne) 7).1 = .matched 5 ∧
     (consumeReverse t (some 120) (truncatedHash packetOne) 7).1 = .missing) := by
  refine ⟨init_smallConfig, ?_⟩
  decide +kernel

/-! ## Validated links along a run -/

/-- The reading of the clock at a call. -/
def RouteCall.now : RouteCall → Option ℚ
  | .acceptPacketHash now _ | .consumeReverse now _ _ | .linkLookup now _ | .forgetLink now _ => now

/-- The readings of the clock at a call, in order. -/
def TransportCall.readings : TransportCall → List (Option ℚ)
  | .path call => [call.now]
  | .route call => [call.now]
  | .recordReverse now _ _ _ | .recordLinkRequest now _ _ _ _ => [now]
  | .acceptLinkProof now now' _ _ _ _ | .routeLink now now' _ _ _ => [now, now']
  | .rollback _ => []

/-- The readings of the clock in a run that are finite never fall, from `start` to `stop`. -/
def ClockRises (start : ℚ) (calls : List TransportCall) (stop : ℚ) : Prop :=
  (start :: (calls.flatMap TransportCall.readings).reduceOption ++ [stop]).Pairwise (· ≤ ·)

instance (start : ℚ) (calls : List TransportCall) (stop : ℚ) :
    Decidable (ClockRises start calls stop) :=
  inferInstanceAs (Decidable (List.Pairwise _ _))

/-- The call neither evicts the link in the slot nor forgets it nor undoes a change to it. -/
def Spares (slot : ℕ) (t : State) : TransportCall → Prop
  | .recordLinkRequest (some now) _ _ _ _ => oldestLinkSlot t.links now ≠ slot
  | .route (.forgetLink now link_id) => ∀ e, (linkLookup t now link_id).1 ≠ some (slot, e)
  | .rollback (.link i _) => i ≠ slot
  | _ => True

/-- The slot holds the link, or it is free and the link has expired at `now`. -/
def LiveUntil (slot : ℕ) (link : LinkEntry) (now : ℚ) (links : List (Option LinkEntry)) : Prop :=
  (∃ updated_at, Holds links slot { link with updated_at }) ∨
    (∀ e, ¬ Holds links slot e) ∧ link.expires_at ≤ now

section LiveUntil

variable {slot : ℕ} {link : LinkEntry} {now : ℚ} {links : List (Option LinkEntry)}

variable (h : LiveUntil slot link now links)
include h

/-- Another slot may be written. -/
theorem LiveUntil.set_ne {i : ℕ} (hi : i ≠ slot)
    (x : Option LinkEntry) : LiveUntil slot link now (links.set i x) := by
  have hslot : ∀ e, Holds (links.set i x) slot e ↔ Holds links slot e := by
    intro e
    simp [holds_set, hi.symm]
  unfold LiveUntil
  simp only [hslot]
  exact h

/-- The slot may be freed when its entry has died. -/
theorem LiveUntil.set_none (hvalidated : link.validated = true)
    {i : ℕ} {e : LinkEntry} (hi : Holds links i e) (hdead : e.deadline ≤ now) :
    LiveUntil slot link now (links.set i none) := by
  by_cases his : i = slot
  · subst his
    refine .inr ⟨fun f hf => by simp [holds_set] at hf, ?_⟩
    obtain ⟨u, hu⟩ | ⟨hfree, hexpired⟩ := h
    · rw [hi.unique hu] at hdead
      simpa [LinkEntry.deadline, hvalidated] using hdead
    · exact hexpired
  · exact h.set_ne his none

/-- A sweep frees the slot only when its entry has died. -/
theorem LiveUntil.sweep (hvalidated : link.validated = true) {m : ℚ} (hm : m ≤ now) :
    LiveUntil slot link now (sweep (fun e => decide (m ≥ e.deadline)) links) := by
  obtain ⟨u, hu⟩ | ⟨hfree, hexpired⟩ := h
  · by_cases hdead : m ≥ link.expires_at
    · refine .inr ⟨fun f hf => ?_, hdead.le.trans hm⟩
      obtain ⟨hf, hlive⟩ := holds_sweep.1 hf
      rw [hf.unique hu] at hlive
      simp [LinkEntry.deadline, hvalidated, hdead] at hlive
    · refine .inl ⟨u, holds_sweep.2 ⟨hu, ?_⟩⟩
      simpa [LinkEntry.deadline, hvalidated] using hdead
  · exact .inr ⟨fun f hf => hfree f (holds_sweep.1 hf).1, hexpired⟩

end LiveUntil

/-- Path calls leave the link table alone, apart from the sweep. -/
theorem links_pathStep (t : State) (call : PathCall) : (pathStep t call).links = t.links ∨
      ∃ now, call.now = some now ∧
        (pathStep t call).links = sweep (fun e => decide (now ≥ e.deadline)) t.links := by
  have hlookup : ∀ now d, (lookup t now d).2.links = t.links := by
    intro now d
    rcases lookup_cases t now d with ⟨i, e, -, h⟩ | h | ⟨i, h⟩ <;> rw [h]
  have hupdate : ∀ now d change, (updatePath t now d change).2.links = t.links := by
    intro now d change
    rcases updatePath_cases t now d change with ⟨i, e, -, h⟩ | h
    · rw [h]
    · rw [h]
      exact hlookup now d
  cases call with
  | considerAnnounce now a =>
    left
    rcases considerAnnounce_cases t now a with h | ⟨n, i, e, old, -, -, -, -, h⟩ | ⟨n, -, -, h⟩ <;>
      simp [pathStep, h]
  | markUnresponsive now d => exact .inl (hupdate now d _)
  | setPathIdentity now d key => exact .inl (hupdate now d _)
  | lookup now d => exact .inl (hlookup now d)
  | expire now =>
    rcases now with _ | now
    · exact .inl rfl
    · exact .inr ⟨now, rfl, rfl⟩

section Calls

variable {slot : ℕ} {link : LinkEntry} {now : ℚ} {t : State}
  (h : LiveUntil slot link now t.links) (hvalidated : link.validated = true)
include h hvalidated

/-- A lookup removes a dead entry at most. -/
theorem linkLookup_liveUntil {m : Option ℚ} (hm : ∀ n, m = some n → n ≤ now)
    (link_id : Octets 16) : LiveUntil slot link now (linkLookup t m link_id).2.links := by
  rcases linkLookup_cases t m link_id with ⟨i, e, -, hl⟩ | hl | ⟨n, i, e, hn, hi, hdead, hl⟩
  all_goals rw [hl]
  · exact h
  · exact h
  · exact h.set_none hvalidated hi (hdead.trans (hm n hn))

/-- The calls that are not on the path table. -/
theorem routeStep_liveUntil (call : RouteCall) (hm : ∀ n, call.now = some n → n ≤ now)
    (hspares : Spares slot t (.route call)) : LiveUntil slot link now (routeStep t call).links := by
  cases call with
  | acceptPacketHash m packet_hash =>
    have hlinks : (acceptPacketHash t m packet_hash).2.links = t.links := by
      rcases m with _ | m
      · rfl
      · rcases acceptPacketHash_cases t m packet_hash with ⟨-, heq⟩ | ⟨-, heq⟩ <;> rw [heq]
    show LiveUntil slot link now (acceptPacketHash t m packet_hash).2.links
    rw [hlinks]
    exact h
  | consumeReverse m packet_hash ingress =>
    show LiveUntil slot link now (consumeReverse t m packet_hash ingress).2.links
    obtain heq | ⟨i, heq⟩ := consumeReverse_eq t m packet_hash ingress
    all_goals
      rw [heq]
      exact h
  | linkLookup m link_id => exact linkLookup_liveUntil h hvalidated hm link_id
  | forgetLink m link_id =>
    have hafter := @linkLookup_liveUntil slot link now t h hvalidated m hm link_id
    dsimp only [routeStep, forgetLink]
    rcases hl : linkLookup t m link_id with ⟨_ | ⟨i, e⟩, t'⟩
    all_goals rw [hl] at hafter
    · exact hafter
    · refine hafter.set_ne ?_ none
      rintro rfl
      exact hspares e (congrArg Prod.fst hl)

/-- The link lives on in its slot through a call that spares it. -/
theorem transportStep_liveUntil (crypto : Crypto) (call : TransportCall)
    (hclock : ∀ n, some n ∈ call.readings → n ≤ now) (hspares : Spares slot t call) :
    LiveUntil slot link now (transportStep crypto t call).links := by
  cases call with
  | path call =>
    simp only [transportStep]
    obtain heq | ⟨m, hm, heq⟩ := links_pathStep t call
    · rwa [heq]
    · rw [heq]
      exact h.sweep hvalidated (hclock m (by simp [TransportCall.readings, hm]))
  | route call =>
    exact routeStep_liveUntil h hvalidated call
      (fun n hn => hclock n (by simp [TransportCall.readings, hn])) hspares
  | recordReverse m packet_hash received outbound =>
    rcases m with _ | m <;> exact h
  | recordLinkRequest m link_id path received hops =>
    simp only [transportStep, recordLinkRequestTransaction]
    split
    · exact h.set_ne hspares _
    · exact h
  | acceptLinkProof m m' link_id proof ingress hops =>
    show LiveUntil slot link now
      (acceptLinkProofTransaction crypto t m m' link_id proof ingress hops).2.1.links
    obtain ⟨i, e, n, -, hi, hnew, -, heq⟩ | ⟨-, heq⟩ :=
      acceptLinkProofTransaction_cases crypto t m m' link_id proof ingress hops
    · -- The proof of a link that is validated is refused, so a match is in another slot.
      rw [heq]
      refine h.set_ne ?_ _
      rintro rfl
      obtain ⟨u, hu⟩ | ⟨hfree, -⟩ := h
      · rw [hi.unique hu, hvalidated] at hnew
        cases hnew
      · exact hfree e hi
    · rw [heq]
      exact linkLookup_liveUntil h hvalidated
        (fun n hn => hclock n (by simp [TransportCall.readings, hn])) link_id
  | routeLink m m' link_id ingress hops =>
    show LiveUntil slot link now (routeLinkTransaction t m m' link_id ingress hops).2.1.links
    obtain ⟨i, e, f, hi, heq⟩ | ⟨-, heq⟩ :=
      routeLinkTransaction_cases t m m' link_id ingress hops
    · -- A packet over the link changes the time of its last packet and nothing else.
      rw [heq]
      by_cases his : i = slot
      · subst his
        obtain ⟨u, hu⟩ | ⟨hfree, -⟩ := h
        · rw [hi.unique hu]
          exact .inl ⟨m', holds_set_self hi.lt⟩
        · exact absurd hi (hfree e)
      · exact h.set_ne his _
    · rw [heq]
      exact linkLookup_liveUntil h hvalidated
        (fun n hn => hclock n (by simp [TransportCall.readings, hn])) link_id
  | rollback transaction =>
    cases transaction with
    | none => exact h
    | reverse i previous =>
      simp only [transportStep, transactionRollback]
      split_ifs <;> exact h
    | link i previous =>
      simp only [transportStep, transactionRollback]
      split_ifs
      · exact h
      · exact h.set_ne hspares previous

end Calls

/-- All readings of a run whose clock never falls are at most the last one. -/
theorem ClockRises.le {start stop : ℚ} {calls : List TransportCall}
    (h : ClockRises start calls stop) : ∀ call ∈ calls, ∀ n, some n ∈ call.readings → n ≤ stop := by
  intro call hcall n hn
  refine (pairwise_append.1 h).2.2 n ?_ stop (by simp)
  refine mem_cons_of_mem _ (reduceOption_mem_iff.2 ?_)
  exact mem_flatMap.2 ⟨call, hcall, hn⟩

/-- The link lives on in its slot along a run that spares it. -/
theorem run_liveUntil {slot : ℕ} {link : LinkEntry} (hvalidated : link.validated = true)
    {start stop : ℚ} {calls : List TransportCall} (h : LiveUntil slot link stop t.links)
    (hclock : ClockRises start calls stop)
    (hspares : Run.Each (transportStep crypto) (Spares slot) t calls) :
    LiveUntil slot link stop (final (transportStep crypto) t calls).links := by
  let Lives (s : State) : Prop := LiveUntil slot link stop s.links
  have hstep : ∀ s call, Lives s → (∀ n, some n ∈ call.readings → n ≤ stop) ∧ Spares slot s call →
      Lives (transportStep crypto s call) := fun s call hs hok =>
    transportStep_liveUntil hs hvalidated crypto call hok.1 hok.2
  have hrun : Lives (final (transportStep crypto) t calls) :=
    invariant hstep h ((each_of_mem hclock.le).and hspares)
  exact hrun

/-- The entry of a link once its proof is accepted. -/
def LinkEntry.accepted (entry : LinkEntry) (now link_lifetime : ℚ) : LinkEntry :=
  { entry with validated := true, updated_at := some now, expires_at := now + link_lifetime }

/-- A proof that is accepted validates the entry that the lookup returns, in its slot. -/
theorem acceptLinkProofTransaction_matched {crypto : Crypto} {t' : State} {now : Option ℚ}
    {start : ℚ} {proof : List UInt8} {forward : UInt64} {hops : UInt8} {tr : Transaction}
    (h : acceptLinkProofTransaction crypto t now (some start) link_id proof ingress hops =
      (.matched forward, t', tr)) : ∃ slot e, tr = .link slot (some e) ∧ e.link_id = link_id ∧
      Holds t'.links slot (e.accepted start t.config.link_lifetime) := by
  obtain ⟨slot, e, n, hl, hi, -, hn, heq⟩ | ⟨hnot, -⟩ :=
    acceptLinkProofTransaction_cases crypto t now (some start) link_id proof ingress hops
  · cases hn
    rw [h] at heq
    obtain ⟨-, rfl, rfl⟩ : _ ∧ t' = _ ∧ tr = _ := by simpa using heq
    exact ⟨slot, e, rfl, linkLookup_link_id (by rw [hl]), holds_set_self hi.lt⟩
  · rw [h] at hnot
    exact absurd rfl (hnot forward)

/-- A link is routed both ways from the acceptance of its proof to its expiry exactly when its two
interfaces differ or its two hop counts agree, and the entry that the table has for the link in a
slot before it, if there is one, is live, validated and leads the same ways. -/
theorem link_routed_both_ways_iff (crypto : Crypto) {t t' : State} {now : Option ℚ} {start : ℚ}
    {link_id : Octets 16} {proof : List UInt8} {ingress forward : UInt64} {hops : UInt8}
    {tr : Transaction}
    (haccept : acceptLinkProofTransaction crypto t now (some start) link_id proof ingress hops =
      (.matched forward, t', tr)) : ∃ slot e, tr = .link slot (some e) ∧
    ∀ later stop stop', ClockRises start later stop →
      Run.Each (transportStep crypto) (Spares slot) t' later →
      stop < start + t.config.link_lifetime →
      let t'' := final (transportStep crypto) t' later
      ((routeLinkTransaction t'' (some stop) stop' link_id e.received_interface_id
          e.taken_hops).1 = .matched e.next_hop_interface_id ∧
        (routeLinkTransaction t'' (some stop) stop' link_id e.next_hop_interface_id
          e.remaining_hops).1 = .matched e.received_interface_id ↔
      (e.received_interface_id ≠ e.next_hop_interface_id ∨ e.taken_hops = e.remaining_hops) ∧
        ∀ j f, j < slot → findLink t''.links link_id = some (j, f) →
          stop < f.deadline ∧ f.validated = true ∧
          linkDirection f e.received_interface_id = linkDirection e e.received_interface_id ∧
          linkDirection f e.next_hop_interface_id =
            linkDirection e e.next_hop_interface_id) := by
  obtain ⟨slot, e, rfl, hid, hheld⟩ := acceptLinkProofTransaction_matched haccept
  refine ⟨slot, e, rfl, ?_⟩
  intro later stop stop' hclock hspares hlive t''
  have hrun : LiveUntil slot (e.accepted start t.config.link_lifetime) stop t''.links :=
    run_liveUntil crypto rfl (Or.inl ⟨some start, hheld⟩) hclock hspares
  obtain ⟨u, hu⟩ | ⟨-, hexpired⟩ := hrun
  swap
  · exact absurd hlive (not_lt.2 hexpired)
  -- The entry leads the ways it was recorded with, and is live.
  have hsame := find_satisfies_iff hu (p := fun f => decide (f.link_id = link_id))
    (P := fun f => stop < f.deadline ∧ f.validated = true ∧
      linkDirection f e.received_interface_id = linkDirection e e.received_interface_id ∧
      linkDirection f e.next_hop_interface_id = linkDirection e e.next_hop_interface_id)
    (by simp [LinkEntry.accepted, hid])
    ⟨by simpa [LinkEntry.deadline, LinkEntry.accepted] using hlive, rfl, rfl, rfl⟩
  refine Iff.trans ?_ (and_congr_right' hsame)
  simp only [routeLinkTransaction_matched_iff, linkLookup_eq_some_iff]
  have hreceived : linkDirection e e.received_interface_id =
      some (e.taken_hops, e.next_hop_interface_id) := by simp [linkDirection]
  rw [hreceived, ← linkDirection_next_hop_iff]
  constructor
  · rintro ⟨⟨i, f, ⟨hf, hflive⟩, hfv, hto⟩, ⟨i', f', ⟨hf', -⟩, -, hfrom⟩⟩
    obtain ⟨rfl, rfl⟩ := Prod.mk.inj (Option.some.inj (hf.symm.trans hf'))
    have hboth : linkDirection e e.next_hop_interface_id =
        some (e.remaining_hops, e.received_interface_id) := by
      rw [linkDirection_next_hop_iff]
      by_cases hsame : e.received_interface_id = e.next_hop_interface_id
      · rw [← hsame, hto] at hfrom
        exact Or.inr (Prod.mk.inj (Option.some.inj hfrom)).1
      · exact Or.inl hsame
    exact ⟨hboth, i, f, hf, hflive, hfv, hto, hfrom.trans hboth.symm⟩
  · rintro ⟨hboth, i, f, hf, hflive, hfv, hto, hfrom⟩
    exact ⟨⟨i, f, ⟨hf, hflive⟩, hfv, hto⟩, ⟨i, f, ⟨hf, hflive⟩, hfv, hfrom.trans hboth⟩⟩

/-- A transport with a link over two interfaces, or over one, whose proof is awaited. -/
def awaitingProof (received_interface_id : UInt64) : State :=
  final (transportStep plainCrypto) smallTransport
    [.recordLinkRequest (some 0) linkOne knownPath received_interface_id 2]

/-- The outcome of the proof. -/
def proofAccepted (received_interface_id : UInt64) : LinkRouteResult × State × Transaction :=
  acceptLinkProofTransaction plainCrypto (awaitingProof received_interface_id) (some 1) (some 1)
    linkOne (replicate 99 0) 7 1

/-- Between interfaces 5 and 7 the link is routed both ways. -/
theorem link_routed_both_ways_iff_two_interfaces :
    (routeLinkTransaction (proofAccepted 5).2.1 (some 2) (some 2) linkOne 5 2).1 = .matched 7 ∧
    (routeLinkTransaction (proofAccepted 5).2.1 (some 2) (some 2) linkOne 7 1).1 = .matched 5 := by
  have haccept : proofAccepted 5 =
      (.matched 5, (proofAccepted 5).2.1, .link 0 ((awaitingProof 5).links[0]?.join)) := by
    decide +kernel
  obtain ⟨slot, e, htr, hiff⟩ := link_routed_both_ways_iff plainCrypto haccept
  obtain ⟨rfl, he⟩ : 0 = slot ∧ (awaitingProof 5).links[0]?.join = some e := by simpa using htr
  have hfields : e.received_interface_id = 5 ∧ e.taken_hops = 2 ∧ e.next_hop_interface_id = 7 ∧
      e.remaining_hops = 1 := by
    have hall : ∀ x ∈ (awaitingProof 5).links[0]?.join, x.received_interface_id = 5 ∧
        x.taken_hops = 2 ∧ x.next_hop_interface_id = 7 ∧ x.remaining_hops = 1 := by decide +kernel
    exact hall e he
  obtain ⟨hreceived, htaken, hnext, hremaining⟩ := hfields
  have hboth := (hiff [] 2 (some 2) (by decide +kernel) trivial (by decide +kernel)).2
    ⟨Or.inl (by rw [hreceived, hnext]; decide), fun j f hj => absurd hj (Nat.not_lt_zero j)⟩
  rw [hreceived, htaken, hnext, hremaining] at hboth
  exact hboth

/-- Over one interface, with two hops on one side and one on the other, packets from the far side
are refused. -/
theorem one_interface_one_way :
    init smallConfig = some smallTransport ∧ (proofAccepted 7).1 = .matched 7 ∧
    ((proofAccepted 7).2.1.links.map fun x => x.map fun e =>
      (e.received_interface_id, e.next_hop_interface_id, e.taken_hops, e.remaining_hops)) =
        [some (7, 7, 2, 1), none] ∧
    (routeLinkTransaction (proofAccepted 7).2.1 (some 2) (some 2) linkOne 7 2).1 = .matched 7 ∧
    (routeLinkTransaction (proofAccepted 7).2.1 (some 2) (some 2) linkOne 7 1).1 = .wrongHops := by
  refine ⟨init_smallConfig, ?_⟩
  decide +kernel

/-- How long a link stays routable, whatever was routed over it. After a run that spares the link, a
packet misses it exactly when the link has expired, `link_lifetime` after the acceptance of its
proof, or an entry of the link in a slot before it hides it; and then no other live entry of the
link is found. -/
theorem link_routable_iff (crypto : Crypto) {t t' : State} {now : Option ℚ} {start : ℚ}
    {link_id : Octets 16} {proof : List UInt8} {ingress forward : UInt64} {hops : UInt8}
    {tr : Transaction}
    (haccept : acceptLinkProofTransaction crypto t now (some start) link_id proof ingress hops =
      (.matched forward, t', tr)) : ∃ slot e, tr = .link slot (some e) ∧
    ∀ later stop stop' ingress' hops', ClockRises start later stop →
      Run.Each (transportStep crypto) (Spares slot) t' later →
      let t'' := final (transportStep crypto) t' later
      ((routeLinkTransaction t'' (some stop) stop' link_id ingress' hops').1 ≠ .missing ↔
        stop < start + t.config.link_lifetime ∧
          (∀ j f, j < slot → Holds t''.links j f → f.link_id ≠ link_id) ∨
        ∃ j f, j ≠ slot ∧ findLink t''.links link_id = some (j, f) ∧ stop < f.deadline) := by
  obtain ⟨slot, e, rfl, rfl, hheld⟩ := acceptLinkProofTransaction_matched haccept
  refine ⟨slot, e, rfl, ?_⟩
  intro later stop stop' ingress' hops' hclock hspares t''
  have hrun : LiveUntil slot (e.accepted start t.config.link_lifetime) stop t''.links :=
    run_liveUntil crypto rfl (Or.inl ⟨some start, hheld⟩) hclock hspares
  -- A packet does not miss the link when the entry found is live.
  have hmissing : (routeLinkTransaction t'' (some stop) stop' e.link_id ingress' hops').1 ≠
      .missing ↔ ∃ j f, findLink t''.links e.link_id = some (j, f) ∧ stop < f.deadline := by
    have hlookup : (routeLinkTransaction t'' (some stop) stop' e.link_id ingress' hops').1 =
        .missing ↔ (linkLookup t'' (some stop) e.link_id).1 = none := by
      unfold routeLinkTransaction
      rcases linkLookup t'' (some stop) e.link_id with ⟨_ | ⟨i, e⟩, t'⟩
      · simp
      · dsimp only
        split_ifs
        · simp
        · rcases linkDirection e ingress' with _ | ⟨expected, f⟩
          · simp
          · dsimp only
            split_ifs <;> simp
    rw [Ne, hlookup, ← Ne, Option.ne_none_iff_exists']
    simp [linkLookup_eq_some_iff]
  rw [hmissing]
  -- The entry found in the slot is the link, which lives until its expiry.
  have hslot : (∃ f, findLink t''.links e.link_id = some (slot, f) ∧ stop < f.deadline) ↔
      stop < start + t.config.link_lifetime ∧
        ∀ j f, j < slot → Holds t''.links j f → f.link_id ≠ e.link_id := by
    obtain ⟨u, hu⟩ | ⟨hfree, hexpired⟩ := hrun
    · have hfirst := findLink_eq_iff hu
      constructor
      · rintro ⟨f, hf, hlive⟩
        obtain rfl := (findLink_eq_some hf).1.unique hu
        exact ⟨hlive, hfirst.1 hf⟩
      · rintro ⟨hlive, hnone⟩
        exact ⟨_, hfirst.2 hnone, hlive⟩
    · constructor
      · rintro ⟨f, hf, -⟩
        exact absurd (findLink_eq_some hf).1 (hfree f)
      · rintro ⟨hlive, -⟩
        exact absurd hlive (not_lt.2 hexpired)
  rw [← hslot]
  constructor
  · rintro ⟨j, f, hf, hlive⟩
    by_cases hj : j = slot
    · subst hj
      exact Or.inl ⟨f, hf, hlive⟩
    · exact Or.inr ⟨j, f, hj, hf, hlive⟩
  · rintro (⟨f, hf, hlive⟩ | ⟨j, f, -, hf, hlive⟩)
    · exact ⟨slot, f, hf, hlive⟩
    · exact ⟨j, f, hf, hlive⟩

/-- Within the lifetime a packet does not miss the link. -/
theorem link_routable_iff_within_lifetime :
    (routeLinkTransaction (final (transportStep plainCrypto) (proofAccepted 5).2.1
      [.routeLink (some 60) (some 60) linkOne 5 2]) (some 100) (some 100) linkOne 5 2).1 ≠
        .missing := by
  have haccept : proofAccepted 5 =
      (.matched 5, (proofAccepted 5).2.1, .link 0 ((awaitingProof 5).links[0]?.join)) := by
    decide +kernel
  obtain ⟨slot, e, htr, hiff⟩ := link_routable_iff plainCrypto haccept
  obtain ⟨rfl, -⟩ : 0 = slot ∧ _ := by simpa using htr
  refine (hiff [.routeLink (some 60) (some 60) linkOne 5 2] 100 (some 100) 5 2 (by decide +kernel)
    ⟨trivial, trivial⟩).2 (Or.inl ⟨by decide +kernel, ?_⟩)
  intro j f hj
  exact absurd hj (Nat.not_lt_zero j)

/-- A link with a lifetime of 100, validated at 1 and used at 60, is missing at 110. -/
theorem active_link_missing :
    init smallConfig = some smallTransport ∧ (proofAccepted 5).1 = .matched 5 ∧
    (let used := routeLinkTransaction (proofAccepted 5).2.1 (some 60) (some 60) linkOne 5 2
     used.1 = .matched 7 ∧
     (routeLinkTransaction used.2.1 (some 110) (some 110) linkOne 5 2).1 = .missing) := by
  refine ⟨init_smallConfig, ?_⟩
  decide +kernel

end Reticulum.Transport
