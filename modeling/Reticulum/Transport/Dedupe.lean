import Reticulum.Base.Run
import Reticulum.Transport.Model

/-!
# How long a packet hash is remembered

The calls on the duplicate table as a machine that keeps a log of the hashes it accepted, each with
the reading of the clock. `duplicate_suppression` says for every run with a clock that does not go
backwards when a hash is refused and when it is accepted.

An entry leaves the table when it expires or when it is the first one with the least `seen_at` of a
full table. Every other entry is then at least as young, so it was accepted later, or at the same
reading of the clock: a table full of later acceptances is what the capacity is for
(`Remembers.evict`), while an earlier acceptance at the same reading may outlive a later one, as in
`evicted_by_one_acceptance`.
-/

namespace Reticulum.Transport

open List Slots

/-- The scan finds the hash exactly when a live entry has it. -/
theorem dedupeScan_eq_true_iff (now : ℚ) (packet_hash : Octets 32)
    (entries : List (Option DedupeEntry)) : (dedupeScan now packet_hash entries).1 = true ↔
      ∃ e, some e ∈ entries ∧ now < e.expires_at ∧ e.packet_hash = packet_hash := by
  induction entries with
  | nil => simp [dedupeScan]
  | cons x entries ih =>
    rcases x with _ | e
    · simpa [dedupeScan] using ih
    · by_cases hexp : now ≥ e.expires_at
      · simp [dedupeScan, hexp, ih]
      · by_cases hhash : e.packet_hash = packet_hash
        · simp only [dedupeScan, hexp, hhash, if_false, if_true, true_iff]
          exact ⟨e, by simp, not_le.1 hexp, hhash⟩
        · simp [dedupeScan, hexp, hhash, ih]

variable {packet_hash : Octets 32} {config : Config}

/-- When it does not find the hash, the scan has cleared the expired entries. -/
theorem dedupeScan_eq_sweep {now : ℚ} {entries : List (Option DedupeEntry)}
    (h : (dedupeScan now packet_hash entries).1 = false) : (dedupeScan now packet_hash entries).2 =
      sweep (fun e => decide (now ≥ e.expires_at)) entries := by
  induction entries with
  | nil => rfl
  | cons x entries ih =>
    rcases x with _ | e
    · simp only [dedupeScan] at h ⊢
      rw [ih h]
      rfl
    · by_cases hexp : now ≥ e.expires_at
      · simp only [dedupeScan, hexp, if_true] at h ⊢
        rw [ih h]
        simp [sweep, Option.filter_some, hexp]
      · by_cases hhash : e.packet_hash = packet_hash
        · simp [dedupeScan, hexp, hhash] at h
        · simp only [dedupeScan, hexp, hhash, if_false] at h ⊢
          rw [ih h]
          simp [sweep, Option.filter_some, not_le.1 hexp]

/-- The scan adds and changes nothing, and keeps the live entries. -/
theorem holds_dedupeScan {now : ℚ} {entries : List (Option DedupeEntry)} {i : ℕ} {e : DedupeEntry} :
    (Holds (dedupeScan now packet_hash entries).2 i e → Holds entries i e) ∧
      (Holds entries i e → now < e.expires_at →
        Holds (dedupeScan now packet_hash entries).2 i e) := by
  induction entries generalizing i with
  | nil => simp [dedupeScan, Holds]
  | cons x entries ih =>
    rcases x with _ | b
    · rcases i with _ | i
      · simp [dedupeScan]
      · simpa [dedupeScan] using ih
    · by_cases hexp : now ≥ b.expires_at
      · rcases i with _ | i
        · simp only [dedupeScan, hexp, if_true, holds_cons_zero, reduceCtorEq,
            false_implies, true_and, Option.some.injEq]
          rintro rfl hlive
          exact absurd hlive (not_lt.2 hexp)
        · simpa [dedupeScan, hexp] using ih
      · by_cases hhash : b.packet_hash = packet_hash
        · simp only [dedupeScan, hexp, hhash, if_false, if_true]
          exact ⟨id, fun h _ => h⟩
        · rcases i with _ | i
          · simp only [dedupeScan, hexp, hhash, if_false, holds_cons_zero]
            exact ⟨id, fun h _ => h⟩
          · simpa [dedupeScan, hexp, hhash] using ih

/-- The scan keeps the slots of the table. -/
theorem length_dedupeScan (now : ℚ) (packet_hash : Octets 32)
    (entries : List (Option DedupeEntry)) :
    (dedupeScan now packet_hash entries).2.length = entries.length := by
  induction entries with
  | nil => rfl
  | cons x entries ih =>
    rcases x with _ | e
    · simp [dedupeScan, ih]
    · simp only [dedupeScan]
      split_ifs <;> simp [ih]

/-- The outcomes of `rns_transport_accept_packet_hash` at a finite reading: a live entry has the
hash and the call refuses it, or none has and the hash takes a slot of the table without its expired
entries. -/
theorem acceptPacketHash_cases (t : State) (now : ℚ) (packet_hash : Octets 32) :
    ((∃ i e, Holds t.dedupe i e ∧ now < e.expires_at ∧ e.packet_hash = packet_hash) ∧
      acceptPacketHash t (some now) packet_hash =
        (false, { t with dedupe := (dedupeScan now packet_hash t.dedupe).2 })) ∨
    ((∀ i e, Holds t.dedupe i e → now < e.expires_at → e.packet_hash ≠ packet_hash) ∧
      acceptPacketHash t (some now) packet_hash =
        (true, { t with
          dedupe := (sweep (fun e => decide (now ≥ e.expires_at)) t.dedupe).set
            (oldestDedupeSlot (sweep (fun e => decide (now ≥ e.expires_at)) t.dedupe))
            (some ⟨packet_hash, now, now + t.config.dedupe_lifetime⟩) })) := by
  have hiff := dedupeScan_eq_true_iff now packet_hash t.dedupe
  rcases hscan : dedupeScan now packet_hash t.dedupe with ⟨_ | _, dedupe⟩
  · have hfalse : (dedupeScan now packet_hash t.dedupe).1 = false := by rw [hscan]
    have hsweep := dedupeScan_eq_sweep hfalse
    rw [hscan] at hsweep hiff
    refine .inr ⟨fun i e hi hlive hhash => ?_, ?_⟩
    · have hmem : some e ∈ t.dedupe := mem_of_getElem? hi
      exact absurd (hiff.2 ⟨e, hmem, hlive, hhash⟩) (by simp)
    · simp only at hsweep
      simp [acceptPacketHash, hscan, hsweep]
  · rw [hscan] at hiff
    obtain ⟨e, hmem, hlive, hhash⟩ := hiff.1 rfl
    obtain ⟨i, hi⟩ := mem_iff_getElem?.1 hmem
    exact .inl ⟨⟨i, e, hi, hlive, hhash⟩, by simp [acceptPacketHash, hscan]⟩

/-! ## Runs -/

/-- A call on the duplicate table, with its reading of the clock. -/
inductive DedupeCall
  | accept (now : Option ℚ) (packet_hash : Octets 32)
  | expire (now : Option ℚ)

/-- The reading of the clock at a call. -/
def DedupeCall.now : DedupeCall → Option ℚ
  | .accept now _ | .expire now => now

/-- A transport with the hashes that it accepted, oldest first and each with the reading of the
clock at which it was accepted, and the latest finite reading. -/
structure Memory where
  transport : State
  log : List (Octets 32 × ℚ)
  latest : Option ℚ

/-- A transport just made. -/
def Memory.start (t : State) : Memory := ⟨t, [], none⟩

/-- What a call does, and what it accepted. -/
def dedupeStep (w : Memory) : DedupeCall → Memory
  | .accept none packet_hash =>
    { w with transport := (acceptPacketHash w.transport none packet_hash).2 }
  | .accept (some now) packet_hash =>
    { transport := (acceptPacketHash w.transport (some now) packet_hash).2
      log := if (acceptPacketHash w.transport (some now) packet_hash).1 then
        w.log ++ [(packet_hash, now)] else w.log
      latest := some now }
  | .expire none => { w with transport := (expire w.transport none).2 }
  | .expire (some now) => { w with transport := (expire w.transport (some now)).2, latest := some now }

/-- The clock does not go backwards. -/
def NonDecreasing (w : Memory) (call : DedupeCall) : Prop :=
  ∀ m n, w.latest = some m → call.now = some n → m ≤ n

/-- The other hashes accepted after the `k`-th acceptance. -/
def others (log : List (Octets 32 × ℚ)) (k : ℕ) (packet_hash : Octets 32) : Finset (Octets 32) :=
  ((log.drop (k + 1)).map Prod.fst).toFinset.erase packet_hash

/-- The other hashes accepted since a hash was, at the reading `seen`: those accepted after it, and
those accepted before it at that very reading. -/
def othersSince (log : List (Octets 32 × ℚ)) (packet_hash : Octets 32) (seen : ℚ) :
    Finset (Octets 32) :=
  ((log.filter fun x => seen ≤ x.2).map Prod.fst).toFinset.erase packet_hash

/-- What was accepted since a reading of the clock. -/
theorem mem_othersSince {log : List (Octets 32 × ℚ)} {seen : ℚ} {g : Octets 32} :
    g ∈ othersSince log packet_hash seen ↔ g ≠ packet_hash ∧ ∃ s, (g, s) ∈ log ∧ seen ≤ s := by
  simp [othersSince]

/-- Later there are no fewer others. -/
theorem othersSince_append (log : List (Octets 32 × ℚ)) (x : Octets 32 × ℚ) (seen : ℚ) :
    othersSince log packet_hash seen ⊆ othersSince (log ++ [x]) packet_hash seen := by
  intro g hg
  obtain ⟨hne, s, hs, hle⟩ := mem_othersSince.1 hg
  exact mem_othersSince.2 ⟨hne, s, mem_append_left _ hs, hle⟩

/-- What a run keeps: the table holds logged acceptances of different hashes, the log is in the
order of time, and a live acceptance is in the table or `capacity` others were accepted since. -/
structure Remembers (config : Config) (w : Memory) : Prop where
  config_eq : w.transport.config = config
  length : w.transport.dedupe.length = config.dedupe_capacity
  distinct : DistinctKeys DedupeEntry.packet_hash w.transport.dedupe
  logged : ∀ i e, Holds w.transport.dedupe i e →
    e.expires_at = e.seen_at + config.dedupe_lifetime ∧ (e.packet_hash, e.seen_at) ∈ w.log
  ordered : w.log.Pairwise fun x y => x.2 ≤ y.2
  latest : ∀ x ∈ w.log, ∃ m, w.latest = some m ∧ x.2 ≤ m
  remembered : ∀ packet_hash seen, (packet_hash, seen) ∈ w.log →
    (∀ m, w.latest = some m → m < seen + config.dedupe_lifetime) →
    (∃ i, Holds w.transport.dedupe i ⟨packet_hash, seen, seen + config.dedupe_lifetime⟩) ∨
      config.dedupe_capacity ≤ (othersSince w.log packet_hash seen).card

/-- A transport just made has accepted nothing. -/
theorem remembers_start {t : State} (h : init config = some t) :
    Remembers config.withDefaults (Memory.start t) := by
  obtain ⟨-, rfl⟩ := init_ok h
  exact ⟨rfl, length_replicate, distinctKeys_replicate _,
    fun i e hi => absurd hi not_holds_replicate, .nil,
    fun x hx => absurd hx not_mem_nil, fun g s hg => absurd hg not_mem_nil⟩

/-- Clearing expired entries, at a reading that is not before the latest one. -/
theorem Remembers.clear {w : Memory} (h : Remembers config w) {now : ℚ}
    (hnow : ∀ m, w.latest = some m → m ≤ now) {t : State} (hconfig : t.config = config)
    (hlen : t.dedupe.length = w.transport.dedupe.length)
    (hsub : ∀ i e, Holds t.dedupe i e → Holds w.transport.dedupe i e)
    (hlive : ∀ i e, Holds w.transport.dedupe i e → now < e.expires_at → Holds t.dedupe i e) :
    Remembers config ⟨t, w.log, some now⟩ where
  config_eq := hconfig
  length := hlen.trans h.length
  distinct := fun i j a b ha hb => h.distinct i j a b (hsub i a ha) (hsub j b hb)
  logged := fun i e hi => h.logged i e (hsub i e hi)
  ordered := h.ordered
  latest := by
    intro x hx
    obtain ⟨m, hm, hle⟩ := h.latest x hx
    exact ⟨now, rfl, hle.trans (hnow m hm)⟩
  remembered := by
    intro g s hg hs
    have hnow' : now < s + config.dedupe_lifetime := hs now rfl
    rcases h.remembered g s hg fun m hm => (hnow m hm).trans_lt hnow' with ⟨i, hi⟩ | hmany
    · exact .inl ⟨i, hlive i _ hi hnow'⟩
    · exact .inr hmany

/-- When a full table gives an entry up, `capacity` others were accepted since: each other entry is
at least as young, so it was accepted later, or at the same reading of the clock. -/
theorem Remembers.evict {w : Memory} (h : Remembers config w) {v : ℕ} {new_hash : Octets 32}
    {seen expires now : ℚ} (hv : Holds w.transport.dedupe v ⟨packet_hash, seen, expires⟩)
    (hfull : ∀ j < w.transport.dedupe.length, ∃ e, Holds w.transport.dedupe j e)
    (hleast : ∀ j e, Holds w.transport.dedupe j e → seen ≤ e.seen_at) (hnow : seen ≤ now)
    (hnew : ∀ j e, Holds w.transport.dedupe j e → e.packet_hash ≠ new_hash) :
    config.dedupe_capacity ≤ (othersSince (w.log ++ [(new_hash, now)]) packet_hash seen).card := by
  -- The hashes of the table, with the new one in place of the one given up.
  let hashes := ((entries w.transport.dedupe).map DedupeEntry.packet_hash).toFinset
  have hcard : hashes.card = config.dedupe_capacity := by
    rw [toFinset_card_of_nodup h.distinct.nodup_entries, length_map,
      length_entries, used_eq_length hfull, h.length]
  have hmem : packet_hash ∈ hashes := by
    rw [mem_toFinset, mem_map]
    exact ⟨_, mem_entries.2 ⟨v, hv⟩, rfl⟩
  have hfresh : new_hash ∉ hashes := by
    rw [mem_toFinset, mem_map]
    rintro ⟨e, he, heq⟩
    obtain ⟨j, hj⟩ := mem_entries.1 he
    exact hnew j e hj heq
  have hsub : insert new_hash (hashes.erase packet_hash) ⊆
      othersSince (w.log ++ [(new_hash, now)]) packet_hash seen := by
    intro g hg
    rw [mem_othersSince]
    rcases Finset.mem_insert.1 hg with rfl | hg
    · exact ⟨fun heq => hfresh (heq ▸ hmem), now, by simp, hnow⟩
    · obtain ⟨hne, hg⟩ := Finset.mem_erase.1 hg
      rw [mem_toFinset, mem_map] at hg
      obtain ⟨e, he, rfl⟩ := hg
      obtain ⟨j, hj⟩ := mem_entries.1 he
      exact ⟨hne, e.seen_at, mem_append_left _ (h.logged j e hj).2, hleast j e hj⟩
  have hinsert : (insert new_hash (hashes.erase packet_hash)).card = config.dedupe_capacity := by
    rw [Finset.card_insert_of_notMem fun hin => hfresh (Finset.mem_of_mem_erase hin),
      Finset.card_erase_of_mem hmem, hcard]
    have := Finset.card_pos.2 ⟨_, hmem⟩
    omega
  exact hinsert.symm.le.trans (Finset.card_le_card hsub)

/-- A new hash takes the oldest slot of a table that holds only live entries. -/
theorem Remembers.insert (hcap : 0 < config.dedupe_capacity) {w : Memory} (h : Remembers config w)
    {now : ℚ} (hlatest : w.latest = some now)
    (hnew : ∀ i e, Holds w.transport.dedupe i e → e.packet_hash ≠ packet_hash) : Remembers config
      ⟨{ w.transport with
          dedupe := w.transport.dedupe.set (oldestDedupeSlot w.transport.dedupe)
            (some ⟨packet_hash, now, now + w.transport.config.dedupe_lifetime⟩) },
        w.log ++ [(packet_hash, now)], some now⟩ := by
  obtain rfl := h.config_eq
  have hne : w.transport.dedupe ≠ [] := by
    intro hnil
    have hlen := h.length
    rw [hnil] at hlen
    simp only [length_nil] at hlen
    omega
  obtain ⟨hlt, hvictim⟩ := victim_spec (fun _ => false) DedupeEntry.seen_at hne
  have hbefore : ∀ x ∈ w.log, x.2 ≤ now := by
    intro x hx
    obtain ⟨m, hm, hle⟩ := h.latest x hx
    rw [hlatest] at hm
    cases hm
    exact hle
  refine ⟨rfl, by simpa using h.length, ?_, ?_, ?_, ?_, ?_⟩
  · exact h.distinct.set_some fun j b hb hkey => absurd hkey (hnew j b hb)
  · intro i e hi
    obtain ⟨-, -, hx⟩ | ⟨-, hi⟩ := holds_set.1 hi
    · cases hx
      exact ⟨rfl, by simp⟩
    · exact ⟨(h.logged i e hi).1, mem_append_left _ (h.logged i e hi).2⟩
  · refine pairwise_append.2 ⟨h.ordered, pairwise_singleton _ _, fun x hx y hy => ?_⟩
    rw [mem_singleton.1 hy]
    exact hbefore x hx
  · intro x hx
    refine ⟨now, rfl, ?_⟩
    rcases mem_append.1 hx with hx | hx
    · exact hbefore x hx
    · rw [mem_singleton.1 hx]
  · intro g s hg hs
    rcases mem_append.1 hg with hg | hg
    · rcases h.remembered g s hg fun m hm => hs m (by rw [← hm, hlatest]) with ⟨i, hi⟩ | hmany
      · by_cases hiv : i = oldestDedupeSlot w.transport.dedupe
        · -- The entry is the one that the new hash replaces, so the table is full.
          subst hiv
          rcases hvictim with hfree | ⟨e, -, hdead⟩ | ⟨hfull, e, he, hleast⟩
          · rw [Holds, show w.transport.dedupe[oldestDedupeSlot w.transport.dedupe]? = _ from hfree]
              at hi
            simp at hi
          · cases hdead
          · obtain rfl := he.unique hi
            refine .inr (h.evict hi (fun j hj => ?_) hleast (hbefore _ hg) hnew)
            obtain ⟨b, hb, -⟩ := hfull j hj
            exact ⟨b, hb⟩
        · exact .inl ⟨i, holds_set.2 (.inr ⟨hiv, hi⟩)⟩
      · exact .inr (hmany.trans (Finset.card_le_card (othersSince_append _ _ _)))
    · obtain ⟨rfl, rfl⟩ : g = packet_hash ∧ s = now := by simpa using hg
      exact .inl ⟨_, holds_set_self hlt⟩

/-- Every call with a clock that does not go backwards keeps the memory. -/
theorem dedupeStep_remembers (hcap : 0 < config.dedupe_capacity) (w : Memory) (call : DedupeCall)
    (h : Remembers config w) (hclock : NonDecreasing w call) :
    Remembers config (dedupeStep w call) := by
  -- Sweeping the table at a reading of the clock.
  have hsweep : ∀ {now : ℚ} {t : State}, (∀ m, w.latest = some m → m ≤ now) → t.config = config →
      t.dedupe = sweep (fun e => decide (now ≥ e.expires_at)) w.transport.dedupe →
      Remembers config ⟨t, w.log, some now⟩ := by
    intro now t hnow hconfig ht
    refine h.clear hnow hconfig (by rw [ht, length_sweep]) (fun i e hi => ?_) fun i e hi hlive => ?_
    · rw [ht] at hi
      exact (holds_sweep.1 hi).1
    · rw [ht]
      exact holds_sweep.2 ⟨hi, by simpa using hlive⟩
  cases call with
  | accept now packet_hash =>
    rcases now with _ | now
    · exact h
    have hnow : ∀ m, w.latest = some m → m ≤ now := fun m hm => hclock m now hm rfl
    rcases acceptPacketHash_cases w.transport now packet_hash with ⟨-, hr⟩ | ⟨hnew, hr⟩
    · simp only [dedupeStep, hr, Bool.false_eq_true, if_false]
      exact h.clear hnow h.config_eq (length_dedupeScan _ _ _) (fun i e => holds_dedupeScan.1)
        fun i e => holds_dedupeScan.2
    · simp only [dedupeStep, hr, if_true]
      refine (hsweep (t := { w.transport with
        dedupe := sweep (fun e => decide (now ≥ e.expires_at)) w.transport.dedupe })
        hnow h.config_eq rfl).insert hcap rfl fun i e hi => ?_
      obtain ⟨hi, hlive⟩ := holds_sweep.1 hi
      exact hnew i e hi (by simpa using hlive)
  | expire now =>
    rcases now with _ | now
    · exact h
    · exact hsweep (fun m hm => hclock m now hm rfl) h.config_eq rfl

/-- For every transport and every run of acceptances and expiries with a clock that does not go
backwards, at every further reading `now` of the clock: a hash that was accepted at a time less than
`dedupe_lifetime` ago is refused, unless at least `dedupe_capacity` other hashes were accepted in
between or, before it, at that same reading; and a hash whose acceptances are all `dedupe_lifetime`
ago or more is accepted. -/
theorem duplicate_suppression {config : Config} {t : State} (h : init config = some t)
    (calls : List DedupeCall) (hclock : Run.Each dedupeStep NonDecreasing (Memory.start t) calls)
    (now : ℚ) (packet_hash : Octets 32)
    (hnow : NonDecreasing (Run.final dedupeStep (Memory.start t) calls)
      (.accept (some now) packet_hash)) :
    let w := Run.final dedupeStep (Memory.start t) calls
    (∀ seen, (packet_hash, seen) ∈ w.log → now < seen + config.dedupe_lifetime →
      (othersSince w.log packet_hash seen).card < config.dedupe_capacity →
      (acceptPacketHash w.transport (some now) packet_hash).1 = false) ∧
    ((∀ seen, (packet_hash, seen) ∈ w.log → seen + config.dedupe_lifetime ≤ now) →
      (acceptPacketHash w.transport (some now) packet_hash).1 = true) := by
  intro w
  have hcap : 0 < config.withDefaults.dedupe_capacity := (init_ok h).1.2.1
  have hw : Remembers config.withDefaults w :=
    Run.invariant (dedupeStep_remembers hcap) (remembers_start h) hclock
  constructor
  · intro seen hseen hlive hfew
    rcases acceptPacketHash_cases w.transport now packet_hash with ⟨-, hr⟩ | ⟨hnew, hr⟩
    · rw [hr]
    rcases hw.remembered packet_hash seen hseen fun m hm => (hnow m now hm rfl).trans_lt hlive with
      ⟨i, hi⟩ | hmany
    · exact absurd rfl (hnew i _ hi hlive)
    · exact absurd hmany (not_le.2 hfew)
  · intro hold
    rcases acceptPacketHash_cases w.transport now packet_hash with ⟨⟨i, e, hi, hlive, rfl⟩, -⟩ |
      ⟨-, hr⟩
    · obtain ⟨hexp, hlog⟩ := hw.logged i e hi
      rw [hexp] at hlive
      exact absurd (hold _ hlog) (not_le.2 hlive)
    · rw [hr]

/-- A packet hash. -/
def hashOf (b : UInt8) : Octets 32 := Octets.ofList 32 [b]

/-- A hash accepted at time `0` is refused at time `60`, with another accepted before it at the same
reading of the clock. -/
theorem duplicate_suppression_small :
    (acceptPacketHash (Run.final dedupeStep (Memory.start smallTransport)
      [.accept (some 0) (hashOf 1), .accept (some 0) (hashOf 2)]).transport (some 60)
      (hashOf 2)).1 = false := by
  refine (duplicate_suppression init_smallConfig
    [.accept (some 0) (hashOf 1), .accept (some 0) (hashOf 2)] ⟨?_, ?_, trivial⟩ 60 (hashOf 2)
    ?_).1 0 (by decide +kernel) (by norm_num [smallConfig]) (by decide +kernel)
  · intro m n hm
    cases hm
  all_goals
    intro m n hm hn
    cases hm
    cases hn
    norm_num

/-- Four hashes accepted at one reading of the clock by a table of two slots: the third is accepted
again a second later, although only one other hash was accepted after it. -/
theorem evicted_by_one_acceptance : init smallConfig = some smallTransport ∧
    Run.Each dedupeStep NonDecreasing (Memory.start smallTransport)
      [.accept (some 0) (hashOf 1), .accept (some 0) (hashOf 2), .accept (some 0) (hashOf 3),
        .accept (some 0) (hashOf 4), .accept (some 1) (hashOf 3)] ∧
    (let w := Run.final dedupeStep (Memory.start smallTransport)
      [.accept (some 0) (hashOf 1), .accept (some 0) (hashOf 2), .accept (some 0) (hashOf 3),
        .accept (some 0) (hashOf 4)]
    w.log[2]? = some (hashOf 3, 0) ∧ (others w.log 2 (hashOf 3)).card = 1 ∧
      (acceptPacketHash w.transport (some 1) (hashOf 3)).1 = true) := by
  refine ⟨init_smallConfig, ⟨?_, ?_, ?_, ?_, ?_, trivial⟩, by decide +kernel, by decide +kernel,
    by decide +kernel⟩
  · intro m n hm
    cases hm
  all_goals
    intro m n hm hn
    cases hm
    cases hn
    norm_num

end Reticulum.Transport
