import Reticulum.Base.Run
import Reticulum.Transport.Model

/-!
# The path table keeps its integrity

The calls on the path table as a machine, and what every run of it keeps. `lookup_cases` and
`considerAnnounce_cases` say what the two calls that change the table can do; the invariant
`PathTable` follows from them: one entry for a destination, with a history of at most
`random_blob_history` different blobs of which one has the timebase of the entry.

Replay protection is a matter of rank. The rank of an entry is its timebase and then the gravity of
its interface, and as long as the entry of a destination is live and responsive an announce replaces
it only by one of higher rank (`considerAnnounce_rank`), so along a run the rank never falls and
rises with every update (`rank_along_run`).
-/

namespace Reticulum.Transport

open List Slots Option

/-- A call on the path table, with its reading of the clock. -/
inductive PathCall
  | considerAnnounce (now : Option ℚ) (a : Announced)
  | markUnresponsive (now : Option ℚ) (destination_hash : Octets 16)
  | setPathIdentity (now : Option ℚ) (destination_hash : Octets 16) (public_key : Octets 64)
  | lookup (now : Option ℚ) (destination_hash : Octets 16)
  | expire (now : Option ℚ)

/-- The reading of the clock at a call. -/
def PathCall.now : PathCall → Option ℚ
  | .considerAnnounce now _ | .markUnresponsive now _ | .setPathIdentity now _ _ | .lookup now _
  | .expire now => now

/-- The transport after a call. -/
def pathStep (t : State) : PathCall → State
  | .considerAnnounce now a => (considerAnnounce t now a).2
  | .markUnresponsive now destination_hash => (markUnresponsive t now destination_hash).2
  | .setPathIdentity now destination_hash public_key =>
    (setPathIdentity t now destination_hash public_key).2
  | .lookup now destination_hash => (lookup t now destination_hash).2
  | .expire now => (expire t now).2

/-! ## What the calls do -/

variable {d : Octets 16} {i : ℕ} {e : PathEntry} {t : State} {config : Config}

/-- What a search for a destination returns. -/
theorem findPath_eq_some {paths : List (Option PathEntry)} (h : findPath paths d = some (i, e)) :
    Holds paths i e ∧ e.destination_hash = d := by
  obtain ⟨hi, hd, -⟩ := find_eq_some h
  exact ⟨hi, by simpa using hd⟩

/-- A search for a destination fails exactly when no entry has it. -/
theorem findPath_eq_none_iff {paths : List (Option PathEntry)} :
    findPath paths d = none ↔ ∀ i e, Holds paths i e → e.destination_hash ≠ d := by
  unfold findPath
  rw [find_eq_none_iff]
  simp

/-- The outcomes of `rns_transport_lookup`: an entry, none, or one that is expired and removed. -/
theorem lookup_cases (t : State) (now : Option ℚ) (d : Octets 16) :
    (∃ i e, Holds t.paths i e ∧ lookup t now d = (some (i, e), t)) ∨
    lookup t now d = (none, t) ∨
    ∃ i, lookup t now d = (none, { t with paths := t.paths.set i none }) := by
  rcases now with _ | n
  · exact .inr (.inl rfl)
  cases hf : findPath t.paths d with
  | none => exact .inr (.inl (by simp [lookup, hf]))
  | some x =>
    obtain ⟨i, e⟩ := x
    by_cases hlive : n < e.expires_at
    · exact .inl ⟨i, e, (findPath_eq_some hf).1, by simp [lookup, hf, hlive]⟩
    · exact .inr (.inr ⟨i, by simp [lookup, hf, hlive]⟩)

/-- The outcomes of a change to the entry of a destination: the entry is live and changed, or the
call is a failed lookup. -/
theorem updatePath_cases (t : State) (now : Option ℚ) (d : Octets 16)
    (change : PathEntry → PathEntry) :
    (∃ i e, Holds t.paths i e ∧
      updatePath t now d change = (true, { t with paths := t.paths.set i (some (change e)) })) ∨
    updatePath t now d change = (false, (lookup t now d).2) := by
  rcases lookup_cases t now d with ⟨i, e, hi, hl⟩ | hl | ⟨i, hl⟩
  · exact .inl ⟨i, e, hi, by simp [updatePath, hl]⟩
  all_goals exact .inr (by simp [updatePath, hl])

/-- The outcomes of `rns_transport_consider_announce`: it is refused and nothing changes; it
replaces the entry of its destination, which keeps its history while it is live; or it is new and
takes a slot. -/
theorem considerAnnounce_cases (t : State) (now : Option ℚ) (a : Announced) :
    considerAnnounce t now a = (.rejected, t) ∨
    (∃ n i e old, now = some n ∧ Holds t.paths i e ∧ e.destination_hash = a.destination_hash ∧
      ((e.expires_at ≤ n ∧ old = []) ∨
        (n < e.expires_at ∧ old = e.random_blobs ∧ refuses e a = false)) ∧
      considerAnnounce t now a =
        (.updated, { t with paths := t.paths.set i (some (pathEntry t.config n a old)) })) ∨
    ∃ n, now = some n ∧ (∀ i e, Holds t.paths i e → e.destination_hash ≠ a.destination_hash) ∧
      considerAnnounce t now a = (.inserted, { t with
        paths := t.paths.set (pathReplacementSlot t.paths)
          (some (pathEntry t.config n a [])) }) := by
  rcases now with _ | n
  · exact .inl rfl
  cases hf : findPath t.paths a.destination_hash with
  | none => exact .inr (.inr ⟨n, rfl, findPath_eq_none_iff.1 hf, by simp [considerAnnounce, hf]⟩)
  | some x =>
    obtain ⟨i, e⟩ := x
    obtain ⟨hi, hd⟩ := findPath_eq_some hf
    by_cases hexp : n ≥ e.expires_at
    · exact .inr (.inl ⟨n, i, e, [], rfl, hi, hd, .inl ⟨hexp, rfl⟩,
        by simp [considerAnnounce, hf, hexp]⟩)
    · by_cases href : refuses e a = true
      · exact .inl (by simp [considerAnnounce, hf, hexp, href])
      · rw [Bool.not_eq_true] at href
        exact .inr (.inl ⟨n, i, e, e.random_blobs, rfl, hi, hd,
          .inr ⟨not_le.1 hexp, rfl, href⟩, by simp [considerAnnounce, hf, hexp, href]⟩)

/-! ## The invariant -/

/-- The blob history of an entry: some blobs, at most `history`, all different, one of them with the
timebase of the entry. -/
structure PathEntry.HistoryOk (history : ℕ) (e : PathEntry) : Prop where
  pos : 0 < e.random_blobs.length
  le : e.random_blobs.length ≤ history
  nodup : e.random_blobs.Nodup
  timebase : ∃ b ∈ e.random_blobs, randomBlobTimebase b = e.announce_timebase

/-- What the path table keeps. -/
structure PathTable (config : Config) (t : State) : Prop where
  config_eq : t.config = config
  length : t.paths.length = config.path_capacity
  distinct : DistinctKeys PathEntry.destination_hash t.paths
  history : ∀ i e, Holds t.paths i e → e.HistoryOk config.random_blob_history

/-- Adding a blob to a history within its bounds. -/
theorem pathAddBlob_spec {blobs : List (Octets 10)} {history : ℕ} (hpos : 0 < history)
    (hle : blobs.length ≤ history) (hnodup : blobs.Nodup) (blob : Octets 10) :
    blob ∈ pathAddBlob blobs blob history ∧ (pathAddBlob blobs blob history).Nodup ∧
      (pathAddBlob blobs blob history).length ≤ history := by
  unfold pathAddBlob
  split_ifs with hheard hroom
  · exact ⟨hheard, hnodup, hle⟩
  · refine ⟨by simp, ?_, by simpa using hroom⟩
    exact nodup_append.2 ⟨hnodup, nodup_singleton _, fun x hx y hy => by
      rw [mem_singleton.1 hy]
      rintro rfl
      exact hheard hx⟩
  · have hsub : ((blobs.drop 1).take (history - 1)).Sublist blobs :=
      (take_sublist _ _).trans (drop_sublist _ _)
    refine ⟨by simp, nodup_append.2 ⟨hsub.nodup hnodup, nodup_singleton _, fun x hx y hy => ?_⟩, ?_⟩
    · rw [mem_singleton.1 hy]
      rintro rfl
      exact hheard (hsub.subset hx)
    · rw [length_append, length_take, length_singleton]
      omega

/-- The entry that an announce writes has a history within its bounds when the old one had. -/
theorem pathEntry_historyOk (hpos : 0 < config.random_blob_history) (n : ℚ) (a : Announced)
    {old : List (Octets 10)} (hle : old.length ≤ config.random_blob_history) (hnodup : old.Nodup) :
    (pathEntry config n a old).HistoryOk config.random_blob_history := by
  obtain ⟨hmem, hnd, hlen⟩ := pathAddBlob_spec hpos hle hnodup a.random_blob
  exact ⟨length_pos_of_mem hmem, hlen, hnd, a.random_blob, hmem, rfl⟩

/-- Writing an entry with a good history over that of its destination, or into any slot when the
destination is new, keeps the table. -/
theorem PathTable.set_some (h : PathTable config t) (he : e.HistoryOk config.random_blob_history)
    (hown : ∀ j b, Holds t.paths j b → b.destination_hash = e.destination_hash → j = i) :
    PathTable config { t with paths := t.paths.set i (some e) } where
  config_eq := h.config_eq
  length := by simpa using h.length
  distinct := h.distinct.set_some hown
  history := by
    intro j b hb
    obtain ⟨-, -, hx⟩ | ⟨-, hb⟩ := holds_set.1 hb
    · obtain rfl : e = b := by simpa using hx
      exact he
    · exact h.history j b hb

/-- What a call other than an announce leaves: entries that were there, in their slots, that may be
marked unresponsive or have an identity now. -/
structure Tended (t t' : State) : Prop where
  config : t'.config = t.config
  length : t'.paths.length = t.paths.length
  holds : ∀ i e', Holds t'.paths i e' → ∃ e unresponsive identity_public_key,
    Holds t.paths i e ∧ e' = { e with unresponsive, identity_public_key }

theorem Tended.refl (t : State) : Tended t t := ⟨rfl, rfl, fun _ e he => ⟨e, _, _, he, rfl⟩⟩

theorem tended_lookup (t : State) (now : Option ℚ) (d : Octets 16) :
    Tended t (lookup t now d).2 := by
  rcases lookup_cases t now d with ⟨i, e, -, hl⟩ | hl | ⟨i, hl⟩
  · rw [hl]; exact .refl t
  · rw [hl]; exact .refl t
  · rw [hl]
    refine ⟨rfl, length_set, fun j b hb => ?_⟩
    obtain ⟨-, -, hx⟩ | ⟨-, hb⟩ := holds_set.1 hb
    · cases hx
    · exact ⟨b, _, _, hb, rfl⟩

theorem tended_updatePath (t : State) (now : Option ℚ) (d : Octets 16)
    {change : PathEntry → PathEntry} (hchange : ∀ e, ∃ unresponsive identity_public_key,
      change e = { e with unresponsive, identity_public_key }) :
    Tended t (updatePath t now d change).2 := by
  rcases updatePath_cases t now d change with ⟨i, e, hi, hu⟩ | hu
  · rw [hu]
    refine ⟨rfl, length_set, fun j b hb => ?_⟩
    obtain ⟨rfl, -, hx⟩ | ⟨-, hb⟩ := holds_set.1 hb
    · obtain ⟨unresponsive, key, heq⟩ := hchange e
      exact ⟨e, unresponsive, key, hi, (some.inj hx).symm.trans heq⟩
    · exact ⟨b, _, _, hb, rfl⟩
  · rw [hu]; exact tended_lookup t now d

/-- Every call is an announce or tends the table. -/
theorem pathStep_cases (t : State) (call : PathCall) : (∃ now a, call = .considerAnnounce now a) ∨
      Tended t (pathStep t call) ∧ ∀ now a, call ≠ .considerAnnounce now a := by
  cases call with
  | considerAnnounce now a => exact .inl ⟨now, a, rfl⟩
  | markUnresponsive now d | setPathIdentity now d key =>
    exact .inr ⟨tended_updatePath t now d fun _ => ⟨_, _, rfl⟩, nofun⟩
  | lookup now d => exact .inr ⟨tended_lookup t now d, nofun⟩
  | expire now =>
    refine .inr ⟨?_, nofun⟩
    rcases now with _ | n
    · exact .refl t
    · exact ⟨rfl, length_sweep .., fun i e he => ⟨e, _, _, (holds_sweep.1 he).1, rfl⟩⟩

/-- A table that is tended stays good. -/
theorem PathTable.tended {t' : State} (h : PathTable config t) (htended : Tended t t') :
    PathTable config t' where
  config_eq := htended.config.trans h.config_eq
  length := htended.length.trans h.length
  distinct := by
    intro i j a b ha hb hkey
    obtain ⟨a', _, _, ha', rfl⟩ := htended.holds i a ha
    obtain ⟨b', _, _, hb', rfl⟩ := htended.holds j b hb
    exact h.distinct i j a' b' ha' hb' hkey
  history := by
    intro i a ha
    obtain ⟨a', _, _, ha', rfl⟩ := htended.holds i a ha
    obtain ⟨hpos, hle, hnodup, htime⟩ := h.history i a' ha'
    exact ⟨hpos, hle, hnodup, htime⟩

/-- Every call keeps the table. -/
theorem pathStep_pathTable (hpos : 0 < config.random_blob_history) (t : State) (call : PathCall)
    (h : PathTable config t) : PathTable config (pathStep t call) := by
  rcases pathStep_cases t call with ⟨now, a, rfl⟩ | ⟨htended, -⟩
  · obtain rfl := h.config_eq
    rcases considerAnnounce_cases t now a with hr | ⟨n, i, e, old, -, hi, hd, hold, hr⟩ |
      ⟨n, -, hnew, hr⟩
    · simp only [pathStep, hr]; exact h
    · simp only [pathStep, hr]
      have hwithin : old.length ≤ t.config.random_blob_history ∧ old.Nodup := by
        rcases hold with ⟨-, rfl⟩ | ⟨-, rfl, -⟩
        · exact ⟨Nat.zero_le _, nodup_nil⟩
        · exact ⟨(h.history i e hi).le, (h.history i e hi).nodup⟩
      refine h.set_some (pathEntry_historyOk hpos n a hwithin.1 hwithin.2) fun j b hb hkey => ?_
      exact h.distinct j i b e hb hi (hkey.trans hd.symm)
    · simp only [pathStep, hr]
      refine h.set_some (pathEntry_historyOk hpos n a (Nat.zero_le _) nodup_nil)
        fun j b hb hkey => absurd hkey (hnew j b hb)
  · exact h.tended htended

/-! ## Replay protection -/

/-- The rank of an entry: its timebase, then the gravity of its interface. -/
def PathEntry.rank (e : PathEntry) : ℕ ×ₗ ℤ := toLex (e.announce_timebase, e.interface_gravity.toInt)

/-- Whether a call answers `RNS_PATH_UPDATED` for the destination. -/
def updates (d : Octets 16) (t : State) : PathCall → Bool
  | .considerAnnounce now a =>
    decide (a.destination_hash = d) && decide ((considerAnnounce t now a).1 = .updated)
  | _ => false

/-- The entry of the destination is live and responsive at the call, and in the table after it. -/
def Stays (d : Octets 16) (t : State) (call : PathCall) : Prop :=
  (∀ i e n, Holds t.paths i e → e.destination_hash = d → call.now = some n →
    n < e.expires_at ∧ e.unresponsive = false) ∧
  ∃ i e, Holds (pathStep t call).paths i e ∧ e.destination_hash = d

/-- What a call does to the rank of an entry that stays: an update raises it, and nothing else
changes it. -/
theorem pathStep_rank (h : PathTable config t) {call : PathCall} (hstays : Stays d t call) {i' : ℕ}
    {e' : PathEntry} (hi : Holds t.paths i e) (hd : e.destination_hash = d)
    (hi' : Holds (pathStep t call).paths i' e') (hd' : e'.destination_hash = d) :
    if updates d t call then e.rank < e'.rank else e'.rank = e.rank := by
  -- An entry of the destination that was there before is the same entry.
  have hsame : ∀ {j b}, Holds t.paths j b → b.destination_hash = d → b = e := by
    intro j b hb hbd
    obtain rfl := h.distinct j i b e hb hi (hbd.trans hd.symm)
    exact hb.unique hi
  rcases pathStep_cases t call with ⟨now, a, rfl⟩ | ⟨htended, hother⟩
  · rcases considerAnnounce_cases t now a with hr | ⟨n, j, b, old, hn, hj, hb, hold, hr⟩ |
      ⟨n, -, hnew, hr⟩
    · simp only [pathStep, hr] at hi'
      simp [updates, hr, hsame hi' hd']
    · simp only [pathStep, hr] at hi'
      simp only [updates, hr, decide_true, Bool.and_true, decide_eq_true_eq]
      split_ifs with had
      · -- The announce is for the destination, whose entry is live and responsive.
        obtain rfl := hsame hj (hb.trans had)
        obtain ⟨hlive, hresp⟩ := hstays.1 j b n hj hd hn
        rcases hold with ⟨hexp, -⟩ | ⟨-, -, href⟩
        · exact absurd hlive (not_lt.2 hexp)
        · obtain ⟨-, -, hx⟩ | ⟨hne, hi'⟩ := holds_set.1 hi'
          · rw [← some.inj hx]
            unfold refuses at href
            simp only [hresp, Bool.not_false, Bool.true_and, Bool.or_eq_false_iff,
              Bool.and_eq_false_iff, decide_eq_false_iff_not, not_lt, Bool.not_eq_false',
              decide_eq_true_eq] at href
            obtain ⟨⟨holder, hsame⟩, -⟩ := href
            unfold PathEntry.rank
            rw [Prod.Lex.toLex_lt_toLex]
            rcases Nat.lt_or_eq_of_le holder with hlt | heq
            · exact .inl hlt
            · refine .inr ⟨heq, ?_⟩
              rcases hsame with hne | hgravity
              · exact absurd heq.symm hne
              · exact Int32.lt_iff_toInt_lt.1 hgravity
          · exact absurd (h.distinct i' j e' b hi' hj (hd'.trans hd.symm)) hne
      · obtain ⟨-, -, hx⟩ | ⟨-, hi'⟩ := holds_set.1 hi'
        · rw [← some.inj hx] at hd'
          exact absurd hd' had
        · rw [hsame hi' hd']
    · simp only [pathStep, hr] at hi'
      simp only [updates, hr, reduceCtorEq, decide_false, Bool.and_false, if_false]
      obtain ⟨-, -, hx⟩ | ⟨-, hi'⟩ := holds_set.1 hi'
      · rw [← some.inj hx] at hd'
        exact absurd (hd.trans hd'.symm) (hnew i e hi)
      · rw [hsame hi' hd']
  · have hquiet : updates d t call = false := by
      cases call with
      | considerAnnounce now a => exact absurd rfl (hother now a)
      | _ => rfl
    obtain ⟨b, _, _, hb, rfl⟩ := htended.holds i' e' hi'
    obtain rfl := hsame hb hd'
    rw [hquiet]
    rfl

/-- Along a run in which the entry of a destination stays, its rank never falls, and it rises if
any call answers `RNS_PATH_UPDATED` for it. -/
theorem rank_along_run (hpos : 0 < config.random_blob_history) (calls : List PathCall)
    (h : PathTable config t) (hstays : Run.Each pathStep (Stays d) t calls) (hi : Holds t.paths i e)
    (hd : e.destination_hash = d) :
    ∃ i' e', Holds (Run.final pathStep t calls).paths i' e' ∧ e'.destination_hash = d ∧
      e.rank ≤ e'.rank ∧ (¬ Run.Each pathStep (fun t call => updates d t call = false) t calls →
        e.rank < e'.rank) := by
  induction calls generalizing t i e with
  | nil => exact ⟨i, e, hi, hd, le_rfl, fun hno => absurd trivial hno⟩
  | cons call calls ih =>
    obtain ⟨hnow, hrest⟩ := hstays
    obtain ⟨j, b, hj, hb⟩ := hnow.2
    have hrank := pathStep_rank h hnow hi hd hj hb
    obtain ⟨i', e', hi', hd', hle, hlt⟩ := ih (pathStep_pathTable hpos t call h) hrest hj hb
    refine ⟨i', e', hi', hd', ?_, fun hno => ?_⟩
    · split_ifs at hrank with hup
      · exact hrank.le.trans hle
      · exact hrank.symm.le.trans hle
    · split_ifs at hrank with hup
      · exact hrank.trans_le hle
      · rw [← hrank]
        exact hlt fun hrest' => hno ⟨by simpa using hup, hrest'⟩

/-! ## The table of every run -/

/-- Every run of calls keeps the path table good. -/
theorem pathTable_run (h : init config = some t) (calls : List PathCall) :
    PathTable config.withDefaults (Run.final pathStep t calls) := by
  have hpos : 0 < config.withDefaults.random_blob_history := (init_ok h).1.2.2.1
  refine Run.invariant (fun t call ht _ => pathStep_pathTable hpos t call ht) ?_
    (Run.each_true calls)
  obtain ⟨-, rfl⟩ := init_ok h
  exact ⟨rfl, length_replicate, distinctKeys_replicate _,
    fun i e hi => absurd hi not_holds_replicate⟩

/-- For every transport and every run of calls on its path table, at any readings of the clock:
there is at most one entry for a destination; every entry has from one to `random_blob_history`
different blobs, one of them with its timebase; a refused announce leaves the table as it was; and
along every further run in which the entry of a destination stays live and responsive in the table,
its timebase and gravity, compared in this order, never fall, and rise whenever a call answers
`RNS_PATH_UPDATED` for the destination. -/
theorem path_table_integrity {config : Config} {t₀ : State} (h : init config = some t₀)
    (calls : List PathCall) :
    let t := Run.final pathStep t₀ calls
    DistinctKeys PathEntry.destination_hash t.paths ∧
    (∀ i e, Holds t.paths i e → e.HistoryOk config.random_blob_history) ∧
    (∀ now a, (considerAnnounce t now a).1 = .rejected →
      (considerAnnounce t now a).2.paths = t.paths) ∧
    ∀ d more, Run.Each pathStep (Stays d) t more → ∀ i e, Holds t.paths i e →
      e.destination_hash = d →
      ∃ i' e', Holds (Run.final pathStep t more).paths i' e' ∧ e'.destination_hash = d ∧
        e.rank ≤ e'.rank ∧
        (¬ Run.Each pathStep (fun t call => updates d t call = false) t more →
          e.rank < e'.rank) := by
  intro t
  have hpos : 0 < config.withDefaults.random_blob_history := (init_ok h).1.2.2.1
  have htable : PathTable config.withDefaults t := pathTable_run h calls
  refine ⟨htable.distinct, htable.history, fun now a hrej => ?_, fun d more hstays i e hi hd =>
    rank_along_run hpos more htable hstays hi hd⟩
  rcases considerAnnounce_cases t now a with hr | ⟨n, i, e, old, -, -, -, -, hr⟩ | ⟨n, -, -, hr⟩
  · rw [hr]
  all_goals rw [hr] at hrej; cases hrej

/-- An announce of one destination with a given timebase. -/
def announceAt (timebase : UInt8) : Announced :=
  { destination_hash := Octets.zero _
    next_hop := Octets.zero _
    interface_id := 1
    interface_gravity := 0
    hops := 1
    random_blob := Octets.ofList 10 [0, 0, 0, 0, 0, 0, 0, 0, 0, timebase]
    packet_hash := Octets.zero _ }

/-- A newer announce replaces the entry of its destination by one of higher rank. -/
theorem path_table_integrity_newer : ∃ i e, Holds (Run.final pathStep smallTransport
        [.considerAnnounce (some 0) (announceAt 1), .considerAnnounce (some 1) (announceAt 2)]).paths
        i e ∧ (pathEntry smallConfig 0 (announceAt 1) []).rank < e.rank := by
  obtain ⟨-, -, -, hrank⟩ := path_table_integrity init_smallConfig
    [.considerAnnounce (some 0) (announceAt 1)]
  have hpaths : (Run.final pathStep smallTransport
      [.considerAnnounce (some 0) (announceAt 1)]).paths =
      [some (pathEntry smallConfig 0 (announceAt 1) []), none] := rfl
  have hstays : Stays (Octets.zero 16) (Run.final pathStep smallTransport
      [.considerAnnounce (some 0) (announceAt 1)]) (.considerAnnounce (some 1) (announceAt 2)) := by
    refine ⟨fun i e n hi _ hn => ?_, 0, pathEntry smallConfig 1 (announceAt 2)
      [(announceAt 1).random_blob], ?_, rfl⟩
    · rw [hpaths] at hi
      cases hn
      rcases i with _ | _ | i
      · obtain rfl := Option.some.inj (holds_cons_zero.1 hi)
        exact ⟨by norm_num [pathEntry, smallConfig], rfl⟩
      · simp at hi
      · simp [Holds] at hi
    · unfold Holds
      decide +kernel
  obtain ⟨i, e, hi, -, -, hlt⟩ := hrank _ [.considerAnnounce (some 1) (announceAt 2)]
    ⟨hstays, trivial⟩ 0 _ rfl rfl
  refine ⟨i, e, hi, hlt fun hno => absurd hno.1 ?_⟩
  decide +kernel

end Reticulum.Transport
