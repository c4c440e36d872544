import Reticulum.Radio.Reception
import Reticulum.Radio.Runs

/-!
# Split frames from the scheduler to a reassembler

One scheduler sends, one reassembler receives, and both read one clock that does not go back. A
frame that the radio takes reaches the receiver at once, which is when the radio was asked, or is
lost.

`Tracked` is what every move of the scheduler keeps. Its heart are three facts about sequences: two
packets of two frames in the queue do not share one (`distinct`), the sequence of a packet that was
finished is blocked until the guard has passed since its frames (`blocked`), and so a packet in the
queue uses no sequence that was on the air less than the guard ago (`spaced`). With them the frames
on the air are an `Airing`, and the rest is about the receiver.
-/

namespace Reticulum.Radio

open List Option Parcel Nat Run

/-! ## The air -/

/-- The frame that an observation puts on the air, with the place of its packet and the time of the
question to the radio. The stamp counts the questions up to that one. -/
def aired (clock : ℕ → ℕ) (turn stamp : ℕ) : Observation → List Arrival
  | .transmit frame _ .ok => [⟨turn, frame, clock (stamp - 1)⟩]
  | _ => []

/-- The frames on the air, from a log with its stamps. Each result is the end of a turn. -/
def airFrom (clock : ℕ → ℕ) : ℕ → List Observation → List ℕ → List Arrival
  | turn, x :: log, stamp :: stamps =>
    aired clock turn stamp x ++ airFrom clock (turn + (resultsOf [x]).length) log stamps
  | _, _, _ => []

/-- The frames on the air in a run. -/
def Interface.air (o : Oracle) (s : Interface) : List Arrival := airFrom o.time 0 s.log s.stamps

variable {clock : ℕ → ℕ} {passed : List UInt8 → Prop} {parcels : List Parcel} {now_ms : ℕ}

/-- What one more entry of the log puts on the air. -/
theorem airFrom_concat (x : Observation) (stamp turn : ℕ) {log : List Observation}
    {stamps : List ℕ} (h : stamps.length = log.length) :
    airFrom clock turn (log ++ [x]) (stamps ++ [stamp]) =
      airFrom clock turn log stamps ++ aired clock (turn + (resultsOf log).length) stamp x := by
  induction log generalizing turn stamps with
  | nil =>
    obtain rfl := length_eq_zero_iff.1 h
    exact append_nil _
  | cons y log ih =>
    obtain ⟨k, stamps, rfl⟩ := exists_cons_of_length_eq_add_one h
    have hresults : (resultsOf (y :: log)).length =
        (resultsOf [y]).length + (resultsOf log).length := by
      rw [← length_append]
      exact congrArg List.length (filterMap_append (l := [y]))
    rw [cons_append, cons_append, airFrom, ih _ (Nat.succ.inj h), airFrom,
      append_assoc, hresults, add_assoc]

/-! ## What the moves keep -/

/-- The track with what its log says: the frames of the packets queued, the results, and the air. -/
structure View where
  guard_ms : ℕ
  queue : List (List (List UInt8) × UInt8)
  out : ℕ
  blocked : UInt8 → Option ℕ
  last_now_ms : ℕ
  answers : ℕ
  packets : List (List (List UInt8))
  results : List (UInt32 × PacketOutcome)
  air : List Arrival

/-- The view of a track. -/
def Track.view (clock : ℕ → ℕ) (t : Track) : View :=
  { guard_ms := t.guard_ms
    queue := t.queue
    out := t.out
    blocked := t.blocked
    last_now_ms := t.last_now_ms
    answers := t.answers
    packets := (queuedOf t.log).map Prod.snd
    results := resultsOf t.log
    air := airFrom clock 0 t.log t.stamps }

/-- The place of the packet whose turn it is. -/
def View.turn (v : View) : ℕ := v.results.length

/-- The parcels of the packets queued, and what the moves keep of them. -/
structure Tracked (clock : ℕ → ℕ) (passed : List UInt8 → Prop) (parcels : List Parcel)
    (v : View) : Prop where
  packets : v.packets = parcels.map Parcel.frames
  passes : ∀ p ∈ parcels, passed p.packet
  turn_le : v.turn ≤ parcels.length
  queue : v.queue = (parcels.drop v.turn).map fun p => (p.frames, p.sequence)
  idle : v.queue = [] → v.out = 0
  airing : Airing v.guard_ms parcels v.air
  past : ∀ a ∈ v.air, a.turn ≤ v.turn
  -- The frames of the packet whose turn it is that are on the air.
  front : ∀ p, parcels[v.turn]? = some p → ∀ a ∈ v.air, a.turn = v.turn →
    a.frame ∈ p.frames.take v.out
  begun : ∀ p, parcels[v.turn]? = some p → ∀ f ∈ p.frames.take v.out,
    ∃ a ∈ v.air, a.turn = v.turn ∧ a.frame = f
  sent : ∀ i id, v.results[i]? = some (id, .sent) → ∀ p, parcels[i]? = some p →
    ∀ f ∈ p.frames, ∃ a ∈ v.air, a.turn = i ∧ a.frame = f
  paired : ∀ b ∈ v.air, ∀ p, parcels[b.turn]? = some p → p.Split → b.frame = p.second →
    ∃ a ∈ v.air, a.turn = b.turn ∧ a.frame = p.first
  -- The scheduler's time and the times on the air are behind the clock.
  behind : ∀ k, v.answers ≤ k → v.last_now_ms ≤ clock k
  times : ∀ a ∈ v.air, ∀ k, v.answers ≤ k → a.now_ms ≤ clock k
  distinct : ∀ i j p q, v.turn ≤ i → i < j → parcels[i]? = some p → parcels[j]? = some q →
    p.Split → q.Split → p.sequence ≠ q.sequence
  spaced : ∀ j q, v.turn ≤ j → parcels[j]? = some q → q.Split → ∀ a ∈ v.air, a.turn < j →
    ∀ p, parcels[a.turn]? = some p → p.Split → p.sequence = q.sequence →
      a.now_ms + v.guard_ms ≤ v.last_now_ms
  blocked : ∀ a ∈ v.air, a.turn < v.turn → ∀ p, parcels[a.turn]? = some p → p.Split →
    a.now_ms + v.guard_ms ≤ v.last_now_ms ∨ ∃ deadline, v.blocked p.sequence = some deadline ∧
      (deadline = uint64Max ∨ a.now_ms + v.guard_ms ≤ deadline)

namespace Tracked

variable {v : View}

/-- Time passes. -/
theorem later (h : Tracked clock passed parcels v) {answers : ℕ}
    (hanswers : v.answers ≤ answers) (hnow : v.last_now_ms ≤ now_ms)
    (hclock : ∀ k, answers ≤ k → now_ms ≤ clock k) :
    Tracked clock passed parcels { v with answers := answers, last_now_ms := now_ms } :=
  { h with
    behind := hclock
    times := fun a ha k hk => h.times a ha k (hanswers.trans hk)
    spaced := fun j q hj hq hsplit a ha hlt p hp hp_split hsequence =>
      (h.spaced j q hj hq hsplit a ha hlt p hp hp_split hsequence).trans hnow
    blocked := fun a ha hlt p hp hsplit =>
      (h.blocked a ha hlt p hp hsplit).imp_left fun hle => hle.trans hnow }

/-- A sequence whose time is over is not blocked any more. -/
theorem unblock (h : Tracked clock passed parcels v) {sequence : UInt8} {deadline : ℕ}
    (hblocked : v.blocked sequence = some deadline) (hfinite : deadline ≠ uint64Max)
    (helapsed : deadline ≤ v.last_now_ms) : Tracked clock passed parcels
      { v with blocked := Function.update v.blocked sequence none } :=
  { h with
    blocked := by
      intro a ha hlt p hp hsplit
      rcases h.blocked a ha hlt p hp hsplit with hle | ⟨deadline', hdeadline, hbound⟩
      · exact .inl hle
      · by_cases hsame : p.sequence = sequence
        · rw [hsame, hblocked] at hdeadline
          cases hdeadline
          exact .inl ((hbound.resolve_left hfinite).trans helapsed)
        · refine .inr ⟨deadline', ?_, hbound⟩
          rw [← hdeadline]
          exact Function.update_of_ne hsame .. }

variable {x : List (List UInt8) × UInt8} {rest : List (List (List UInt8) × UInt8)}

/-- The packet at the front of the queue is the one whose turn it is. -/
theorem front_parcel (h : Tracked clock passed parcels v) (hqueue : v.queue = x :: rest) :
    ∃ p, parcels[v.turn]? = some p ∧ p.frames = x.1 ∧ p.sequence = x.2 ∧
      rest = (parcels.drop (v.turn + 1)).map fun p => (p.frames, p.sequence) := by
  rw [h.queue] at hqueue
  obtain ⟨p, tail, hdrop, hx, hrest⟩ := map_eq_cons_iff.1 hqueue
  refine ⟨p, ?_, ?_, ?_, ?_⟩
  · rw [← head?_drop, hdrop, head?_cons]
  · rw [← hx]
  · rw [← hx]
  · rw [← hrest, ← tail_drop, hdrop, tail_cons]

/-- The frames on the air after the next one are those before it and it. -/
theorem next_frame {p : Parcel} {out : ℕ} (hnext : out = 0 ∨ out = 1 ∧ p.frames.length ≠ 1) :
    p.frames.getD out [] ∈ p.frames ∧
      p.frames.take (out + 1) = p.frames.take out ++ [p.frames.getD out []] ∧
      (out = 1 → p.frames = [p.first, p.second]) := by
  rcases hnext with rfl | ⟨rfl, hmore⟩
  · by_cases hsplit : p.Split
    · rw [frames_of_split hsplit]
      exact ⟨mem_cons_self, rfl, nofun⟩
    · rw [frames_of_whole hsplit]
      exact ⟨mem_cons_self, rfl, nofun⟩
  · have hsplit : p.Split := by
      by_contra hwhole
      exact hmore (by rw [frames_of_whole hwhole]; rfl)
    rw [frames_of_split hsplit]
    exact ⟨mem_cons_of_mem _ mem_cons_self, rfl, fun _ => rfl⟩

/-- The radio takes the next frame of the front packet. -/
theorem transmit (h : Tracked clock passed parcels v) (hclock : Monotone clock)
    (hqueue : v.queue = x :: rest) (hnext : v.out = 0 ∨ v.out = 1 ∧ x.1.length ≠ 1) :
    Tracked clock passed parcels { v with
      answers := v.answers + 1
      out := v.out + 1
      air := v.air ++ [⟨v.turn, x.1.getD v.out [], clock v.answers⟩] } := by
  obtain ⟨p, hp, hframes, hsequence, -⟩ := h.front_parcel hqueue
  rw [← hframes] at hnext ⊢
  obtain ⟨hmem, htake, htwo⟩ := next_frame hnext
  generalize p.frames.getD v.out [] = frame at hmem htake
  have hair : ∀ {a : Arrival}, a ∈ v.air ++ [⟨v.turn, frame, clock v.answers⟩] ↔
      a ∈ v.air ∨ a = ⟨v.turn, frame, clock v.answers⟩ := by
    intro a
    rw [mem_append, mem_singleton]
  have hnew : (⟨v.turn, frame, clock v.answers⟩ : Arrival) ∈
      v.air ++ [⟨v.turn, frame, clock v.answers⟩] := hair.2 (.inr rfl)
  -- What was on the air before, in the larger air.
  have hold : ∀ {i : ℕ} {f : List UInt8}, (∃ a ∈ v.air, a.turn = i ∧ a.frame = f) →
      ∃ a ∈ v.air ++ [⟨v.turn, frame, clock v.answers⟩], a.turn = i ∧ a.frame = f :=
    fun ⟨a, ha, hturn, hframe⟩ => ⟨a, hair.2 (.inl ha), hturn, hframe⟩
  refine { h with
    idle := fun hempty => nomatch hqueue.symm.trans hempty
    airing := ⟨?_, ?_⟩, past := ?_, front := ?_, begun := ?_, sent := ?_, paired := ?_
    behind := fun k hk => h.behind k (le_of_succ_le hk)
    times := ?_, spaced := ?_, blocked := ?_ }
  · intro a ha
    rcases hair.1 ha with ha | rfl
    · exact h.airing.parcel a ha
    · exact ⟨p, hp, hmem⟩
  · -- The new frame comes after all others.
    rw [pairwise_append]
    refine ⟨h.airing.order, pairwise_singleton _ _, ?_⟩
    intro a ha b hb
    obtain rfl := mem_singleton.1 hb
    rcases (h.past a ha).lt_or_eq with hlt | heq
    · -- A frame of an earlier packet: the front packet kept away from its sequence.
      refine .inl ⟨hlt, fun p' q hp' hq hsplit hq_split hsame => ?_⟩
      exact (h.spaced v.turn q le_rfl hq hq_split a ha hlt p' hp' hsplit hsame).trans
        (h.behind _ le_rfl)
    · -- The first frame of the same packet.
      have hfirst := h.front p hp a ha heq
      have hout : v.out = 1 := by
        rcases hnext with hzero | hone
        · rw [hzero] at hfirst
          cases hfirst
        · exact hone.1
      rw [hout, htwo hout] at hfirst htake
      obtain rfl : p.second = frame := by simpa using htake
      refine .inr ⟨heq, p, heq ▸ hp, ?_⟩
      rw [mem_singleton.1 hfirst, htwo hout]
  · intro a ha
    rcases hair.1 ha with ha | rfl
    · exact h.past a ha
    · exact le_rfl
  · -- What is out of the front packet is its frames so far and the new one.
    intro p' hp' a ha hturn
    obtain rfl := some.inj (hp'.symm.trans hp)
    rw [htake, mem_append, mem_singleton]
    rcases hair.1 ha with ha | rfl
    · exact .inl (h.front p' hp a ha hturn)
    · exact .inr rfl
  · intro p' hp' f hf
    obtain rfl := some.inj (hp'.symm.trans hp)
    rw [htake, mem_append, mem_singleton] at hf
    rcases hf with hf | rfl
    · exact hold (h.begun p' hp f hf)
    · exact ⟨_, hnew, rfl, rfl⟩
  · intro i id hsent p' hp' f hf
    exact hold (h.sent i id hsent p' hp' f hf)
  · -- Before a second frame the first one went out.
    intro b hb p' hp' hsplit hsecond
    rcases hair.1 hb with hb | rfl
    · exact hold (h.paired b hb p' hp' hsplit hsecond)
    · obtain rfl := some.inj (hp'.symm.trans hp)
      have hfirst : p'.first ∈ p'.frames.take v.out := by
        rcases hnext with hzero | hone
        · -- The first frame to go out is not the second one.
          rw [hzero, frames_of_split hsplit] at htake
          have hsame : p'.first = frame := by simpa using htake
          exact absurd (hsame.trans hsecond) (first_ne_second hsplit)
        · rw [hone.1, frames_of_split hsplit]
          exact mem_singleton_self _
      exact hold (h.begun p' hp _ hfirst)
  · intro a ha k hk
    rcases hair.1 ha with ha | rfl
    · exact h.times a ha k (le_of_succ_le hk)
    · exact hclock (le_of_succ_le hk)
  · -- Queued packets keep away from the sequence of the front packet.
    intro j q hj hq hsplit a ha hlt p' hp' hp_split hsame
    rcases hair.1 ha with ha | rfl
    · exact h.spaced j q hj hq hsplit a ha hlt p' hp' hp_split hsame
    · exact absurd hsame (h.distinct v.turn j p' q le_rfl hlt hp' hq hp_split hsplit)
  · intro a ha hlt
    rcases hair.1 ha with ha | rfl
    · exact h.blocked a ha hlt
    · exact absurd hlt (lt_irrefl _)

/-- The front packet is finished. -/
theorem pop (h : Tracked clock passed parcels v) (hclock : Monotone clock)
    (hqueue : v.queue = x :: rest) (id : UInt32) {outcome : PacketOutcome}
    (hsent : outcome = .sent → v.out = 1 ∧ x.1.length = 1 ∨ v.out = 2) :
    Tracked clock passed parcels { v with
      answers := v.answers + 1
      queue := rest
      out := 0
      last_now_ms := clock v.answers
      blocked := if x.1.length = 2 then Function.update v.blocked x.2
        (some (addSaturated (clock v.answers) v.guard_ms)) else v.blocked
      results := v.results ++ [(id, outcome)] } := by
  obtain ⟨p, hp, hframes, hsequence, hrest⟩ := h.front_parcel hqueue
  rw [← hframes] at hsent ⊢
  rw [← hsequence]
  have hlast : v.last_now_ms ≤ clock v.answers := h.behind _ le_rfl
  have hbefore : ∀ {a : Arrival}, a ∈ v.air → a.turn < v.turn + 1 := fun ha =>
    lt_succ_of_le (h.past _ ha)
  have hturn : (v.results ++ [(id, outcome)]).length = v.turn + 1 := length_append
  refine { h with
    turn_le := hturn.trans_le (List.getElem?_eq_some_iff.1 hp).1
    queue := by rw [View.turn, hturn]; exact hrest
    idle := fun _ => rfl
    past := fun a ha => (le_of_lt (hbefore ha)).trans hturn.ge
    front := fun p' _ a ha heq => absurd (heq.trans hturn) (hbefore ha).ne
    begun := nofun
    sent := ?_
    behind := fun k hk => hclock (le_of_succ_le hk)
    times := fun a ha k hk => h.times a ha k (le_of_succ_le hk)
    distinct := fun i j p' q hi => h.distinct i j p' q (le_of_succ_le (hturn.ge.trans hi))
    spaced := fun j q hj hq hsplit a ha hlt p' hp' hp_split hsame =>
      (h.spaced j q (le_of_succ_le (hturn.ge.trans hj)) hq hsplit a ha hlt p' hp' hp_split
        hsame).trans hlast
    blocked := ?_ }
  · intro i id' hresult p' hp' f hf
    rcases lt_trichotomy i v.results.length with hlt | rfl | hgt
    · rw [getElem?_append_left hlt] at hresult
      exact h.sent i id' hresult p' hp' f hf
    · rw [getElem?_concat_length] at hresult
      obtain ⟨-, rfl⟩ := Prod.mk.inj (some.inj hresult)
      obtain rfl := some.inj (hp'.symm.trans hp)
      -- All frames of a packet that is reported as sent are on the air.
      have htake : p'.frames.take v.out = p'.frames := by
        apply take_of_length_le
        rcases hsent rfl with ⟨hone, hlength⟩ | htwo
        · exact (hlength.trans hone.symm).le
        · rw [htwo]
          exact (frameEncode_ok p'.frameEncode_eq).1.elim (fun h => h.le.trans (by decide)) (·.le)
      exact h.begun p' hp f (htake.symm ▸ hf)
    · have hlt := (List.getElem?_eq_some_iff.1 hresult).1
      rw [length_append, length_singleton] at hlt
      omega
  · intro a ha _ p' hp' hsplit
    dsimp only
    have hreading : a.now_ms ≤ clock v.answers := h.times a ha _ le_rfl
    by_cases hblocks : p.frames.length = 2 ∧ p'.sequence = p.sequence
    · -- The sequence that is blocked now.
      rw [if_pos hblocks.1, hblocks.2]
      refine .inr ⟨_, Function.update_self .., ?_⟩
      unfold addSaturated
      split_ifs
      · exact .inl rfl
      · exact .inr (Nat.add_le_add_right hreading _)
    · have hother : a.turn < v.turn := by
        refine (h.past a ha).lt_of_ne fun heq => hblocks ?_
        rw [heq, hp] at hp'
        cases hp'
        exact ⟨split_iff.1 hsplit, rfl⟩
      have hsame : (if p.frames.length = 2 then Function.update v.blocked p.sequence
          (some (addSaturated (clock v.answers) v.guard_ms)) else v.blocked) p'.sequence =
          v.blocked p'.sequence := by
        split_ifs with htwo
        · exact Function.update_of_ne (fun heq => hblocks ⟨htwo, heq⟩) ..
        · rfl
      rw [hsame]
      exact (h.blocked a ha hother p' hp' hsplit).imp_left fun hle => hle.trans hlast

/-- Nothing is queued and nothing is on the air. -/
theorem start (guard_ms : ℕ) (blocked : UInt8 → Option ℕ) :
    Tracked clock passed [] ⟨guard_ms, [], 0, blocked, 0, 0, [], [], []⟩ where
  packets := rfl
  passes := nofun
  turn_le := le_rfl
  queue := rfl
  idle := fun _ => rfl
  airing := ⟨fun _ ha => (nomatch ha), .nil⟩
  past := nofun
  front := nofun
  begun := nofun
  sent := nofun
  paired := nofun
  behind := fun _ _ => zero_le _
  times := nofun
  distinct := nofun
  spaced := nofun
  blocked := nofun

/-- Every arrival is of a parcel that is there. -/
theorem turn_lt (h : Tracked clock passed parcels v) {a : Arrival} (ha : a ∈ v.air) :
    a.turn < parcels.length := by
  obtain ⟨p, hp, -⟩ := h.airing.parcel a ha
  exact (List.getElem?_eq_some_iff.1 hp).1

/-- A packet is queued with a sequence that is free. -/
theorem push (h : Tracked clock passed parcels v) (q : Parcel) (hpassed : passed q.packet)
    (hfree : q.frames.length = 2 → v.blocked q.sequence = none ∧
      ∀ x ∈ v.queue, x.1.length = 2 → x.2 ≠ q.sequence) :
    Tracked clock passed (parcels ++ [q]) { v with
      queue := v.queue ++ [(q.frames, q.sequence)]
      packets := v.packets ++ [q.frames] } := by
  have hold : ∀ {i : ℕ}, i < parcels.length → (parcels ++ [q])[i]? = parcels[i]? :=
    fun hi => getElem?_append_left hi
  have hair : ∀ {a : Arrival}, a ∈ v.air → (parcels ++ [q])[a.turn]? = parcels[a.turn]? :=
    fun ha => hold (h.turn_lt ha)
  -- A place of the longer list is a place of the old one or the new place.
  have hplace : ∀ {i : ℕ} {p : Parcel}, (parcels ++ [q])[i]? = some p →
      parcels[i]? = some p ∨ i = parcels.length ∧ p = q := by
    intro i p hi
    have hlt : i < (parcels ++ [q]).length := (List.getElem?_eq_some_iff.1 hi).1
    rw [length_append, length_singleton] at hlt
    rcases (Nat.lt_succ_iff.1 hlt).lt_or_eq with hlt | rfl
    · exact .inl (hold hlt ▸ hi)
    · rw [getElem?_concat_length] at hi
      exact .inr ⟨rfl, (some.inj hi).symm⟩
  -- A packet of two frames in the queue has another sequence.
  have hqueue : ∀ {i : ℕ} {p : Parcel}, v.turn ≤ i → parcels[i]? = some p → p.Split → q.Split →
      p.sequence ≠ q.sequence := by
    intro i p hi hp hp_split hq_split
    refine (hfree (split_iff.1 hq_split)).2 (p.frames, p.sequence) ?_ (split_iff.1 hp_split)
    rw [h.queue]
    refine mem_map_of_mem (mem_of_getElem? (i := i - v.turn) ?_)
    rw [getElem?_drop, Nat.add_sub_cancel' hi]
    exact hp
  have hempty : v.turn = parcels.length → v.out = 0 := by
    intro heq
    apply h.idle
    rw [h.queue, heq, drop_length, map_nil]
  refine { h with
    packets := by rw [map_append, ← h.packets]; rfl
    passes := fun p hp => (mem_append.1 hp).elim (h.passes p) fun hp =>
      mem_singleton.1 hp ▸ hpassed
    turn_le := h.turn_le.trans (length_append.symm ▸ le_add_right _ _)
    queue := ?_
    idle := fun hnil => absurd hnil (append_ne_nil_of_right_ne_nil _ (by simp))
    airing := ?_, front := ?_, begun := ?_, sent := ?_, distinct := ?_, spaced := ?_
    paired := fun b hb p hp => h.paired b hb p (hair hb ▸ hp)
    blocked := fun a ha hlt p hp => h.blocked a ha hlt p (hair ha ▸ hp) }
  · change v.queue ++ _ = ((parcels ++ [q]).drop v.turn).map _
    rw [drop_append_of_le_length h.turn_le, map_append, h.queue]
    rfl
  · refine ⟨fun a ha => hair ha ▸ h.airing.parcel a ha, ?_⟩
    refine h.airing.order.imp_of_mem fun {a b} ha hb hab => ?_
    unfold Before
    rw [hair ha, hair hb]
    exact hab
  · intro p hp a ha heq
    change (parcels ++ [q])[v.turn]? = some p at hp
    change a.turn = v.turn at heq
    rw [← heq, hair ha, heq] at hp
    exact h.front p hp a ha heq
  · intro p hp f hf
    rcases hplace hp with hp | ⟨heq, -⟩
    · exact h.begun p hp f hf
    · have hzero : v.out = 0 := hempty heq
      rw [hzero] at hf
      cases hf
  · intro i id hresult p hp f hf
    have hi : i < parcels.length := (List.getElem?_eq_some_iff.1 hresult).1.trans_le h.turn_le
    exact h.sent i id hresult p (hold hi ▸ hp) f hf
  · intro i j p p' hi hlt hp hp' hsplit hsplit'
    rcases hplace hp' with hp' | ⟨rfl, rfl⟩
    · exact h.distinct i j p p' hi hlt
        (hold (hlt.trans (List.getElem?_eq_some_iff.1 hp').1) ▸ hp) hp' hsplit hsplit'
    · exact hqueue hi (hold hlt ▸ hp) hsplit hsplit'
  · intro j p' hj hp' hsplit' a ha hlt p hp hsplit hsame
    rw [hair ha] at hp
    rcases hplace hp' with hp' | ⟨-, rfl⟩
    · exact h.spaced j p' hj hp' hsplit' a ha hlt p hp hsplit hsame
    · -- The new packet: its sequence is not blocked and not in the queue.
      rcases (h.past a ha).lt_or_eq with hpast | heq
      · rcases h.blocked a ha hpast p hp hsplit with hle | ⟨deadline, hblocked, -⟩
        · exact hle
        · rw [hsame, (hfree (split_iff.1 hsplit')).1] at hblocked
          cases hblocked
      · exact absurd hsame (hqueue heq.ge hp hsplit hsplit')

end Tracked

/-- A track whose log is stamped and whose view is tracked. -/
structure Track.Kept (clock : ℕ → ℕ) (passed : List UInt8 → Prop) (t : Track) : Prop where
  stamped : t.stamps.length = t.log.length
  tracked : ∃ parcels, Tracked clock passed parcels (t.view clock)

namespace Track

variable {t t' : Track}

theorem stamped_see (h : t.stamps.length = t.log.length) (x : Observation) :
    (t.see x).stamps.length = (t.see x).log.length := by
  simp [see, h]

/-- What a plain observation says about the air is nothing. -/
theorem view_see (h : t.stamps.length = t.log.length) {x : Observation} (hx : Plain x) :
    (t.see x).view clock = t.view clock := by
  simp only [view, see, queuedOf_concat, resultsOf_concat, airFrom_concat x t.answers 0 h]
  cases x with
  | queued | result => exact hx.elim
  | transmit _ _ status =>
    cases status with
    | ok => exact hx.elim
    | _ => simp [aired]
  | _ => simp [aired]

/-- The reading of a clock that does not go back. -/
theorem Reads.eq (h : t.Reads clock now_ms)
    (hbehind : ∀ k, t.answers ≤ k → t.last_now_ms ≤ clock k) : now_ms = clock t.answers := by
  rcases h with heq | ⟨hback, -⟩
  · exact heq
  · exact absurd (hbehind _ le_rfl) (not_le.2 hback)

/-- Every move keeps what is tracked, if the clock does not go back. -/
theorem Kept.move (hclock : Monotone clock) (h : t.Kept clock passed)
    (hmove : Move clock passed t t') : t'.Kept clock passed := by
  obtain ⟨hstamped, parcels, htracked⟩ := h
  cases hmove with
  | ask =>
    exact ⟨hstamped, parcels, htracked.later (le_succ _) le_rfl fun k hk =>
      htracked.behind k (le_of_succ_le hk)⟩
  | read reads =>
    have hnow := reads.eq htracked.behind
    refine ⟨hstamped, parcels, htracked.later (le_succ _) ?_ fun k hk => ?_⟩
    · rw [hnow]
      exact htracked.behind _ le_rfl
    · rw [hnow]
      exact hclock (le_of_succ_le hk)
  | see plain =>
    refine ⟨stamped_see hstamped _, parcels, ?_⟩
    rw [view_see hstamped plain]
    exact htracked
  | unblock blocked finite elapsed =>
    exact ⟨hstamped, parcels, htracked.unblock blocked finite elapsed⟩
  | push id sent encoded free =>
    obtain ⟨q, rfl, rfl, rfl⟩ := of_frameEncode encoded
    refine ⟨stamped_see hstamped _, parcels ++ [q], ?_⟩
    -- The parcel is queued, and nothing of it is on the air.
    have hview : (Track.see { t with queue := t.queue ++ [(q.frames, q.sequence)] }
        (.queued id q.frames)).view clock = { t.view clock with
          queue := t.queue ++ [(q.frames, q.sequence)]
          packets := (queuedOf t.log).map Prod.snd ++ [q.frames] } := by
      simp [view, see, queuedOf_concat, resultsOf_concat,
        airFrom_concat (.queued id q.frames) t.answers 0 hstamped, aired]
    rw [hview]
    exact htracked.push q sent free
  | transmit token front next =>
    rename_i x rest
    refine ⟨stamped_see (t := t.ask) hstamped _, parcels, ?_⟩
    -- The frame is of the parcel in front, which has as many results before it.
    have hview : ({ t.ask.see (.transmit (x.1.getD t.out []) token .ok) with
        out := t.out + 1 } : Track).view clock = { t.view clock with
          answers := t.answers + 1
          out := t.out + 1
          air := airFrom clock 0 t.log t.stamps ++
            [⟨(resultsOf t.log).length, x.1.getD t.out [], clock t.answers⟩] } := by
      simp only [view, see, ask, queuedOf_concat, resultsOf_concat,
        airFrom_concat (.transmit (x.1.getD t.out []) token .ok) (t.answers + 1) 0 hstamped, aired,
        zero_add, Nat.add_sub_cancel, append_nil]
    rw [hview]
    exact htracked.transmit hclock front next
  | settle empty =>
    have hout : t.out = 0 := htracked.idle empty
    rw [← hout]
    exact ⟨hstamped, parcels, htracked⟩
  | pop id outcome status front reads sent =>
    rename_i x rest now_ms
    have hnow := reads.eq htracked.behind
    subst hnow
    refine ⟨stamped_see (t := t.ask) hstamped (.result id outcome status), parcels, ?_⟩
    -- The parcel in front gives way to its result.
    have hview : ∀ blocked, (Track.see { t.ask with
          queue := rest
          out := 0
          last_now_ms := clock t.answers
          blocked := blocked } (.result id outcome status)).view clock = { t.view clock with
            answers := t.answers + 1
            queue := rest
            out := 0
            last_now_ms := clock t.answers
            blocked := blocked
            results := resultsOf t.log ++ [(id, outcome)] } := by
      intro blocked
      simp [view, see, ask, queuedOf_concat, resultsOf_concat,
        airFrom_concat (.result id outcome status) (t.answers + 1) 0 hstamped, aired]
    rw [hview]
    exact htracked.pop hclock front id sent

end Track

/-! ## From the scheduler to the receiver -/

variable {config : SchedulerConfig} {s₀ : Interface} {o : Oracle} {timeout_ms : ℕ}
  {r : Reassembler}

/-- The packets that are passed to `rns_sx1262_interface_send` in a run, by a call or in a
callback. -/
def Passed (o : Oracle) (calls : List Call) (packet : List UInt8) : Prop :=
  .send packet ∈ calls ∨ ∃ question, .send packet ∈ o.reaction question

/-- Each packet's second frame is on the air within the timeout of the first one, unless the packet
is under way: it has no result yet and its second frame has not gone out. -/
def InTime (timeout_ms : ℕ) (log : List Observation) (air : List Arrival) : Prop :=
  ∀ a ∈ air, ∀ id first second, (queuedOf log)[a.turn]? = some (id, [first, second]) →
    a.frame = first →
    (∃ b ∈ air, b.turn = a.turn ∧ b.frame = second ∧ b.now_ms < a.now_ms + timeout_ms) ∨
      (resultsOf log).length ≤ a.turn ∧ ∀ b ∈ air, b.turn = a.turn → b.frame ≠ second

/-- After every run the frames on the air are tracked. -/
theorem run_tracked (hcreate : Interface.create config = .ok s₀) (hclock : Monotone o.time)
    (calls : List Call) : ∃ parcels, Tracked o.time (Passed o calls) parcels
      ((final (step o) s₀ calls).track.view o.time) ∧
      (final (step o) s₀ calls).track.guard_ms = config.sequence_reuse_guard_ms.toNat := by
  have hreaction : ∀ question packet, .send packet ∈ o.reaction question →
      Passed o calls packet := fun question packet hmem => .inr ⟨question, hmem⟩
  -- The invariant on interfaces, with the guard of the configuration.
  let P (s : Interface) : Prop := Inv config none s ∧ s.track.Kept o.time (Passed o calls) ∧
    s.track.guard_ms = config.sequence_reuse_guard_ms.toNat
  have hstep : ∀ s call, P s → call ∈ calls → P (step o s call) := by
    rintro s call ⟨hinv, hs⟩ hcall
    obtain ⟨now', hnone, hreaches⟩ := step_reaches hreaction hinv call
      (fun packet heq => .inl (heq ▸ hcall)) nofun
    obtain rfl : now' = none := isNone_iff_eq_none.1 (isSome_eq_false_iff.1 hnone)
    have hkept : ∀ t, Relation.ReflTransGen (Move o.time (Passed o calls)) s.track t →
        t.Kept o.time (Passed o calls) ∧ t.guard_ms = config.sequence_reuse_guard_ms.toNat := by
      intro t ht
      induction ht with
      | refl => exact hs
      | tail _ hmove ih => exact ⟨ih.1.move hclock hmove, by cases hmove <;> exact ih.2⟩
    exact ⟨hreaches.inv, hkept _ hreaches.steps⟩
  have hinit : P s₀ := by
    refine ⟨undated_inv hcreate o [], ?_⟩
    unfold Interface.create at hcreate
    split_ifs at hcreate
    split at hcreate
    · cases hcreate
    · cases hcreate
      exact ⟨⟨rfl, [], .start _ _⟩, rfl⟩
  obtain ⟨-, ⟨-, parcels, htracked⟩, hguard⟩ :=
    invariant hstep hinit (each_of_mem fun call hcall => hcall)
  exact ⟨parcels, htracked, hguard⟩

/-- A new reassembler holds nothing and blocks nothing. -/
theorem Reassembler.init_ok {capacity guard_ms : ℕ}
    (h : Reassembler.init capacity timeout_ms guard_ms = .ok r) :
    r.settings = (capacity, timeout_ms, guard_ms) ∧ r.pending = none ∧
      ∀ sequence, r.blocked_until_ms sequence = none := by
  unfold Reassembler.init at h
  split_ifs at h
  cases h
  exact ⟨rfl, rfl, fun _ => rfl⟩

/-- Split radio framing never mixes packets. A scheduler and a reassembler with the same guard share
a clock, and the receiver hears some of the frames on the air when they are sent. The packets that
were queued are parcels, one for each `send` that succeeded. Every packet that the reassembler
delivers is one of them, each is delivered at most once, and they are delivered in order. When the
receiver hears every frame, and each second frame within the timeout, every packet reported as sent
is delivered. -/
theorem split_framing_kept (hcreate : Interface.create config = .ok s₀)
    (hclock : Monotone o.time) (calls : List Call)
    (hguard : timeout_ms ≤ config.sequence_reuse_guard_ms.toNat)
    (hinit : Reassembler.init packetMtu timeout_ms config.sequence_reuse_guard_ms.toNat = .ok r)
    {receptions : List Reception} (htimes : receptions.Pairwise fun x y => x.time ≤ y.time)
    (hheard : List.Sublist (Reception.framesOf receptions)
      (((final (step o) s₀ calls).air o).map fun a => (a.frame, a.now_ms))) :
    ∃ parcels : List Parcel,
      (queuedOf (runLog o s₀ calls)).map Prod.snd = parcels.map Parcel.frames ∧
      (∀ p ∈ parcels, Passed o calls p.packet) ∧
      (∀ s packet id, (Interface.send o s packet).1 = .ok id → ∃ p : Parcel, p.packet = packet ∧
        queuedOf (Interface.send o s packet).2.log = queuedOf s.log ++ [(id, p.frames)]) ∧
      (∃ turns, Matches parcels (Reception.delivered r receptions) turns) ∧
      (Reception.framesOf receptions =
          ((final (step o) s₀ calls).air o).map (fun a => (a.frame, a.now_ms)) →
        InTime timeout_ms (runLog o s₀ calls) ((final (step o) s₀ calls).air o) →
        ∃ turns, Matches parcels (Reception.delivered r receptions) turns ∧
          ∀ i id, (resultsOf (runLog o s₀ calls))[i]? = some (id, .sent) → i ∈ turns) := by
  obtain ⟨parcels, htracked, hview⟩ := run_tracked hcreate hclock calls
  have hair : Airing config.sequence_reuse_guard_ms.toNat parcels
      ((final (step o) s₀ calls).air o) := hview ▸ htracked.airing
  obtain ⟨hsettings, hpending, hblocked⟩ := Reassembler.init_ok hinit
  have hheld : Held timeout_ms parcels r ((final (step o) s₀ calls).air o) := by
    refine ⟨congrArg (fun x => x.2.1) hsettings, fun sequence since buffer hpend => ?_⟩
    rw [hpending] at hpend
    cases hpend
  have hpackets : (queuedOf (runLog o s₀ calls)).map Prod.snd = parcels.map Parcel.frames :=
    htracked.packets
  obtain ⟨turns, hmatches, -, hcomplete⟩ := hheld.delivered hair hguard htimes hheard
  refine ⟨parcels, hpackets, htracked.passes, ?_, ⟨turns, hmatches⟩, ?_⟩
  · intro s packet id hsend
    obtain ⟨sequence, frames, hencode, hlog⟩ := send_queued hsend
    obtain ⟨p, hp, -, rfl⟩ := of_frameEncode hencode
    exact ⟨p, hp, by rw [hlog, queuedOf_concat]⟩
  · intro hall hin_time
    have hpaired : Paired timeout_ms parcels ((final (step o) s₀ calls).air o) := by
      refine ⟨htracked.paired, fun a ha p hp hsplit hfirst => ?_⟩
      -- The frames of the parcel are those that the log tells.
      obtain ⟨x, hx, hframes⟩ : ∃ x, (queuedOf (runLog o s₀ calls))[a.turn]? = some x ∧
          x.2 = p.frames := by
        have hlookup := congrArg (fun l => l[a.turn]?) hpackets
        simp only [List.getElem?_map, hp, map_some] at hlookup
        exact map_eq_some_iff.1 hlookup
      obtain ⟨id, frames⟩ := x
      obtain rfl : frames = [p.first, p.second] := hframes.trans (frames_of_split hsplit)
      refine (hin_time a ha id _ _ hx hfirst).imp_right fun hunderway => ⟨fun b hb => ?_, ?_⟩
      · exact (htracked.past b hb).trans hunderway.1
      · exact hunderway.2
    have hready : Ready timeout_ms config.sequence_reuse_guard_ms.toNat parcels r
        ((final (step o) s₀ calls).air o) := by
      refine ⟨hsettings, .between hpending (hpaired.prompt_rest hair _ [] _ le_rfl rfl nofun), fun sequence deadline hd => ?_⟩
      rw [hblocked] at hd
      cases hd
    refine ⟨turns, hmatches, fun i id hsent => ?_⟩
    -- The last frame of a packet that is reported as sent is on the air.
    have hi : i < parcels.length := (List.getElem?_eq_some_iff.1 hsent).1.trans_le htracked.turn_le
    have hp : parcels[i]? = some parcels[i] := List.getElem?_eq_getElem hi
    obtain ⟨f, hlast⟩ : ∃ f, parcels[i].frames.getLast? = some f := by
      refine ⟨_, List.getLast?_eq_some_getLast fun hnil => ?_⟩
      have hcount := (frameEncode_ok parcels[i].frameEncode_eq).1
      rw [hnil] at hcount
      rcases hcount with h | h <;> cases h
    obtain ⟨a, ha, rfl, rfl⟩ := htracked.sent i id hsent parcels[i] hp f (mem_of_getLast? hlast)
    exact hcomplete hready hall a ha ⟨_, hp, hlast⟩

/-- The radio that finds the channel clear, with a clock that stands still in the end. -/
def steadyRadio : Oracle := { clearRadio with clock := fun n => UInt64.ofNat (min n 100 * 60) }

theorem monotone_steadyRadio : Monotone steadyRadio.time := by
  have htime : ∀ n, steadyRadio.time n = min n 100 * 60 := fun n =>
    mod_eq_of_lt (by omega)
  intro m n hle
  rw [htime, htime]
  omega

/-- The two frames of the packet, on the air. -/
def twoFrameAir : List Arrival :=
  [⟨0, 0x71 :: replicate 254 1, 720⟩, ⟨0, 0x71 :: replicate 46 1, 1020⟩]

/-- Both frames are heard, with a look for an expired fragment between them. -/
def twoFrameReceptions : List Reception :=
  [.hear (0x71 :: replicate 254 1) 720 .ok, .expire 900,
    .hear (0x71 :: replicate 46 1) 1020 .ok]

/-- A new interface with the default configuration. -/
def defaultInterface : Interface := (Interface.create defaultConfig).toOption.get rfl

theorem split_framing_kept_two_frames : ∃ r, Interface.create defaultConfig = .ok defaultInterface ∧
    Reassembler.init packetMtu 30000 defaultConfig.sequence_reuse_guard_ms.toNat = .ok r ∧
    Reception.delivered r twoFrameReceptions = [List.replicate 300 1] ∧
    ∃ parcels turns, Matches parcels (Reception.delivered r twoFrameReceptions) turns ∧
      0 ∈ turns := by
  refine ⟨_, rfl, rfl, by decide +kernel, ?_⟩
  have hair : (final (step steadyRadio) defaultInterface twoFrameCalls).air steadyRadio =
      twoFrameAir := by decide +kernel
  have hqueued : queuedOf (runLog steadyRadio defaultInterface twoFrameCalls) =
      [(1, [0x71 :: List.replicate 254 1, 0x71 :: List.replicate 46 1])] := by decide +kernel
  have hresults : resultsOf (runLog steadyRadio defaultInterface twoFrameCalls) = [(1, .sent)] := by
    decide +kernel
  have hall : Reception.framesOf twoFrameReceptions =
      twoFrameAir.map fun a => (a.frame, a.now_ms) := rfl
  have hheard : Reception.framesOf twoFrameReceptions =
      ((final (step steadyRadio) defaultInterface twoFrameCalls).air steadyRadio).map
        fun a => (a.frame, a.now_ms) := by rw [hair, hall]
  obtain ⟨parcels, -, -, -, -, hdelivered⟩ := @split_framing_kept defaultConfig defaultInterface
    steadyRadio 30000 _ rfl monotone_steadyRadio twoFrameCalls (by decide) rfl twoFrameReceptions
    (by decide) (hheard ▸ List.Sublist.refl _)
  have hin_time : InTime 30000 (runLog steadyRadio defaultInterface twoFrameCalls)
      ((final (step steadyRadio) defaultInterface twoFrameCalls).air steadyRadio) := by
    rw [hair]
    intro a ha id first second hpacket hfirst
    rw [hqueued] at hpacket
    rcases mem_pair.1 ha with rfl | rfl
    · cases hpacket
      exact Or.inl ⟨_, mem_cons_of_mem _ mem_cons_self, rfl, rfl, by decide⟩
    · cases hpacket
      have hlength := congrArg List.length hfirst
      simp only [length_cons, length_replicate] at hlength
      omega
  obtain ⟨turns, hmatches, hsent⟩ := hdelivered hheard hin_time
  exact ⟨parcels, turns, hmatches, hsent 0 1 (by rw [hresults]; rfl)⟩

end Reticulum.Radio
