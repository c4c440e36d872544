import Reticulum.Base.Bytes
import Reticulum.Radio.Framing
import Mathlib.Data.List.Pairwise

/-!
# What a reassembler makes of the frames on the air

The receiving side of split frames, apart from the scheduler that sends them. `Parcel` is a packet
with the sequence it goes out with, and an `Arrival` is a frame on the air: which parcel it is of
and when. `Airing` is all that the receiver has to know of the sender: the frames of a parcel are on
the air one after the other, parcel after parcel, and a sequence that was on the air with one split
parcel is not used for another one until the guard has passed.

A receiver hears some of the frames, and may look for expired fragments in between. A first fragment
that it holds is either followed by its own second one or expired before another frame with its
sequence comes (`Held`), so no packet is put together from two parcels. When it hears every frame,
and every second frame in time, then the fragment that it holds is always the one that the next
frame completes, and no sequence is blocked when it is used again (`Ready`).
-/

namespace Reticulum.Radio

open List Reassembler Function Nat

/-! ## Parcels -/

/-- A packet that can be sent, with the sequence of its frames. -/
structure Parcel where
  packet : List UInt8
  sequence : UInt8
  nonempty : 0 < packet.length
  fits : packet.length ≤ packetMtu
  sequence_lt : sequence < 16

namespace Parcel

section

variable (p : Parcel)

/-- The header of a packet in one frame. -/
def header : UInt8 := p.sequence <<< 4

/-- The header of both frames of a packet in two. -/
def splitHeader : UInt8 := p.sequence <<< 4 ||| 0x01

/-- A packet that takes two frames. -/
def Split : Prop := framePayloadMtu < p.packet.length

instance (p : Parcel) : Decidable p.Split := inferInstanceAs (Decidable (_ < _))

/-- The only frame of a packet that takes one. -/
def whole : List UInt8 := p.header :: p.packet

/-- The first frame of a packet that takes two. -/
def first : List UInt8 := p.splitHeader :: p.packet.take framePayloadMtu

/-- The second frame of a packet that takes two. -/
def second : List UInt8 := p.splitHeader :: p.packet.drop framePayloadMtu

/-- The frames of a packet. -/
def frames : List (List UInt8) :=
  if p.Split then [p.first, p.second] else [p.whole]

/-- The frames are those that `rns_radio_frame_encode` makes. -/
theorem frameEncode_eq : frameEncode p.packet p.sequence = .ok p.frames := by
  have hbad : ¬(p.packet.length = 0 ∨ p.packet.length > packetMtu ∨ p.sequence ≥ 16) := by
    rintro (h | h | h)
    · exact p.nonempty.ne' h
    · exact absurd p.fits (not_le.2 h)
    · exact absurd p.sequence_lt (UInt8.not_lt.2 h)
  unfold frameEncode frames
  rw [if_neg hbad]
  by_cases hsplit : p.Split
  · rw [if_pos hsplit, if_neg (not_le.2 hsplit)]
    rfl
  · rw [if_neg hsplit, if_pos (not_lt.1 hsplit)]
    rfl

end

/-- What is encoded is a parcel. -/
theorem of_frameEncode {packet : List UInt8} {sequence : UInt8} {frames : List (List UInt8)}
    (h : frameEncode packet sequence = .ok frames) :
    ∃ p : Parcel, p.packet = packet ∧ p.sequence = sequence ∧ p.frames = frames := by
  have hgood : ¬(packet.length = 0 ∨ packet.length > packetMtu ∨ sequence ≥ 16) := by
    intro hbad
    rw [frameEncode, if_pos hbad] at h
    cases h
  simp only [not_or, not_lt, UInt8.not_le] at hgood
  obtain ⟨hpos, hle, hlt⟩ := hgood
  let p : Parcel := ⟨packet, sequence, pos_of_ne_zero hpos, hle, hlt⟩
  exact ⟨p, rfl, rfl, Except.ok.inj (p.frameEncode_eq.symm.trans h)⟩

variable {p : Parcel}

theorem frames_of_split (h : p.Split) : p.frames = [p.first, p.second] := if_pos h

theorem frames_of_whole (h : ¬p.Split) : p.frames = [p.whole] := if_neg h

theorem split_iff : p.Split ↔ p.frames.length = 2 := by
  unfold frames
  split_ifs with h
  · exact iff_of_true h rfl
  · exact iff_of_false h (succ_ne_succ_iff.2 zero_ne_one)

/-- The two frames of a packet are its first and its second one. -/
theorem of_frames_eq {x y : List UInt8} (h : p.frames = [x, y]) :
    p.Split ∧ p.first = x ∧ p.second = y := by
  have hsplit : p.Split := split_iff.2 (congrArg List.length h)
  rw [frames_of_split hsplit] at h
  simpa [hsplit] using h

/-- The first frame of two is full. -/
theorem length_first (h : p.Split) : p.first.length = phyMtu := by
  rw [first, length_cons, length_take, min_eq_left (le_of_lt h)]
  rfl

/-- The second frame of two is not empty and is shorter than the first. -/
theorem length_second (h : p.Split) : 1 < p.second.length ∧ p.second.length < phyMtu := by
  have hfits := p.fits
  unfold Split at h
  simp only [second, length_cons, length_drop, framePayloadMtu, packetMtu, phyMtu] at *
  omega

theorem length_whole (h : ¬p.Split) : 1 < p.whole.length ∧ p.whole.length ≤ phyMtu := by
  have hpos := p.nonempty
  unfold Split at h
  simp only [whole, length_cons, framePayloadMtu, phyMtu] at *
  omega

theorem first_ne_second (h : p.Split) : p.first ≠ p.second := by
  intro heq
  have hlength := (length_first h).symm.trans (congrArg List.length heq)
  exact (length_second h).2.ne' hlength

/-- What the receiver reads off a header, for each of the sixteen sequences. -/
theorem header_bits {q : UInt8} (h : q < 16) : (q <<< 4) &&& 0x0e = 0 ∧ (q <<< 4) &&& 0x01 = 0 ∧
      (q <<< 4 ||| 0x01) &&& 0x0e = 0 ∧ (q <<< 4 ||| 0x01) &&& 0x01 ≠ 0 ∧
      ((q <<< 4 ||| 0x01) &&& 0xf0) >>> 4 = q := by
  revert q
  decide +kernel

end Parcel

/-! ## Frames on the air -/

/-- A frame that the radio took: the place of its packet among the packets queued, and the time. -/
structure Arrival where
  turn : ℕ
  frame : List UInt8
  now_ms : ℕ
deriving DecidableEq, Repr

/-- One arrival before another: they are of two parcels in their order, with the guard between them
when the parcels share a sequence, or they are the two frames of one parcel. -/
def Before (guard_ms : ℕ) (parcels : List Parcel) (a b : Arrival) : Prop :=
  (a.turn < b.turn ∧ ∀ p q, parcels[a.turn]? = some p → parcels[b.turn]? = some q →
    p.Split → q.Split → p.sequence = q.sequence → a.now_ms + guard_ms ≤ b.now_ms) ∨
  (a.turn = b.turn ∧ ∃ p, parcels[a.turn]? = some p ∧ p.frames = [a.frame, b.frame])

/-- Frames of parcels on the air, in order and with the guard kept. -/
structure Airing (guard_ms : ℕ) (parcels : List Parcel) (air : List Arrival) : Prop where
  parcel : ∀ a ∈ air, ∃ p, parcels[a.turn]? = some p ∧ a.frame ∈ p.frames
  order : air.Pairwise (Before guard_ms parcels)

/-- An arrival that completes its parcel. -/
def Final (parcels : List Parcel) (a : Arrival) : Prop :=
  ∃ p, parcels[a.turn]? = some p ∧ p.frames.getLast? = some a.frame

variable {guard_ms timeout_ms now_ms : ℕ} {parcels : List Parcel} {air rest : List Arrival}
  {a b : Arrival} {p q : Parcel} {r : Reassembler}

theorem Airing.sublist (h : Airing guard_ms parcels air) (hsub : List.Sublist rest air) :
    Airing guard_ms parcels rest :=
  ⟨fun a ha => h.parcel a (hsub.subset ha), h.order.sublist hsub⟩

/-- The parcel of an arrival goes in one frame, or it is in its first or second frame. -/
theorem Airing.cases (h : Airing guard_ms parcels air) (ha : a ∈ air) :
    ∃ p, parcels[a.turn]? = some p ∧ (¬p.Split ∧ a.frame = p.whole ∨
      p.Split ∧ a.frame = p.first ∨ p.Split ∧ a.frame = p.second) := by
  obtain ⟨p, hp, hmem⟩ := h.parcel a ha
  refine ⟨p, hp, ?_⟩
  by_cases hsplit : p.Split
  · rw [Parcel.frames_of_split hsplit, mem_pair] at hmem
    exact .inr (hmem.imp (⟨hsplit, ·⟩) (⟨hsplit, ·⟩))
  · rw [Parcel.frames_of_whole hsplit, mem_singleton] at hmem
    exact .inl ⟨hsplit, hmem⟩

/-- After the first frame of a parcel, a frame with the same sequence is the second frame of that
parcel or comes after the guard. -/
theorem Before.of_first (h : Before guard_ms parcels a b) (hp : parcels[a.turn]? = some p)
    (hsplit : p.Split) (hq : parcels[b.turn]? = some q) (hq_split : q.Split)
    (hsequence : q.sequence = p.sequence) :
    a.now_ms + guard_ms ≤ b.now_ms ∨ q = p ∧ b.frame = p.second := by
  rcases h with ⟨-, hguard⟩ | ⟨hturn, p', hp', hframes⟩
  · exact .inl (hguard p q hp hq hsplit hq_split hsequence.symm)
  · cases hp'.symm.trans hp
    rw [← hturn, hp] at hq
    cases hq
    exact .inr ⟨rfl, (Parcel.of_frames_eq hframes).2.2.symm⟩

/-- A parcel is completed once, and parcels are completed in their order. -/
theorem Before.turn_lt (h : Before guard_ms parcels a b) (ha : Final parcels a) :
    a.turn < b.turn := by
  rcases h with ⟨hlt, -⟩ | ⟨-, p, hp, hframes⟩
  · exact hlt
  · obtain ⟨p', hp', hlast⟩ := ha
    cases hp'.symm.trans hp
    obtain ⟨hsplit, hfirst, hsecond⟩ := Parcel.of_frames_eq hframes
    rw [hframes] at hlast
    have hsame : b.frame = a.frame := Option.some.inj hlast
    exact absurd (hfirst.trans (hsame.symm.trans hsecond.symm)) (Parcel.first_ne_second hsplit)

theorem Final.of_whole (hp : parcels[a.turn]? = some p) (hwhole : ¬p.Split)
    (hframe : a.frame = p.whole) : Final parcels a := by
  refine ⟨p, hp, ?_⟩
  rw [Parcel.frames_of_whole hwhole, hframe]
  rfl

theorem Final.of_second (hp : parcels[a.turn]? = some p) (hsplit : p.Split)
    (hframe : a.frame = p.second) : Final parcels a := by
  refine ⟨p, hp, ?_⟩
  rw [Parcel.frames_of_split hsplit, hframe]
  rfl

/-! ## Feeding a frame -/

namespace Reassembler

variable (r : Reassembler)

/-- A frame that `feed` does not refuse at once. -/
theorem frame_accepted {frame : List UInt8} (hlength : 1 < frame.length) (hle : frame.length ≤ phyMtu)
    (hlow : frame.getD 0 0 &&& 0x0e = 0) :
    ¬(frame.length ≤ 1 ∨ frame.length > phyMtu ∨ frame.getD 0 0 &&& 0x0e ≠ 0) := by
  rintro (h | h | h)
  · omega
  · omega
  · exact h hlow

/-- A frame that holds a whole packet. -/
theorem feed_whole (hwhole : ¬p.Split) (now_ms : ℕ) : r.feed p.whole now_ms =
      if p.packet.length > ((r.expire now_ms).discardPending now_ms).capacity then
        ({ (r.expire now_ms).discardPending now_ms with
            oversized_packets :=
              ((r.expire now_ms).discardPending now_ms).oversized_packets + 1 }, .error .overflow)
      else ((r.expire now_ms).discardPending now_ms, .ok p.packet) := by
  obtain ⟨hlow, hflag, -⟩ := Parcel.header_bits p.sequence_lt
  obtain ⟨hlength, hle⟩ := Parcel.length_whole hwhole
  unfold feed
  rw [if_neg (frame_accepted hlength hle hlow)]
  exact if_pos hflag

/-- The first of two frames. -/
theorem feed_first (hsplit : p.Split) (now_ms : ℕ) : r.feed p.first now_ms =
      (((r.expire now_ms).feedFirst (p.packet.take framePayloadMtu) p.sequence now_ms).1,
        .error ((r.expire now_ms).feedFirst (p.packet.take framePayloadMtu) p.sequence
          now_ms).2) := by
  obtain ⟨-, -, hlow, hflag, hsequence⟩ := Parcel.header_bits p.sequence_lt
  have hlength := Parcel.length_first hsplit
  have hgood := frame_accepted (hlength ▸ by decide) hlength.le hlow
  have hsplit_flag : ¬p.first.getD 0 0 &&& 0x01 = 0 := hflag
  have hread : (p.first.getD 0 0 &&& 0xf0) >>> 4 = p.sequence := hsequence
  unfold feed
  rw [if_neg hgood, if_neg hsplit_flag, hread]
  exact if_pos hlength

/-- The second of two frames. -/
theorem feed_second (hsplit : p.Split) (now_ms : ℕ) : r.feed p.second now_ms =
      (r.expire now_ms).feedSecond (p.packet.drop framePayloadMtu) p.sequence now_ms := by
  obtain ⟨-, -, hlow, hflag, hsequence⟩ := Parcel.header_bits p.sequence_lt
  obtain ⟨hlength, hlt⟩ := Parcel.length_second hsplit
  have hgood := frame_accepted hlength hlt.le hlow
  have hsplit_flag : ¬p.second.getD 0 0 &&& 0x01 = 0 := hflag
  have hread : (p.second.getD 0 0 &&& 0xf0) >>> 4 = p.sequence := hsequence
  unfold feed
  rw [if_neg hgood, if_neg hsplit_flag, hread]
  exact if_neg hlt.ne

/-- What a reassembler is made with: the capacity, the timeout and the guard. -/
def settings (r : Reassembler) : ℕ × ℕ × ℕ :=
  (r.capacity, r.fragment_timeout_ms, r.sequence_reuse_guard_ms)

theorem settings_expire (now_ms : ℕ) : (r.expire now_ms).settings = r.settings := by
  unfold expire
  split
  · rfl
  · split_ifs <;> rfl

theorem settings_discardPending (now_ms : ℕ) : (r.discardPending now_ms).settings = r.settings := by
  unfold discardPending
  split
  · rfl
  · rfl

theorem pending_discardPending (now_ms : ℕ) : (r.discardPending now_ms).pending = none := by
  unfold discardPending
  split
  · assumption
  · rfl

/-- The fragment that is held expires, or it has not been held for the timeout. -/
theorem expire_cases (now_ms : ℕ) : (r.expire now_ms).pending = none ∨ r.expire now_ms = r ∧
      ∀ sequence since buffer, r.pending = some (sequence, since, buffer) →
        now_ms < since + r.fragment_timeout_ms := by
  unfold expire
  split
  · exact .inl ‹_›
  · rename_i sequence since buffer hpending
    split_ifs with hyoung
    · refine .inr ⟨rfl, fun sequence' since' buffer' hpending' => ?_⟩
      cases hpending.symm.trans hpending'
      omega
    · exact .inl rfl

/-- A first fragment is held, or what was held stays or goes. -/
theorem feedFirst_cases (payload : List UInt8) (sequence : UInt8) (now_ms : ℕ) :
    let fed := r.feedFirst payload sequence now_ms
    fed.1.settings = r.settings ∧ (fed.1.pending = r.pending ∨ fed.1.pending = none ∨
      fed.1.pending = some (sequence, now_ms, payload.take framePayloadMtu)) := by
  have hasked : (r.sequenceIsBlocked sequence now_ms).2.settings = r.settings ∧
      (r.sequenceIsBlocked sequence now_ms).2.pending = r.pending := by
    unfold sequenceIsBlocked
    split
    · exact ⟨rfl, rfl⟩
    · split_ifs <;> exact ⟨rfl, rfl⟩
  have hbuffer : ∀ t : Reassembler, let fed := t.bufferFirst payload sequence now_ms
      fed.1.settings = t.settings ∧ (fed.1.pending = t.pending ∨
        fed.1.pending = some (sequence, now_ms, payload.take framePayloadMtu)) := by
    intro t
    unfold bufferFirst
    split_ifs
    · exact ⟨rfl, .inl rfl⟩
    · exact ⟨rfl, .inr rfl⟩
  unfold feedFirst
  generalize r.sequenceIsBlocked sequence now_ms = asked at hasked
  obtain ⟨blocked, t⟩ := asked
  obtain ⟨hsettings, hpending⟩ := hasked
  cases blocked with
  | true => exact ⟨hsettings, .inl hpending⟩
  | false =>
    dsimp only
    split
    · obtain ⟨hkept, hheld | hheld⟩ := hbuffer t
      · exact ⟨hkept.trans hsettings, .inl (hheld.trans hpending)⟩
      · exact ⟨hkept.trans hsettings, .inr (.inr hheld)⟩
    · split_ifs
      · exact ⟨hsettings, .inl hpending⟩
      · exact ⟨hsettings, .inr (.inl rfl)⟩
      · obtain ⟨hkept, hheld⟩ := hbuffer (t.discardPending now_ms)
        rw [settings_discardPending] at hkept
        rw [pending_discardPending] at hheld
        exact ⟨hkept.trans hsettings, .inr hheld⟩

/-- A second fragment is put to what is held with its sequence, or nothing is delivered. -/
theorem feedSecond_cases (payload : List UInt8) (sequence : UInt8) (now_ms : ℕ) :
    let fed := r.feedSecond payload sequence now_ms
    fed.1.settings = r.settings ∧ (fed.1.pending = r.pending ∨ fed.1.pending = none) ∧
      ∀ packet, fed.2 = .ok packet →
        ∃ since buffer, r.pending = some (sequence, since, buffer) ∧
          packet = buffer ++ payload := by
  unfold feedSecond
  split_ifs
  · exact ⟨rfl, .inl rfl, nofun⟩
  · split
    · exact ⟨rfl, .inl rfl, nofun⟩
    · rename_i pending_sequence since buffer hpending
      by_cases hsame : pending_sequence = sequence
      · subst hsame
        rw [if_neg (not_not.2 rfl)]
        split_ifs
        · exact ⟨rfl, .inr rfl, nofun⟩
        · exact ⟨rfl, .inr rfl, fun packet h =>
            ⟨since, buffer, hpending, (Except.ok.inj h).symm⟩⟩
      · rw [if_pos hsame]
        exact ⟨rfl, .inl rfl, nofun⟩

end Reassembler

/-! ## No packet from two parcels -/

/-- The fragment that is held goes with its own second frame only: any other frame with its sequence
comes when it has expired. -/
structure Held (timeout_ms : ℕ) (parcels : List Parcel) (r : Reassembler) (air : List Arrival) :
    Prop where
  timeout : r.fragment_timeout_ms = timeout_ms
  held : ∀ sequence since buffer, r.pending = some (sequence, since, buffer) →
    ∀ a ∈ air, ∀ p, parcels[a.turn]? = some p → p.Split → p.sequence = sequence →
      since + timeout_ms ≤ a.now_ms ∨
        a.frame = p.second ∧ buffer = p.packet.take framePayloadMtu

/-- What is held stays or goes. -/
theorem Held.keep {r' : Reassembler} (h : Held timeout_ms parcels r air)
    (hsub : rest ⊆ air) (hsettings : r'.settings = r.settings)
    (hpending : r'.pending = r.pending ∨ r'.pending = none) : Held timeout_ms parcels r' rest where
  timeout := (congrArg (fun x => x.2.1) hsettings).trans h.timeout
  held := by
    intro sequence since buffer hheld a ha
    rcases hpending with hsame | hnone
    · exact h.held sequence since buffer (hsame ▸ hheld) a (hsub ha)
    · rw [hnone] at hheld
      cases hheld

theorem Held.expire (h : Held timeout_ms parcels r air) (now_ms : ℕ) :
    Held timeout_ms parcels (r.expire now_ms) air := by
  refine h.keep (.refl _) (r.settings_expire now_ms) ?_
  rcases r.expire_cases now_ms with hnone | ⟨hsame, -⟩
  · exact .inr hnone
  · exact .inl (congrArg Reassembler.pending hsame)

/-- A frame on the air keeps it so, and what is delivered is the parcel that the frame completes. -/
theorem Held.feed (h : Held timeout_ms parcels r (a :: rest))
    (hair : Airing guard_ms parcels (a :: rest)) (hguard : timeout_ms ≤ guard_ms) :
    Held timeout_ms parcels (r.feed a.frame a.now_ms).1 rest ∧
      ∀ packet, (r.feed a.frame a.now_ms).2 = .ok packet → Final parcels a ∧
        ∃ p, parcels[a.turn]? = some p ∧ p.packet = packet := by
  have hexpired := h.expire a.now_ms
  obtain ⟨p, hp, ⟨hwhole, hframe⟩ | ⟨hsplit, hframe⟩ | ⟨hsplit, hframe⟩⟩ := hair.cases mem_cons_self
  · rw [hframe, feed_whole r hwhole]
    have hkept : Held timeout_ms parcels ((r.expire a.now_ms).discardPending a.now_ms) rest :=
      hexpired.keep (subset_cons_self _ _) (settings_discardPending _ _)
        (.inr (pending_discardPending _ _))
    split_ifs
    · exact ⟨⟨hkept.timeout, hkept.held⟩, nofun⟩
    · exact ⟨hkept, fun packet hok =>
        ⟨.of_whole hp hwhole hframe, p, hp, Except.ok.inj hok⟩⟩
  · rw [hframe, feed_first r hsplit]
    refine ⟨?_, nofun⟩
    obtain ⟨hsettings, hpending⟩ := feedFirst_cases (r.expire a.now_ms)
      (p.packet.take framePayloadMtu) p.sequence a.now_ms
    rw [← or_assoc] at hpending
    rcases hpending with hkept | hnew
    · exact hexpired.keep (subset_cons_self _ _) hsettings hkept
    · refine ⟨(congrArg (fun x => x.2.1) hsettings).trans hexpired.timeout, ?_⟩
      -- The new fragment: the guard keeps every other parcel with its sequence away.
      intro sequence since buffer hheld b hb q hq hq_split hsequence
      rw [hnew, take_take, min_self] at hheld
      cases hheld
      rcases (rel_of_pairwise_cons hair.order hb).of_first hp hsplit hq hq_split hsequence
        with hlater | ⟨rfl, hsecond⟩
      · exact .inl ((Nat.add_le_add_left hguard _).trans hlater)
      · exact .inr ⟨hsecond, rfl⟩
  · rw [hframe, feed_second r hsplit]
    obtain ⟨hsettings, hpending, hdelivered⟩ := feedSecond_cases (r.expire a.now_ms)
      (p.packet.drop framePayloadMtu) p.sequence a.now_ms
    refine ⟨hexpired.keep (subset_cons_self _ _) hsettings hpending, fun packet hok => ?_⟩
    obtain ⟨since, buffer, hheld, rfl⟩ := hdelivered packet hok
    -- The fragment has not expired, so it is the first one of this parcel.
    have hbuffer : buffer = p.packet.take framePayloadMtu := by
      rcases r.expire_cases a.now_ms with hnone | ⟨hsame, hyoung⟩
      · rw [hnone] at hheld
        cases hheld
      · rw [hsame] at hheld
        have hlt := hyoung _ _ _ hheld
        rw [h.timeout] at hlt
        rcases h.held _ _ _ hheld a mem_cons_self p hp hsplit rfl with hold | ⟨-, hbuffer⟩
        · exact absurd hlt (not_lt.2 hold)
        · exact hbuffer
    refine ⟨.of_second hp hsplit hframe, p, hp, ?_⟩
    rw [hbuffer, take_append_drop]

/-- What happens to a receiver: it hears a frame, with the answer of its callback should the frame
complete a packet, or it looks for an expired fragment. -/
inductive Reception
  | hear (frame : List UInt8) (now_ms : ℕ) (status : Status)
  | expire (now_ms : ℕ)
deriving DecidableEq, Repr

namespace Reception

/-- The time of a reception. -/
def time : Reception → ℕ
  | .hear _ now_ms _ => now_ms
  | .expire now_ms => now_ms

/-- The frames that are heard, with their times. -/
def framesOf (receptions : List Reception) : List (List UInt8 × ℕ) :=
  receptions.filterMap fun
    | .hear frame now_ms _ => some (frame, now_ms)
    | .expire _ => none

/-- The reassembler after a reception, and what it handed to its callback. -/
def receive (r : Reassembler) : Reception → Reassembler × Option (List UInt8)
  | .expire now_ms => (r.expire now_ms, none)
  | .hear frame now_ms status =>
    match r.feed frame now_ms with
    | (r, .error _) => (r, none)
    | (r, .ok packet) => (if status = .ok then r.completed else r, some packet)

/-- The packets that are delivered, in order. -/
def delivered : Reassembler → List Reception → List (List UInt8)
  | _, [] => []
  | r, x :: receptions => (receive r x).2.toList ++ delivered (receive r x).1 receptions

end Reception

/-- The packets are those of the parcels with the given places, each place once and in order. -/
structure Matches (parcels : List Parcel) (packets : List (List UInt8)) (turns : List ℕ) :
    Prop where
  increasing : turns.Pairwise (· < ·)
  packets : List.Forall₂ (fun packet i => ∃ p, parcels[i]? = some p ∧ p.packet = packet)
    packets turns

theorem Matches.nil : Matches parcels [] [] := ⟨.nil, .nil⟩

/-- One more packet in front, of a parcel before the others. -/
theorem Matches.cons {packets : List (List UInt8)} {turns : List ℕ} {packet : List UInt8} {i : ℕ}
    (h : Matches parcels packets turns) (hp : ∃ p, parcels[i]? = some p ∧ p.packet = packet)
    (hlt : ∀ j ∈ turns, i < j) : Matches parcels (packet :: packets) (i :: turns) :=
  ⟨.cons hlt h.increasing, .cons hp h.packets⟩

/-- The receiver after a frame, and what was delivered. -/
theorem Held.receive (h : Held timeout_ms parcels r (a :: rest))
    (hair : Airing guard_ms parcels (a :: rest)) (hguard : timeout_ms ≤ guard_ms)
    (status : Status) :
    let heard := Reception.receive r (.hear a.frame a.now_ms status)
    Held timeout_ms parcels heard.1 rest ∧ ∀ packet, heard.2 = some packet →
      Final parcels a ∧ ∃ p, parcels[a.turn]? = some p ∧ p.packet = packet := by
  obtain ⟨hkept, hdelivered⟩ := h.feed hair hguard
  simp only [Reception.receive]
  generalize r.feed a.frame a.now_ms = fed at hkept hdelivered
  obtain ⟨r', status' | packet⟩ := fed
  · exact ⟨hkept, nofun⟩
  · refine ⟨?_, fun packet' hsome => ?_⟩
    · split_ifs
      · exact ⟨hkept.timeout, hkept.held⟩
      · exact hkept
    · cases hsome
      exact hdelivered packet rfl

/-! ## Every parcel, when nothing is lost -/

/-- Frames on the air of which every second one follows its first one within the timeout. The last
parcel may be under way. -/
inductive Prompt (timeout_ms : ℕ) (parcels : List Parcel) : List Arrival → Prop
  | nil : Prompt timeout_ms parcels []
  | whole {a : Arrival} {p : Parcel} {rest : List Arrival} (parcel : parcels[a.turn]? = some p)
    (whole : ¬p.Split) (frame : a.frame = p.whole) (next : Prompt timeout_ms parcels rest) :
    Prompt timeout_ms parcels (a :: rest)
  | underway {a : Arrival} {p : Parcel} (parcel : parcels[a.turn]? = some p) (split : p.Split)
    (frame : a.frame = p.first) : Prompt timeout_ms parcels [a]
  | split {a b : Arrival} {p : Parcel} {rest : List Arrival} (parcel : parcels[a.turn]? = some p)
    (split : p.Split) (first : a.frame = p.first) (turn : b.turn = a.turn)
    (second : b.frame = p.second) (in_time : b.now_ms < a.now_ms + timeout_ms)
    (next : Prompt timeout_ms parcels rest) : Prompt timeout_ms parcels (a :: b :: rest)

/-- What the receiver waits for. -/
inductive Stage (timeout_ms : ℕ) (parcels : List Parcel) (r : Reassembler) : List Arrival → Prop
  | between {rest : List Arrival} (free : r.pending = none)
    (next : Prompt timeout_ms parcels rest) : Stage timeout_ms parcels r rest
  | half {b : Arrival} {p : Parcel} {since : ℕ} {rest : List Arrival}
    (held : r.pending = some (p.sequence, since, p.packet.take framePayloadMtu))
    (parcel : parcels[b.turn]? = some p) (split : p.Split) (second : b.frame = p.second)
    (in_time : b.now_ms < since + timeout_ms) (next : Prompt timeout_ms parcels rest) :
    Stage timeout_ms parcels r (b :: rest)
  | done : Stage timeout_ms parcels r []

/-- The receiver is ready for what comes: it waits for the next frame, and a sequence is not blocked
any more when a parcel uses it. -/
structure Ready (timeout_ms guard_ms : ℕ) (parcels : List Parcel) (r : Reassembler)
    (air : List Arrival) : Prop where
  settings : r.settings = (packetMtu, timeout_ms, guard_ms)
  stage : Stage timeout_ms parcels r air
  blocked : ∀ sequence deadline, r.blocked_until_ms sequence = some deadline →
    ∀ a ∈ air, ∀ p, parcels[a.turn]? = some p → p.Split → p.sequence = sequence →
      a.frame = p.first → deadline ≤ a.now_ms

/-- Nothing expires while nothing is held. -/
theorem Reassembler.expire_of_free (h : r.pending = none) (now_ms : ℕ) : r.expire now_ms = r := by
  unfold Reassembler.expire
  rw [h]

/-- Nothing expires within the timeout. -/
theorem Reassembler.expire_of_young {sequence : UInt8} {since : ℕ} {buffer : List UInt8}
    (h : r.pending = some (sequence, since, buffer))
    (hyoung : now_ms < since + r.fragment_timeout_ms) : r.expire now_ms = r := by
  unfold Reassembler.expire
  rw [h]
  exact if_pos (by omega)

/-- A first fragment is held when nothing is held and its sequence is free. -/
theorem Reassembler.feedFirst_of_free (hfree : r.pending = none)
    (hcapacity : framePayloadMtu ≤ r.capacity) {sequence : UInt8}
    (hopen : ∀ deadline, r.blocked_until_ms sequence = some deadline → deadline ≤ now_ms)
    (payload : List UInt8) :
    let fed := r.feedFirst payload sequence now_ms
    fed.1.settings = r.settings ∧
      fed.1.pending = some (sequence, now_ms, payload.take framePayloadMtu) ∧
      ∀ other deadline, fed.1.blocked_until_ms other = some deadline →
        r.blocked_until_ms other = some deadline := by
  unfold Reassembler.feedFirst Reassembler.sequenceIsBlocked
  cases hblocked : r.blocked_until_ms sequence with
  | none =>
    simp only [hfree, Reassembler.bufferFirst, if_neg (not_lt.2 hcapacity)]
    exact ⟨rfl, trivial, fun _ _ h => h⟩
  | some deadline =>
    simp only [if_pos (hopen deadline hblocked), hfree, Reassembler.bufferFirst,
      if_neg (not_lt.2 hcapacity)]
    refine ⟨rfl, trivial, fun other deadline' h => ?_⟩
    by_cases hother : other = sequence
    · rw [hother, update_self] at h
      cases h
    · rwa [update_of_ne hother] at h

/-- The second fragment of a parcel completes the first one. -/
theorem Reassembler.feedSecond_of_held {since : ℕ} (hcapacity : r.capacity = packetMtu)
    (hsplit : p.Split)
    (h : r.pending = some (p.sequence, since, p.packet.take framePayloadMtu)) (now_ms : ℕ) :
    r.feedSecond (p.packet.drop framePayloadMtu) p.sequence now_ms =
      (r.block p.sequence now_ms, .ok p.packet) := by
  have hfits := p.fits
  have htake : (p.packet.take framePayloadMtu).length = framePayloadMtu := by
    rw [length_take, min_eq_left (le_of_lt hsplit)]
  have hdrop : ¬(p.packet.drop framePayloadMtu).length > packetMtu - framePayloadMtu := by
    rw [length_drop]
    omega
  unfold Reassembler.feedSecond
  simp only [if_neg hdrop, h, ne_eq, not_true_eq_false, if_false, htake, hcapacity,
    take_append_drop]

theorem not_final_of_first (hp : parcels[a.turn]? = some p) (hsplit : p.Split)
    (hframe : a.frame = p.first) : ¬Final parcels a := by
  rintro ⟨p', hp', hlast⟩
  cases hp'.symm.trans hp
  rw [Parcel.frames_of_split hsplit, hframe] at hlast
  exact Parcel.first_ne_second hsplit (Option.some.inj hlast).symm

section

variable (h : Ready timeout_ms guard_ms parcels r air)
include h

theorem Ready.capacity : r.capacity = packetMtu :=
  congrArg (fun x => x.1) h.settings

theorem Ready.timeout : r.fragment_timeout_ms = timeout_ms := congrArg (fun x => x.2.1) h.settings

theorem Ready.guard : r.sequence_reuse_guard_ms = guard_ms := congrArg (fun x => x.2.2) h.settings

/-- Looking for an expired fragment before the next frame comes finds none. -/
theorem Ready.expire (hnow : ∀ a ∈ air, now_ms ≤ a.now_ms) :
    Ready timeout_ms guard_ms parcels (r.expire now_ms) air := by
  cases h.stage with
  | between free _ => rwa [expire_of_free free]
  | half held _ _ _ in_time _ =>
    have hyoung := (hnow _ mem_cons_self).trans_lt in_time
    rw [← h.timeout] at hyoung
    rwa [expire_of_young held hyoung]
  | done =>
    exact ⟨(r.settings_expire now_ms).trans h.settings, .done, nofun⟩

end

section

variable (h : Ready timeout_ms guard_ms parcels r (a :: rest))
include h

/-- The receiver that blocked no other sequence is ready for the rest. -/
theorem Ready.next {r' : Reassembler}
    (hsettings : r'.settings = r.settings) (hstage : Stage timeout_ms parcels r' rest)
    (hblocked : ∀ sequence deadline, r'.blocked_until_ms sequence = some deadline →
      r.blocked_until_ms sequence = some deadline) : Ready timeout_ms guard_ms parcels r' rest :=
  ⟨hsettings.trans h.settings, hstage, fun sequence deadline hd b hb =>
    h.blocked sequence deadline (hblocked sequence deadline hd) b (mem_cons_of_mem a hb)⟩

/-- The sequence of a parcel that was completed is free again when another one uses it. -/
theorem Ready.complete (hair : Airing guard_ms parcels (a :: rest)) (hp : parcels[a.turn]? = some p)
    (hsplit : p.Split) (hsecond : a.frame = p.second) (hnext : Prompt timeout_ms parcels rest) :
    Ready timeout_ms guard_ms parcels (r.block p.sequence a.now_ms) rest := by
  refine ⟨h.settings, .between rfl hnext, ?_⟩
  intro sequence deadline hdeadline b hb q hq hq_split hsequence hfirst
  by_cases hsame : sequence = p.sequence
  · subst hsame
    have hblock : (r.block p.sequence a.now_ms).blocked_until_ms p.sequence =
        some (Reassembler.deadlineAfter a.now_ms r.sequence_reuse_guard_ms) :=
      update_self ..
    obtain rfl := Option.some.inj (hblock.symm.trans hdeadline)
    rw [h.guard]
    have hlater : a.now_ms + guard_ms ≤ b.now_ms := by
      rcases rel_of_pairwise_cons hair.order hb with ⟨-, hguard⟩ | ⟨hturn, p', hp', hframes⟩
      · exact hguard p q hp hq hsplit hq_split hsequence.symm
      · -- The second frame of a parcel is not before another one of its frames.
        cases hp'.symm.trans hp
        exact absurd ((Parcel.of_frames_eq hframes).2.1.trans hsecond) (Parcel.first_ne_second hsplit)
    exact (min_le_left _ _).trans hlater
  · have hkept : (r.block p.sequence a.now_ms).blocked_until_ms sequence =
        r.blocked_until_ms sequence := update_of_ne hsame ..
    exact h.blocked sequence deadline (hkept ▸ hdeadline) b (mem_cons_of_mem a hb) q hq
      hq_split hsequence hfirst

/-- The next frame leaves the receiver ready for the rest, and delivers the parcel when it completes
one. -/
theorem Ready.feed (hair : Airing guard_ms parcels (a :: rest)) :
    Ready timeout_ms guard_ms parcels (r.feed a.frame a.now_ms).1 rest ∧
      (Final parcels a → ∃ p, parcels[a.turn]? = some p ∧
        (r.feed a.frame a.now_ms).2 = .ok p.packet) := by
  have hcapacity := h.capacity
  cases h.stage with
  | between free next =>
    have hexpire := expire_of_free free a.now_ms
    cases next with
    | whole parcel whole frame next =>
      rename_i p
      have hdiscard : r.discardPending a.now_ms = r := by
        unfold Reassembler.discardPending
        rw [free]
      have hroom : ¬p.packet.length > r.capacity := by
        rw [hcapacity]
        exact not_lt.2 p.fits
      rw [frame, feed_whole r whole, hexpire, hdiscard, if_neg hroom]
      exact ⟨h.next rfl (.between free next) fun _ _ hd => hd, fun _ => ⟨p, parcel, rfl⟩⟩
    | underway parcel split frame =>
      rw [frame, feed_first r split]
      refine ⟨⟨?_, .done, nofun⟩,
        fun hfinal => absurd hfinal (not_final_of_first parcel split frame)⟩
      rw [(feedFirst_cases _ _ _ _).1, r.settings_expire, h.settings]
    | split parcel split first turn second in_time next =>
      rename_i b p rest
      have hopen : ∀ deadline, r.blocked_until_ms p.sequence = some deadline →
          deadline ≤ a.now_ms := fun deadline hd =>
        h.blocked p.sequence deadline hd a mem_cons_self p parcel split rfl first
      obtain ⟨hsettings, hheld, hblocked⟩ := feedFirst_of_free free
        (hcapacity ▸ by decide) hopen (p.packet.take framePayloadMtu)
      rw [take_take, min_self] at hheld
      rw [first, feed_first r split, hexpire]
      refine ⟨h.next hsettings (.half hheld (turn ▸ parcel) split second in_time next) hblocked,
        fun hfinal => absurd hfinal (not_final_of_first parcel split first)⟩
  | half held parcel split second in_time next =>
    rename_i p since
    rw [← h.timeout] at in_time
    rw [second, feed_second r split, expire_of_young held in_time,
      feedSecond_of_held hcapacity split held]
    exact ⟨h.complete hair parcel split second next, fun _ => ⟨p, parcel, rfl⟩⟩

/-- The receiver after the next frame, and what was delivered. -/
theorem Ready.receive (hair : Airing guard_ms parcels (a :: rest)) (status : Status) :
    let heard := Reception.receive r (.hear a.frame a.now_ms status)
    Ready timeout_ms guard_ms parcels heard.1 rest ∧
      (Final parcels a → ∃ p, parcels[a.turn]? = some p ∧ heard.2 = some p.packet) := by
  obtain ⟨hready, hdelivered⟩ := h.feed hair
  simp only [Reception.receive]
  generalize r.feed a.frame a.now_ms = fed at hready hdelivered
  obtain ⟨r', status' | packet⟩ := fed
  · refine ⟨hready, fun hfinal => ?_⟩
    obtain ⟨p, -, hok⟩ := hdelivered hfinal
    cases hok
  · refine ⟨?_, fun hfinal => ?_⟩
    · split_ifs
      · refine ⟨hready.settings, ?_, hready.blocked⟩
        cases hready.stage with
        | between free next => exact .between free next
        | half held parcel split second in_time next =>
          exact .half held parcel split second in_time next
        | done => exact .done
      · exact hready
    · obtain ⟨p, hp, hok⟩ := hdelivered hfinal
      exact ⟨p, hp, congrArg some (Except.ok.inj hok)⟩

end

/-- Whatever is lost, every packet that is delivered is a parcel, and each parcel is delivered at
most once and in its order. When every frame is heard, every parcel that is complete on the air is
delivered. -/
theorem Held.delivered (h : Held timeout_ms parcels r air) (hair : Airing guard_ms parcels air)
    (hguard : timeout_ms ≤ guard_ms) {receptions : List Reception}
    (htimes : receptions.Pairwise fun x y => x.time ≤ y.time)
    (hheard : List.Sublist (Reception.framesOf receptions) (air.map fun a => (a.frame, a.now_ms))) :
    ∃ turns, Matches parcels (Reception.delivered r receptions) turns ∧
      (∀ i ∈ turns, ∃ a ∈ air, a.turn = i) ∧
      (Ready timeout_ms guard_ms parcels r air →
        Reception.framesOf receptions = air.map (fun a => (a.frame, a.now_ms)) →
        ∀ a ∈ air, Final parcels a → a.turn ∈ turns) := by
  induction receptions generalizing r air with
  | nil => exact ⟨[], .nil, nofun, fun _ hall a ha => nomatch map_eq_nil_iff.1 hall.symm ▸ ha⟩
  | cons x receptions ih =>
    rw [pairwise_cons] at htimes
    cases x with
    | expire now_ms =>
      obtain ⟨turns, hmatches, hturns, hcomplete⟩ := ih (h.expire now_ms) hair htimes.2 hheard
      refine ⟨turns, hmatches, hturns, fun hready hall => hcomplete (hready.expire ?_) hall⟩
      intro a ha
      have hmem : (a.frame, a.now_ms) ∈ Reception.framesOf receptions := by
        have hmap : (a.frame, a.now_ms) ∈ air.map fun a => (a.frame, a.now_ms) :=
          mem_map_of_mem ha
        rwa [← hall] at hmap
      obtain ⟨y, hy, heq⟩ := mem_filterMap.1 hmem
      cases y with
      | hear frame' now_ms' status =>
        cases heq
        exact htimes.1 _ hy
      | expire now_ms' => cases heq
    | hear frame now_ms status =>
      -- What was sent before this frame and not heard is lost.
      obtain ⟨heard, hsub, heq⟩ := sublist_map_iff.1 hheard
      obtain ⟨a, rest, rfl, ha, hrest⟩ := map_eq_cons_iff.1 heq.symm
      cases ha
      have hair' := hair.sublist hsub
      obtain ⟨hkept, hdelivered⟩ :=
        (h.keep hsub.subset rfl (.inl rfl)).receive hair' hguard status
      obtain ⟨turns, hmatches, hturns, hcomplete⟩ :=
        ih hkept (hair'.sublist (sublist_cons_self a rest)) htimes.2 (hrest ▸ .refl _)
      have hrest_turns : ∀ i ∈ turns, ∃ b ∈ air, b.turn = i := by
        intro i hi
        obtain ⟨b, hb, hturn⟩ := hturns i hi
        exact ⟨b, hsub.subset (mem_cons_of_mem a hb), hturn⟩
      -- When nothing is lost, a parcel is complete with this frame or with a later one.
      have hlater (hready : Ready timeout_ms guard_ms parcels r air)
          (hall : Reception.framesOf (.hear a.frame a.now_ms status :: receptions) =
            air.map fun a => (a.frame, a.now_ms)) (b : Arrival) (hb : b ∈ air)
          (hfinal : Final parcels b) : b.turn ∈ turns ∨ b = a ∧ ∃ packet,
            (Reception.receive r (.hear a.frame a.now_ms status)).2 = some packet := by
        obtain rfl := hsub.eq_of_length (by simpa using congrArg List.length (heq.symm.trans hall))
        obtain ⟨hready', hnow⟩ := hready.receive hair' status
        rcases mem_cons.1 hb with rfl | hb
        · obtain ⟨p, -, hsome⟩ := hnow hfinal
          exact .inr ⟨rfl, _, hsome⟩
        · exact .inl (hcomplete hready' hrest.symm b hb hfinal)
      unfold Reception.delivered
      cases hout : (Reception.receive r (.hear a.frame a.now_ms status)).2 with
      | none =>
        refine ⟨turns, hmatches, hrest_turns, fun hready hall b hb hfinal => ?_⟩
        refine (hlater hready hall b hb hfinal).resolve_right ?_
        rintro ⟨-, packet, hsome⟩
        cases hout.symm.trans hsome
      | some packet =>
        obtain ⟨hfinal, hp⟩ := hdelivered packet hout
        refine ⟨a.turn :: turns, hmatches.cons hp fun j hj => ?_, fun i hi => ?_,
          fun hready hall b hb hfinal => ?_⟩
        · obtain ⟨b, hb, rfl⟩ := hturns j hj
          exact (rel_of_pairwise_cons hair'.order hb).turn_lt hfinal
        · rcases mem_cons.1 hi with rfl | hi
          · exact ⟨a, hsub.subset mem_cons_self, rfl⟩
          · exact hrest_turns i hi
        · rcases hlater hready hall b hb hfinal with hmem | ⟨rfl, -⟩
          · exact mem_cons_of_mem _ hmem
          · exact mem_cons_self

/-! ## When every second frame is in time -/

/-- What the sender has to do for the receiver to get every parcel: a second frame comes after a
first one and within the timeout, unless the parcel is under way. -/
structure Paired (timeout_ms : ℕ) (parcels : List Parcel) (air : List Arrival) : Prop where
  first : ∀ b ∈ air, ∀ p, parcels[b.turn]? = some p → p.Split → b.frame = p.second →
    ∃ a ∈ air, a.turn = b.turn ∧ a.frame = p.first
  second : ∀ a ∈ air, ∀ p, parcels[a.turn]? = some p → p.Split → a.frame = p.first →
    (∃ b ∈ air, b.turn = a.turn ∧ b.frame = p.second ∧ b.now_ms < a.now_ms + timeout_ms) ∨
      (∀ b ∈ air, b.turn ≤ a.turn) ∧ ∀ b ∈ air, b.turn = a.turn → b.frame ≠ p.second

theorem Before.turn_le (h : Before guard_ms parcels a b) : a.turn ≤ b.turn :=
  h.elim (fun h => le_of_lt h.1) fun h => le_of_eq h.1

/-- Two arrivals of one split parcel are its first frame and then its second one. -/
theorem Before.of_turn_eq (h : Before guard_ms parcels a b) (hturn : b.turn ≤ a.turn)
    (hp : parcels[a.turn]? = some p) : a.frame = p.first ∧ b.frame = p.second := by
  rcases h with ⟨hlt, -⟩ | ⟨-, p', hp', hframes⟩
  · exact absurd hturn (not_le.2 hlt)
  · cases hp'.symm.trans hp
    exact (Parcel.of_frames_eq hframes).2.imp .symm .symm

/-- The second frame of a parcel is the next one on the air after the first. -/
theorem Airing.next_eq {tail : List Arrival} (hair : Airing guard_ms parcels (a :: tail))
    (hp : parcels[a.turn]? = some p) (hsplit : p.Split) (hb : b ∈ tail)
    (hturn : b.turn = a.turn) : ∃ rest, tail = b :: rest := by
  cases tail with
  | nil => cases hb
  | cons c rest =>
    rcases mem_cons.1 hb with rfl | hb
    · exact ⟨rest, rfl⟩
    · have hac := rel_of_pairwise_cons hair.order mem_cons_self
      have hcb := rel_of_pairwise_cons hair.order.of_cons hb
      -- A frame between the two would be of the same parcel, both its second and its first one.
      have hca : c.turn ≤ a.turn := hcb.turn_le.trans_eq hturn
      have heq : a.turn = c.turn := le_antisymm hac.turn_le hca
      have hsecond := (hac.of_turn_eq hca hp).2
      have hfirst := (hcb.of_turn_eq ((hturn.trans heq).le) (heq ▸ hp)).1
      exact absurd (hfirst.symm.trans hsecond) (Parcel.first_ne_second hsplit)

/-- So the frames on the air are prompt, from any place between two parcels on. -/
theorem Paired.prompt_rest (h : Paired timeout_ms parcels air) (hair : Airing guard_ms parcels air)
    (n : ℕ) : ∀ (before rest : List Arrival), rest.length ≤ n → air = before ++ rest →
      (∀ a ∈ before, ∀ b ∈ rest, a.turn < b.turn) → Prompt timeout_ms parcels rest := by
  induction n with
  | zero =>
    intro before rest hlength _ _
    rw [length_eq_zero_iff.1 (le_zero.1 hlength)]
    exact .nil
  | succ n ih =>
    intro before rest hlength heq hbetween
    cases rest with
    | nil => exact .nil
    | cons a tail =>
      have hrest : Airing guard_ms parcels (a :: tail) :=
        hair.sublist (heq ▸ sublist_append_right before (a :: tail))
      have hmem : ∀ b, b ∈ air ↔ b ∈ before ∨ b = a ∨ b ∈ tail := by
        intro b
        rw [heq, mem_append, mem_cons]
      have ha : a ∈ air := (hmem a).2 (.inr (.inl rfl))
      obtain ⟨p, hp, ⟨hwhole, hframe⟩ | ⟨hsplit, hframe⟩ | ⟨hsplit, hframe⟩⟩ := hair.cases ha
      · refine .whole hp hwhole hframe (ih (before ++ [a]) tail (le_of_succ_le_succ hlength)
          (by rw [heq, append_assoc]; rfl) ?_)
        intro c hc b hb
        rcases mem_append.1 hc with hc | hc
        · exact hbetween c hc b (mem_cons_of_mem a hb)
        · obtain rfl := mem_singleton.1 hc
          exact (rel_of_pairwise_cons hrest.order hb).turn_lt (.of_whole hp hwhole hframe)
      · rcases h.second a ha p hp hsplit hframe with ⟨b, hb, hturn, hsecond, hin_time⟩ | ⟨hlast, hno⟩
        · -- The second frame follows at once.
          have hb_tail : b ∈ tail := by
            rcases (hmem b).1 hb with hb | rfl | hb
            · exact absurd hturn (hbetween b hb a mem_cons_self).ne
            · exact absurd (hframe.symm.trans hsecond) (Parcel.first_ne_second hsplit)
            · exact hb
          obtain ⟨rest, rfl⟩ := hrest.next_eq hp hsplit hb_tail hturn
          refine .split hp hsplit hframe hturn hsecond hin_time (ih (before ++ [a, b]) rest ?_
            (by rw [heq, append_assoc]; rfl) ?_)
          · simp only [length_cons] at hlength
            omega
          · intro c hc d hd
            have hbd : b.turn < d.turn := (rel_of_pairwise_cons hrest.order.of_cons hd).turn_lt
              (.of_second (hturn ▸ hp) hsplit hsecond)
            rcases mem_append.1 hc with hc | hc
            · exact hbetween c hc d (mem_cons_of_mem a (mem_cons_of_mem b hd))
            · rcases mem_pair.1 hc with rfl | rfl
              · exact hturn ▸ hbd
              · exact hbd
        · -- Under way: nothing comes after the first frame.
          cases tail with
          | nil => exact .underway hp hsplit hframe
          | cons c tail =>
            have hc : c ∈ air := (hmem c).2 (.inr (.inr mem_cons_self))
            have hac := rel_of_pairwise_cons hrest.order (mem_cons_self (l := tail))
            have hturn : c.turn = a.turn := le_antisymm (hlast c hc) hac.turn_le
            exact absurd (hac.of_turn_eq hturn.le hp).2 (hno c hc hturn)
      · -- A second frame comes after its first one, which is not of an earlier parcel.
        obtain ⟨c, hc, hturn, hfirst⟩ := h.first a ha p hp hsplit hframe
        rcases (hmem c).1 hc with hc | rfl | hc
        · exact absurd hturn (hbetween c hc a mem_cons_self).ne
        · exact absurd (hfirst.symm.trans hframe) (Parcel.first_ne_second hsplit)
        · have hac := rel_of_pairwise_cons hrest.order hc
          have hfirst' := (hac.of_turn_eq hturn.le hp).1
          exact absurd (hfirst'.symm.trans hframe) (Parcel.first_ne_second hsplit)

end Reticulum.Radio
