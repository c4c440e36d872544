import Reticulum.Lxmf.Plans

/-!
# What an unverified message costs the others

`enforce_unverified_caps` of `src/lxmf/store.c` evicts until there is room for a message of the
source: fewer than `LXMF_STORE_MAX_UNVERIFIED` unverified messages, and the source known or fewer
than `LXMF_STORE_MAX_UNVERIFIED_SOURCES` sources (`Room`). Each round takes the oldest message of a
source with the most of them (`victim_spec`), which frees a source only where every source has one
message. So a message of a new source can cost more than one of the others: `put_fair_iff` says when
it does not.
-/

namespace Reticulum.Lxmf.Store

open List Index

/-! ## The victim -/

/-- What the loop of `evict_one_unverified` found in a part of the index. -/
structure Worst (index : Index) (part : List StoreMessage) (best : ℕ × Option StoreMessage) :
    Prop where
  /-- No source of the part has more messages. -/
  most : ∀ x ∈ part, notVerified x = true → unverifiedFrom index x.source ≤ best.1
  /-- The message is of a source with that many, and no message before it is of such a source. -/
  first : ∀ v, best.2 = some v → notVerified v = true ∧ unverifiedFrom index v.source = best.1 ∧
    ∃ before after, part = before ++ v :: after ∧
      ∀ x ∈ before, notVerified x = true → unverifiedFrom index x.source < best.1
  /-- Without a message there is nothing yet. -/
  none : best.2 = none → best.1 = 0

variable {index : Index} {v : StoreMessage} {source : Octets 16} {m : StoreMessage} {index₁ : Index}

/-- One more message keeps what the loop found. -/
theorem Worst.step {part : List StoreMessage} {best : ℕ × Option StoreMessage}
    (h : Worst index part best) (e : StoreMessage) :
    Worst index (part ++ [e]) (worse index best e) := by
  unfold worse
  split_ifs with hworse
  · refine ⟨fun x hx hnot => ?_, fun v hv => ?_, nofun⟩
    · rcases mem_append.mp hx with hx | hx
      · exact (h.most x hx hnot).trans hworse.2.le
      · rw [mem_singleton.mp hx]
    · cases hv
      exact ⟨hworse.1, rfl, part, [], rfl, fun x hx hnot => (h.most x hx hnot).trans_lt hworse.2⟩
  · refine ⟨fun x hx hnot => ?_, fun v hv => ?_, h.none⟩
    · rcases mem_append.mp hx with hx | hx
      · exact h.most x hx hnot
      · rw [mem_singleton.mp hx] at hnot ⊢
        exact Nat.not_lt.mp fun hlt => hworse ⟨hnot, hlt⟩
    · obtain ⟨hnot, hfrom, before, after, rfl, hbefore⟩ := h.first v hv
      exact ⟨hnot, hfrom, before, after ++ [e], by simp, hbefore⟩

/-- What the loop finds in the whole of a part. -/
theorem worst_foldl (index : Index) (part : List StoreMessage) :
    Worst index part (part.foldl (worse index) (0, none)) := by
  induction part using reverseRecOn with
  | nil => exact ⟨by simp, fun v hv => absurd hv.symm (Option.some_ne_none v), fun _ => rfl⟩
  | append_singleton part e ih =>
    rw [foldl_append]
    exact ih.step e

/-- A message that is not verified counts for its source. -/
theorem unverifiedFrom_pos {e : StoreMessage} (he : e ∈ (index : List StoreMessage))
    (hnot : notVerified e = true) : 0 < unverifiedFrom index e.source :=
  countP_pos_iff.mpr ⟨e, he, by simpa using hnot⟩

/-- The victim is the oldest message of its source, and no source has more. -/
theorem victim_spec (h : victim index = some v) : notVerified v = true ∧
      (∀ x ∈ (index : List StoreMessage), notVerified x = true →
        unverifiedFrom index x.source ≤ unverifiedFrom index v.source) ∧
      ∃ before after, (index : List StoreMessage) = before ++ v :: after ∧
        ∀ x ∈ before, notVerified x = true → x.source ≠ v.source := by
  have hworst := worst_foldl index index
  obtain ⟨hnot, hfrom, before, after, hindex, hbefore⟩ := hworst.first v h
  refine ⟨hnot, fun x hx hx' => hfrom ▸ hworst.most x hx hx', before, after, hindex, ?_⟩
  intro x hx hx' hsource
  have hlt := hbefore x hx hx'
  rw [hsource, hfrom] at hlt
  exact lt_irrefl _ hlt

/-! ## Counts -/

/-- The sources of messages that are not verified. -/
def sources (index : Index) : Finset (Octets 16) :=
  ((filter notVerified index).map StoreMessage.source).toFinset

/-- The sources are as many as the store counts. -/
theorem card_sources (index : Index) : (sources index).card = unverifiedSources index :=
  card_toFinset _

/-- There are no more sources than messages. -/
theorem unverifiedSources_le (index : Index) : unverifiedSources index ≤ unverifiedTotal index := by
  unfold unverifiedSources unverifiedTotal
  rw [countP_eq_length_filter]
  exact (dedup_sublist _).length_le.trans_eq (length_map _)

/-- A source has messages exactly when it counts. -/
theorem mem_sources : source ∈ sources index ↔ 0 < unverifiedFrom index source := by
  unfold sources unverifiedFrom
  rw [mem_toFinset, countP_pos_iff]
  constructor
  · intro h
    obtain ⟨e, he, rfl⟩ := mem_map.mp h
    obtain ⟨he, hnot⟩ := mem_filter.mp he
    exact ⟨e, he, by simpa using hnot⟩
  · rintro ⟨e, he, hboth⟩
    obtain ⟨hnot, rfl⟩ := of_decide_eq_true hboth
    exact mem_map_of_mem (mem_filter.mpr ⟨he, hnot⟩)

/-- Dropping a message of an index without repeated ids takes just that message away. -/
theorem drop_of_distinct {before after : List StoreMessage} (h : index.Distinct)
    (hindex : (index : List StoreMessage) = before ++ v :: after) :
    index.drop v.message_id = before ++ after := by
  subst hindex
  rw [Index.Distinct, map_append, map_cons, nodup_middle, nodup_cons, ← map_append] at h
  have hother : ∀ e ∈ before ++ after, e.message_id ≠ v.message_id := fun e he heq =>
    h.1 (heq ▸ mem_map_of_mem he)
  rw [forall_mem_append] at hother
  rw [Index.drop, filter_append, filter_cons_of_neg (by simp),
    filter_eq_self.mpr (by simpa using hother.1), filter_eq_self.mpr (by simpa using hother.2)]

/-- What is left of the counts when one message that is not verified is dropped. -/
theorem counts_drop (h : index.Distinct) (hv : v ∈ (index : List StoreMessage))
    (hnot : notVerified v = true) :
    unverifiedTotal (index.drop v.message_id) + 1 = unverifiedTotal index ∧
      ∀ source, unverifiedFrom (index.drop v.message_id) source +
        (if v.source = source then 1 else 0) = unverifiedFrom index source := by
  obtain ⟨before, after, hindex⟩ := append_of_mem hv
  rw [drop_of_distinct h hindex]
  subst hindex
  refine ⟨?_, fun source => ?_⟩
  · simp only [unverifiedTotal, countP_append, countP_cons_of_pos hnot]
    omega
  · simp only [unverifiedFrom, countP_append, countP_cons, hnot, true_and, decide_eq_true_eq]
    omega

/-- The sources when one message is dropped: one less where it was the only one of its source. -/
theorem sources_drop (h : index.Distinct) (hv : v ∈ (index : List StoreMessage))
    (hnot : notVerified v = true) : unverifiedSources (index.drop v.message_id) +
      (if unverifiedFrom index v.source = 1 then 1 else 0) = unverifiedSources index := by
  have hcounts := (counts_drop h hv hnot).2
  have hmem : v.source ∈ sources index := mem_sources.mpr (unverifiedFrom_pos hv hnot)
  rw [← card_sources, ← card_sources]
  split
  · have herase : sources (index.drop v.message_id) = (sources index).erase v.source := by
      ext source
      rw [Finset.mem_erase, mem_sources, mem_sources]
      have hcount := hcounts source
      by_cases hsource : v.source = source
      · subst hsource
        simp only [if_true] at hcount
        simp
        omega
      · simp only [if_neg hsource] at hcount
        simp only [ne_eq, Ne.symm hsource, not_false_eq_true, true_and]
        omega
    rw [herase, Finset.card_erase_add_one hmem]
  · have hsame : sources (index.drop v.message_id) = sources index := by
      ext source
      rw [mem_sources, mem_sources]
      have hcount := hcounts source
      by_cases hsource : v.source = source
      · subst hsource
        simp only [if_true] at hcount
        omega
      · simp only [if_neg hsource] at hcount
        omega
    rw [hsame, Nat.add_zero]

/-! ## Evictions -/

/-- The messages that are no longer there. -/
def evicted (index index' : Index) : List StoreMessage :=
  filter (fun e => (index'.find e.message_id).isNone) index

/-- The first message of its source that is not verified. -/
def Oldest (index : Index) (e : StoreMessage) : Prop :=
  ∃ before after, (index : List StoreMessage) = before ++ e :: after ∧
    ∀ x ∈ before, notVerified x = true → x.source ≠ e.source

/-- The caps hold. -/
def Capped (index : Index) : Prop :=
  unverifiedTotal index ≤ maxUnverified ∧ unverifiedSources index ≤ maxUnverifiedSources

/-- What a put of a message that is not verified should do to the others. -/
structure Fair (index index' : Index) : Prop where
  /-- The caps still hold. -/
  capped : Capped index → Capped index'
  /-- No verified message is evicted. -/
  verified : ∀ e ∈ (index : List StoreMessage), notVerified e = false →
    e ∈ (index' : List StoreMessage)
  /-- At most one message is evicted. -/
  one : (evicted index index').length ≤ 1
  /-- It is the oldest one of a source that has as many as every other. -/
  oldest : ∀ e ∈ evicted index index', notVerified e = true ∧ Oldest index e ∧
    ∀ x ∈ (index : List StoreMessage), notVerified x = true →
      unverifiedFrom index x.source ≤ unverifiedFrom index e.source

/-- A message of the source costs at most one other message: there are not too many messages, and
there are fewer sources than the cap, or as many with one message each, or the source is one of them
and stays one when a message has to go. -/
def Spares (index : Index) (source : Octets 16) : Prop :=
  unverifiedTotal index ≤ maxUnverified ∧
    (unverifiedSources index < maxUnverifiedSources ∨
      (unverifiedSources index = maxUnverifiedSources ∧
        ∀ e ∈ (index : List StoreMessage), notVerified e = true →
          unverifiedFrom index e.source ≤ 1) ∨
      (0 < unverifiedFrom index source ∧
        (unverifiedTotal index < maxUnverified ∨
          ∀ v, victim index = some v → v.source = source → 1 < unverifiedFrom index source)))

/-- One message is spared exactly when there is room, at once or after one eviction. -/
theorem spares_iff (h : index.Distinct) (source : Octets 16) : Spares index source ↔
      Room index source ∨ ∃ v, victim index = some v ∧ Room (index.drop v.message_id) source := by
  have hroom {v : StoreMessage} (hv : victim index = some v) :
      Room (index.drop v.message_id) source ↔ unverifiedTotal index ≤ maxUnverified ∧
        ((if v.source = source then 1 else 0) < unverifiedFrom index source ∨
          unverifiedSources index <
            maxUnverifiedSources + if unverifiedFrom index v.source = 1 then 1 else 0) := by
    obtain ⟨hmem, hnot⟩ := notVerified_of_victim hv
    obtain ⟨htotal, hfrom⟩ := counts_drop h hmem hnot
    have hfrom := hfrom source
    have hsources := sources_drop h hmem hnot
    unfold Room
    omega
  constructor
  · rintro ⟨htotal, hspares⟩
    by_cases hnow : Room index source
    · exact .inl hnow
    · right
      -- The message caps are reached or the source is new, so there is something to evict.
      have hpos : 0 < unverifiedTotal index := by
        by_contra hzero
        have hsources : unverifiedSources index ≤ unverifiedTotal index := unverifiedSources_le index
        refine hnow ⟨?_, .inr ?_⟩ <;> simp only [maxUnverified, maxUnverifiedSources] <;> omega
      -- There is a victim unless every message is verified.
      obtain ⟨v, hv⟩ : ∃ v, victim index = some v := by
        obtain ⟨e, he, hnot⟩ := countP_pos_iff.mp hpos
        have hworst := worst_foldl index index
        rw [← Option.isSome_iff_exists, ← Option.ne_none_iff_isSome]
        intro hnone
        have hzero := hworst.none hnone
        have hfrom := unverifiedFrom_pos he hnot
        have hle := hworst.most e he hnot
        omega
      obtain ⟨hmem, hnot⟩ := notVerified_of_victim hv
      have hvpos := unverifiedFrom_pos hmem hnot
      refine ⟨v, hv, (hroom hv).mpr ⟨htotal, ?_⟩⟩
      rcases hspares with hfew | ⟨hmany, hone⟩ | ⟨hknown, hless | hstays⟩
      · exact .inr (by omega)
      · have hle := hone v hmem hnot
        exact .inr (by rw [if_pos (by omega)]; omega)
      · exact absurd ⟨hless, .inl hknown⟩ hnow
      · left
        split
        · exact hstays v hv (by assumption)
        · exact hknown
  · rintro (⟨htotal, hknown | hfew⟩ | ⟨v, hv, hdrop⟩)
    · exact ⟨htotal.le, .inr (.inr ⟨hknown, .inl htotal⟩)⟩
    · exact ⟨htotal.le, .inl hfew⟩
    · obtain ⟨-, hmost, -⟩ := victim_spec hv
      obtain ⟨htotal, hknown | hfew⟩ := (hroom hv).mp hdrop
      · refine ⟨htotal, .inr (.inr ⟨by omega, .inr fun w hw hsource => ?_⟩)⟩
        obtain rfl := Option.some.inj (hv.symm.trans hw)
        rwa [if_pos hsource] at hknown
      · refine ⟨htotal, ?_⟩
        by_cases hless : unverifiedSources index < maxUnverifiedSources
        · exact .inl hless
        · right
          left
          split_ifs at hfew with hone
          · exact ⟨by omega, fun e he hnot => hone ▸ hmost e he hnot⟩
          · omega

/-! ## Puts -/

/-- The caps hold behind a message for which there was room. -/
theorem capped_append (hroom : Room index₁ m.source)
    (hle : unverifiedSources index₁ ≤ unverifiedSources index) (h : Capped index) :
    Capped (index₁ ++ [m]) := by
  obtain ⟨htotal, hsource⟩ := hroom
  refine ⟨?_, ?_⟩
  · have hone : countP notVerified [m] ≤ 1 := countP_le_length
    rw [unverifiedTotal, countP_append]
    unfold unverifiedTotal at htotal
    omega
  · have hsub : sources (index₁ ++ [m]) ⊆ insert m.source (sources index₁) := by
      intro source hmem
      rw [Finset.mem_insert, mem_sources]
      rw [mem_sources, unverifiedFrom, countP_append] at hmem
      by_cases hsame : source = m.source
      · exact .inl hsame
      · right
        have hzero : countP (fun e => decide (notVerified e = true ∧ e.source = source)) [m] = 0
            := by simp [Ne.symm hsame]
        unfold unverifiedFrom
        omega
    have hcard := (Finset.card_le_card hsub)
    rw [card_sources] at hcard
    have hcapped := h.2
    rcases hsource with hknown | hfew
    · rw [Finset.insert_eq_self.mpr (mem_sources.mpr hknown), card_sources] at hcard
      omega
    · have hinsert := Finset.card_insert_le m.source (sources index₁)
      rw [card_sources] at hinsert
      omega

/-- The messages that evictions left: those that are not found any more were evicted. -/
theorem mem_evicted {e : StoreMessage} (hnew : index.find m.message_id = none) :
    e ∈ evicted index (index₁ ++ [m]) ↔
      e ∈ (index : List StoreMessage) ∧ index₁.find e.message_id = none := by
  unfold evicted
  rw [mem_filter]
  refine and_congr_right fun he => ?_
  have hne : m.message_id ≠ e.message_id := by
    intro heq
    rw [Index.find, find?_eq_none] at hnew
    exact hnew e he (decide_eq_true heq.symm)
  rw [find_append, if_neg hne, Option.or_none, Option.isNone_iff_eq_none]

/-- A put that finds room, at once or after one eviction, is fair. -/
theorem fair_of_room (hdistinct : index.Distinct) (hnew : index.find m.message_id = none)
    (hroom : Room index₁ m.source)
    (h : index₁ = index ∨ ∃ v, victim index = some v ∧ index₁ = index.drop v.message_id) :
    Fair index (index₁ ++ [m]) := by
  rcases h with rfl | ⟨v, hv, rfl⟩
  · -- There is room, and nothing is evicted.
    have hnone : ∀ e, e ∉ evicted index₁ (index₁ ++ [m]) := by
      intro e he
      obtain ⟨he, hgone⟩ := (mem_evicted hnew).mp he
      rw [find_of_mem hdistinct he] at hgone
      cases hgone
    refine ⟨capped_append hroom le_rfl, fun e he _ => mem_append_left _ he, ?_, ?_⟩
    · rw [eq_nil_iff_forall_not_mem.mpr hnone]
      exact Nat.zero_le 1
    · exact fun e he => absurd he (hnone e)
  · obtain ⟨hmem, -⟩ := notVerified_of_victim hv
    obtain ⟨hnot, hmost, hfirst⟩ := victim_spec hv
    have hsources := sources_drop hdistinct hmem hnot
    -- The victim is evicted, and it alone.
    have hgone : ∀ e, e ∈ evicted index (index.drop v.message_id ++ [m]) ↔ e = v := by
      intro e
      rw [mem_evicted hnew]
      constructor
      · rintro ⟨he, hfind⟩
        by_contra hne
        have hid : v.message_id ≠ e.message_id := fun heq => by
          have hfound := find_of_mem hdistinct he
          rw [← heq, find_of_mem hdistinct hmem] at hfound
          exact hne (Option.some.inj hfound).symm
        rw [find_drop_of_ne hid, find_of_mem hdistinct he] at hfind
        cases hfind
      · rintro rfl
        exact ⟨hmem, find_drop _ _⟩
    refine ⟨capped_append hroom (by omega), fun e he hverified => ?_, ?_, fun e he => ?_⟩
    · refine mem_append_left _ (mem_filter.mpr ⟨he, ?_⟩)
      simp only [decide_not, Bool.not_eq_eq_eq_not, Bool.not_true, decide_eq_false_iff_not]
      intro heq
      have hfound := find_of_mem hdistinct he
      rw [heq, find_of_mem hdistinct hmem] at hfound
      rw [← Option.some.inj hfound, hnot] at hverified
      cases hverified
    · have hnodup : (evicted index (index.drop v.message_id ++ [m])).Nodup :=
        .filter _ (.of_map _ hdistinct)
      have hsub : evicted index (index.drop v.message_id ++ [m]) ⊆ [v] := fun e he =>
        mem_singleton.mpr ((hgone e).mp he)
      exact hnodup.length_le_of_subset hsub
    · obtain rfl := (hgone e).mp he
      exact ⟨hnot, hfirst, hmost⟩

/-- A put that stores a message which is not verified is fair to the others exactly when it costs at
most one of them. -/
theorem put_fair_iff {s s' : Store} {m : StoreMessage} (hdistinct : s.index.Distinct)
    (hnot : m.signature_state ≠ .verified) (hput : s.put disk m = ((.ok, true), s')) :
    Fair s.index s'.index ↔ Spares s.index m.source := by
  have hspec := put_spec disk s m
  rw [hput] at hspec
  cases hspec with | inserted ids hnew hevicts hroom hextends => ?_
  have hindex : s'.index = (evictions ids).foldl Record.apply s.index ++ [m] := by
    rw [hextends.index, foldl_append]
    rfl
  rw [hindex, spares_iff hdistinct]
  rcases ids with _ | ⟨id, ids⟩
  · exact iff_of_true (fair_of_room hdistinct hnew (hroom hnot) (.inl rfl)) (.inl (hroom hnot))
  · obtain ⟨hfull, ⟨v, hvictim, rfl⟩, hrest⟩ := hevicts
    rcases ids with _ | ⟨id, ids⟩
    · exact iff_of_true
        (fair_of_room hdistinct hnew (hroom hnot) (.inr ⟨v, hvictim, rfl⟩))
        (.inr ⟨v, hvictim, hroom hnot⟩)
    · -- Two victims are gone, and there was no room after the first.
      obtain ⟨hfull', ⟨w, hvictim', rfl⟩, -⟩ := hrest
      refine iff_of_false ?_ ?_
      · intro hfair
        obtain ⟨hw, hne⟩ := mem_filter.mp (notVerified_of_victim hvictim').1
        have hgone {e : StoreMessage} (he : e ∈ (s.index : List StoreMessage)) (hfind : Index.find
            ((evictions (v.message_id :: w.message_id :: ids)).foldl Record.apply s.index)
            e.message_id = none) := (mem_evicted hnew).mpr ⟨he, hfind⟩
        have hmv := hgone (notVerified_of_victim hvictim).1
          (find_evictions_of_none (w.message_id :: ids) (find_drop s.index _))
        have hmw := hgone hw (find_evictions_of_none ids (find_drop (s.index.drop v.message_id) _))
        have hone := hfair.one
        generalize evicted s.index _ = gone at hone hmv hmw
        match gone with
        | [] => cases hmv
        | [x] =>
          rw [mem_singleton] at hmv hmw
          rw [hmv, hmw] at hne
          simp at hne
        | x :: y :: gone => simp at hone
      · rintro (hnow | ⟨w, hw, hthen⟩)
        · exact hfull hnow
        · obtain rfl := Option.some.inj (hvictim.symm.trans hw)
          exact hfull' hthen

/-- A store after puts of plain messages on a disk that works. -/
def plainStore (messages : List (UInt8 × UInt8)) : Store :=
  messages.foldl (fun s e => (s.put (fun _ => .ok) (plainMessage e.1 e.2)).2) empty

/-- Eight sources have a message each: a message of a ninth source costs one of them. -/
theorem put_fair_iff_ninth :
    let s := plainStore [(1, 1), (2, 2), (3, 3), (4, 4), (5, 5), (6, 6), (7, 7), (8, 8)]
    Fair s.index (s.put (fun _ => .ok) (plainMessage 9 9)).2.index := by
  refine (put_fair_iff ?_ (show (plainMessage 9 9).signature_state ≠ .verified by decide)
    (Prod.ext (show _ = (Status.ok, true) by decide +kernel) rfl)).mpr ?_
  · unfold Index.Distinct
    decide +kernel
  · exact ⟨by decide +kernel, .inr (.inl ⟨by decide +kernel, by decide +kernel⟩)⟩

/-- Eight sources have a message each and one of them has another: a message of a ninth source costs
two messages. -/
theorem ninth_source_evicts_two :
    let s := plainStore [(1, 1), (2, 1), (3, 2), (4, 3), (5, 4), (6, 5), (7, 6), (8, 7), (9, 8)]
    (s.put (fun _ => .ok) (plainMessage 10 9)).1 = (.ok, true) ∧
      ¬ Fair s.index (s.put (fun _ => .ok) (plainMessage 10 9)).2.index := by
  refine ⟨by decide +kernel, fun h => absurd h.one ?_⟩
  decide +kernel

end Reticulum.Lxmf.Store
