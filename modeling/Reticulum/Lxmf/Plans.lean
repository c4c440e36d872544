import Reticulum.Base.Script
import Reticulum.Lxmf.Store

/-!
# What an operation on the store writes

The records that an operation appends, and the status behind them, can be seen from the messages
before it: they are its plan. The operations of `Reticulum.Lxmf.Store` are the runs of their plans
(`update_eq_run`, `put_eq_run`), so that what they do is read off the plans. A put that finds no
room evicts one message after the other before it appends its own (`insertion_putPlan`), and what it
leaves is told by its status (`put_spec`).
-/

namespace Reticulum.Lxmf.Store

open List Index Option

/-! ## Evictions -/

/-- The records of evictions. -/
def evictions (ids : List (Octets 32)) : List Record := ids.map .remove

variable {index : Index} {source : Octets 16}

/-- Evictions leave an index part of what it was. -/
theorem find_evictions_of_none {id : Octets 32} (ids : List (Octets 32)) (h : index.find id = none) :
    Index.find ((evictions ids).foldl Record.apply index) id = none := by
  induction ids generalizing index with
  | nil => exact h
  | cons other ids ih =>
    refine ih ?_
    by_cases hother : other = id
    · rw [hother]
      exact find_drop index id
    · exact (find_drop_of_ne hother).trans h

/-- A message that is evicted is not verified. -/
theorem notVerified_of_victim {e : StoreMessage} (h : victim index = some e) :
    e ∈ (index : List StoreMessage) ∧ notVerified e = true := by
  refine List.foldlRecOn (motive := fun best => ∀ e ∈ best.2, e ∈ (index : List StoreMessage) ∧
    notVerified e = true) _ (worse index) (fun e he => absurd he (not_mem_none e))
    (fun best hbest x hx e he => ?_) e h
  unfold worse at he
  split_ifs at he with hworse
  · cases he
    exact ⟨hx, hworse.1⟩
  · exact hbest e he

/-- There is room for a message of the source: the test of `enforce_unverified_caps`. -/
def Room (index : Index) (source : Octets 16) : Prop :=
  unverifiedTotal index < maxUnverified ∧
    (0 < unverifiedFrom index source ∨ unverifiedSources index < maxUnverifiedSources)

instance (index : Index) (source : Octets 16) : Decidable (Room index source) := by
  unfold Room
  infer_instance

/-- Messages that are evicted one after the other, while there is no room for one of the source. -/
def Evicts (source : Octets 16) : Index → List (Octets 32) → Prop
  | _, [] => True
  | index, id :: ids => ¬ Room index source ∧ (∃ v, victim index = some v ∧ v.message_id = id) ∧
      Evicts source (index.drop id) ids

/-! ## Plans -/

/-- What a change of one entry writes. -/
def updatePlan (index : Index) (id : Octets 32) (same : StoreMessage → Bool) (record : Record) :
    Script Record Status :=
  match index.find id with
  | none => .stop .format
  | some e => if same e then .stop .ok else .write record (.stop .ok)

/-- What is written to make room for a message of a source. -/
def roomPlan (source : Octets 16) (next : Index → Script Record Status) :
    ℕ → Index → Script Record Status
  | 0, _ => .stop .bounds
  | rounds + 1, index =>
    if Room index source then next index
    else
      match victim index with
      | none => .stop .bounds
      | some v =>
        .write (.remove v.message_id) (roomPlan source next rounds (index.drop v.message_id))

/-- What the end of a put writes. -/
def recordPlan (m : StoreMessage) (index : Index) : Script Record Status :=
  if maxMessages ≤ index.length then .stop .bounds else .write (.put m) (.stop .ok)

/-- What a put writes. -/
def putPlan (m : StoreMessage) (index : Index) : Script Record Status :=
  if m.content.length > maxContent ∨ m.packed.length > maxPacked ∨ ¬ m.delivery.valid then
    .stop .argument
  else if (index.find m.message_id).isSome then .stop .ok
  else if m.signature_state ≠ .verified then
    roomPlan m.source (recordPlan m) (index.length + 1) index
  else recordPlan m index

/-- Making room ends with room, after evictions, or it stops behind them. -/
theorem roomPlan_eq (source : Octets 16) (next : Index → Script Record Status) (rounds : ℕ)
    (index : Index) : ∃ ids, let kept := (evictions ids).foldl Record.apply index
      Evicts source index ids ∧ (Room kept source ∧
          roomPlan source next rounds index = (next kept).after (evictions ids) ∨
        roomPlan source next rounds index = (Script.stop .bounds).after (evictions ids)) := by
  induction rounds generalizing index with
  | zero => exact ⟨[], trivial, .inr rfl⟩
  | succ rounds ih =>
    unfold roomPlan
    split_ifs with hroom
    · exact ⟨[], trivial, .inl ⟨hroom, rfl⟩⟩
    · cases hvictim : victim index with
      | none => exact ⟨[], trivial, .inr rfl⟩
      | some v =>
        obtain ⟨ids, hids, hrest⟩ := ih (index.drop v.message_id)
        refine ⟨v.message_id :: ids, ⟨hroom, ⟨v, hvictim, rfl⟩, hids⟩, hrest.imp ?_ ?_⟩
        · exact fun h => ⟨h.1, congrArg (Script.write _) h.2⟩
        · exact congrArg (Script.write _)

/-- The plan of a put: nothing where the message is there already, evictions and then the message,
or evictions before it is refused. -/
inductive Insertion (index : Index) (m : StoreMessage) : Script Record Status → Prop
  | present (hold : (index.find m.message_id).isSome) : Insertion index m (.stop .ok)
  | inserted {ids : List (Octets 32)}
      (hrange : ¬ (m.content.length > maxContent ∨ m.packed.length > maxPacked ∨
        ¬ m.delivery.valid = true))
      (hnew : index.find m.message_id = none) (hevicts : Evicts m.source index ids)
      (hnot : ids ≠ [] → m.signature_state ≠ .verified)
      (hroom : m.signature_state ≠ .verified →
        Room ((evictions ids).foldl Record.apply index) m.source)
      (hplace : length ((evictions ids).foldl Record.apply index) < maxMessages) :
      Insertion index m ((Script.write (.put m) (.stop .ok)).after (evictions ids))
  | refused {ids : List (Octets 32)} {status : Status} (hstatus : status ≠ .ok)
      (hevicts : Evicts m.source index ids) (hnot : ids ≠ [] → m.signature_state ≠ .verified) :
      Insertion index m ((Script.stop status).after (evictions ids))

theorem insertion_putPlan (m : StoreMessage) (index : Index) :
    Insertion index m (putPlan m index) := by
  unfold putPlan
  split_ifs with hrange hold hnot
  · exact @Insertion.refused index m [] .argument nofun trivial (absurd rfl)
  · exact .present hold
  · rw [not_isSome_iff_eq_none] at hold
    obtain ⟨ids, hids, ⟨hroom, hplan⟩ | hplan⟩ :=
      roomPlan_eq m.source (recordPlan m) (index.length + 1) index
    · rw [hplan, recordPlan]
      split_ifs with hfull
      · exact .refused nofun hids fun _ => hnot
      · exact .inserted hrange hold hids (fun _ => hnot) (fun _ => hroom) (not_le.mp hfull)
    · rw [hplan]
      exact .refused nofun hids fun _ => hnot
  · rw [not_isSome_iff_eq_none] at hold
    unfold recordPlan
    split_ifs with hfull
    · exact @Insertion.refused index m [] .bounds nofun trivial (absurd rfl)
    · exact @Insertion.inserted index m [] hrange hold trivial (absurd rfl)
        (fun h => absurd h hnot) (not_le.mp hfull)

/-! ## Operations follow their plans -/

/-- An append, and what it makes of the index. -/
def follow (disk : ℕ → Status) (s : Store) (record : Record) : Status × Store :=
  append disk s record (record.apply s.index)

variable {disk : ℕ → Status} {s s' : Store}

theorem update_eq_run {id : Octets 32} {same : StoreMessage → Bool} {record : Record}
    {f : StoreMessage → StoreMessage} (hrecord : record.apply s.index = s.index.modify id f) :
    s.update disk id same record f = (updatePlan s.index id same record).run .ok (follow disk) s := by
  unfold update updatePlan
  cases s.index.find id with
  | none => rfl
  | some e =>
    dsimp only
    split_ifs
    · rfl
    · rw [Script.run_write_stop, follow, hrecord]

theorem remove_eq_run (id : Octets 32) : s.remove disk id =
    (updatePlan s.index id (fun _ => false) (.remove id)).run .ok (follow disk) s := by
  unfold remove updatePlan
  cases s.index.find id with
  | none => rfl
  | some e => exact (Script.run_write_stop .ok (follow disk) (.remove id) s).symm

/-- The caps are enforced, and then what is next is written. -/
theorem roomPlan_run (source : Octets 16) (next : Index → Script Record Status) (rounds : ℕ)
    (s : Store) : (roomPlan source next rounds s.index).run .ok (follow disk) s =
      match enforceUnverifiedCaps disk source rounds s with
      | (.ok, s) => (next s.index).run .ok (follow disk) s
      | r => r := by
  induction rounds generalizing s with
  | zero => rfl
  | succ rounds ih =>
    unfold roomPlan enforceUnverifiedCaps evictOneUnverified
    by_cases hroom : Room s.index source
    · rw [if_pos hroom]
      unfold Room at hroom
      rw [if_pos hroom]
    · rw [if_neg hroom]
      unfold Room at hroom
      rw [if_neg hroom]
      cases victim s.index with
      | none => rfl
      | some v =>
        dsimp only [removeAt, append]
        by_cases hdisk : disk s.appends = .ok
        · have hfollow : follow disk s (.remove v.message_id) = (.ok, _) := if_pos hdisk
          rw [Script.run_of_ok hfollow, if_pos hdisk]
          exact ih ⟨s.index.drop v.message_id, _, _⟩
        · have hfollow : follow disk s (.remove v.message_id) = (disk s.appends, _) := if_neg hdisk
          rw [Script.run_of_failed (by rw [hfollow]; exact hdisk), hfollow, if_neg hdisk]
          cases hstatus : disk s.appends with
          | ok => exact absurd hstatus hdisk
          | _ => rfl

theorem putRecord_eq_run (m : StoreMessage) :
    let r := (recordPlan m s.index).run .ok (follow disk) s
    s.putRecord disk m = ((r.1, decide (r.1 = .ok)), r.2) := by
  unfold putRecord recordPlan
  split_ifs
  · rfl
  · rw [Script.run_write_stop]
    rfl

/-- A put writes its plan, and the message is inserted when all of it is written and it was new. -/
theorem put_eq_run (disk : ℕ → Status) (s : Store) (m : StoreMessage) :
    let r := (putPlan m s.index).run .ok (follow disk) s
    s.put disk m = ((r.1, decide (r.1 = .ok ∧ s.index.find m.message_id = none)), r.2) := by
  unfold put putPlan
  split_ifs with hrange hold hnot
  · rfl
  · rw [isSome_iff_ne_none] at hold
    simp [Script.run, hold]
  · rw [roomPlan_run]
    simp only [not_isSome_iff_eq_none.mp hold, and_true]
    rcases enforceUnverifiedCaps disk m.source (s.index.length + 1) s with ⟨status, s₁⟩
    cases status with
    | ok => exact putRecord_eq_run m
    | _ => rfl
  · simp only [not_isSome_iff_eq_none.mp hold, and_true]
    exact putRecord_eq_run m

/-! ## What the operations do -/

/-- An operation took the store from one state to another by the records that it appended. -/
structure Extends (s s' : Store) (records : List Record) : Prop where
  /-- The records are on disk behind those that were there. -/
  journal : s'.journal = s.journal ++ records
  /-- The index is what the records make of it. -/
  index : s'.index = records.foldl Record.apply s.index

/-- A run appends all records of its script, or only the first ones. -/
theorem run_extends (disk : ℕ → Status) (script : Script Record Status) (s : Store) :
    let r := script.run .ok (follow disk) s
    (r.1 = .ok → script.status = .ok ∧ Extends s r.2 script.records) ∧
      (r.1 ≠ .ok → ∃ done, done <+: script.records ∧ Extends s r.2 done ∧
        (script.status = .ok → done ≠ script.records)) := by
  let grow (contents : List Record × Index) (record : Record) : List Record × Index :=
    (contents.1 ++ [record], record.apply contents.2)
  have hgrow (records : List Record) : ∀ s s' : Store,
      (s'.journal, s'.index) = records.foldl grow (s.journal, s.index) → Extends s s' records := by
    induction records with
    | nil =>
      intro s s' h
      exact ⟨(congrArg Prod.fst h).trans (append_nil _).symm, congrArg Prod.snd h⟩
    | cons record records ih =>
      intro s s' h
      have hrest := ih { s with
        journal := s.journal ++ [record], index := record.apply s.index } s' h
      exact ⟨hrest.journal.trans (append_assoc s.journal [record] records), hrest.index⟩
  have happend (s : Store) (record : Record) :
      ((follow disk s record).2.journal, (follow disk s record).2.index) =
        if (follow disk s record).1 = .ok then grow (s.journal, s.index) record
        else (s.journal, s.index) := by
    unfold follow append
    by_cases hdisk : disk s.appends = .ok
    · simp only [if_pos hdisk, if_true]
      rfl
    · simp only [if_neg hdisk]
  have hran := @Script.ran_run Record Status Store _ .ok (follow disk) _ grow
    (fun s => (s.journal, s.index)) happend script s
  refine ⟨fun hok => ?_, fun hfailed => ?_⟩
  · obtain ⟨hstatus, hafter⟩ := hran.written hok
    exact ⟨hstatus, hgrow _ _ _ hafter⟩
  · obtain ⟨done, hdone, hafter, hall⟩ := hran.failed hfailed
    exact ⟨done, hdone, hgrow _ _ _ hafter, hall⟩

theorem update_extends (disk : ℕ → Status) (s : Store) (id : Octets 32)
    (same : StoreMessage → Bool) (record : Record) :
    let r := (updatePlan s.index id same record).run .ok (follow disk) s
    Extends s r.2 [record] ∨ Extends s r.2 [] := by
  have hnone {s' : Store} (hjournal : s'.journal = s.journal) (hindex : s'.index = s.index) :
      Extends s s' [] := ⟨hjournal.trans (append_nil _).symm, hindex⟩
  unfold updatePlan
  split
  · exact .inr (hnone rfl rfl)
  · split_ifs
    · exact .inr (hnone rfl rfl)
    · rw [Script.run_write_stop, follow, append]
      split_ifs
      · exact .inl ⟨rfl, rfl⟩
      · exact .inr (hnone rfl rfl)

theorem remove_extends (disk : ℕ → Status) (s : Store) (id : Octets 32) :
    Extends s (s.remove disk id).2 [.remove id] ∨ Extends s (s.remove disk id).2 [] := by
  rw [remove_eq_run]
  exact update_extends ..

theorem updateSignature_extends (disk : ℕ → Status) (s : Store) (id : Octets 32)
    (state : SignatureState) : Extends s (s.updateSignature disk id state).2 [.signature id state] ∨
      Extends s (s.updateSignature disk id state).2 [] := by
  rw [updateSignature, update_eq_run rfl]
  exact update_extends ..

/-- What a put can do. -/
inductive PutResult (s : Store) (m : StoreMessage) : (Status × Bool) × Store → Prop
  /-- The message is new and stored, after evictions that made room for it. -/
  | inserted {s' : Store} (ids : List (Octets 32)) (hnew : s.index.find m.message_id = none)
      (hevicts : Evicts m.source s.index ids)
      (hroom : m.signature_state ≠ .verified →
        Room ((evictions ids).foldl Record.apply s.index) m.source)
      (hextends : Extends s s' (evictions ids ++ [.put m])) : PutResult s m ((.ok, true), s')
  /-- A message of that id is there already. -/
  | present {s' : Store} (hold : (s.index.find m.message_id).isSome) (hextends : Extends s s' []) :
      PutResult s m ((.ok, false), s')
  /-- The message is not stored, though others may have been evicted for it. -/
  | refused {status : Status} {s' : Store} (ids : List (Octets 32)) (hstatus : status ≠ .ok)
      (hextends : Extends s s' (evictions ids)) : PutResult s m ((status, false), s')

/-- What a put does. -/
theorem put_spec (disk : ℕ → Status) (s : Store) (m : StoreMessage) :
    PutResult s m (s.put disk m) := by
  have hrun := run_extends disk (putPlan m s.index) s
  have hplan := insertion_putPlan m s.index
  rw [put_eq_run]
  generalize putPlan m s.index = script at hrun hplan ⊢
  generalize script.run .ok (follow disk) s = r at hrun ⊢
  obtain ⟨status, s'⟩ := r
  obtain ⟨hok, hfailed⟩ := hrun
  -- Where it fails, what is written of evictions and a message are evictions.
  have hrefused {ids : List (Octets 32)} (hstatus : status ≠ .ok) {records : List Record}
      (hfirst : records <+: evictions ids) (hextends : Extends s s' records) :
      PutResult s m ((status, decide (status = .ok ∧ s.index.find m.message_id = none)), s') := by
    obtain ⟨ids', -, rfl⟩ := prefix_map_iff.mp hfirst
    rw [decide_eq_false fun h => hstatus h.1]
    exact .refused ids' hstatus hextends
  by_cases hstatus : status = .ok
  · subst hstatus
    obtain ⟨hplanned, hextends⟩ := hok rfl
    cases hplan with
    | present hold =>
      rw [decide_eq_false fun h => by simp [h.2] at hold]
      exact .present hold hextends
    | inserted hrange hnew hevicts hnot hroom hplace =>
      rw [decide_eq_true ⟨rfl, hnew⟩]
      rw [Script.records_after] at hextends
      exact .inserted _ hnew hevicts hroom hextends
    | refused hnever => exact absurd ((Script.status_after ..).symm.trans hplanned) hnever
  · obtain ⟨done, hdone, hextends, hall⟩ := hfailed hstatus
    cases hplan with
    | present hold => exact absurd (prefix_nil.mp hdone) (hall rfl)
    | inserted hrange hnew hevicts hnot hroom hplace =>
      rw [Script.status_after, Script.records_after] at hall
      rw [Script.records_after] at hdone
      rcases prefix_concat_iff.mp hdone with rfl | hprefix
      · exact absurd rfl (hall rfl)
      · exact hrefused hstatus hprefix hextends
    | refused =>
      rw [Script.records_after, Script.records, append_nil] at hdone
      exact hrefused hstatus hdone hextends

end Reticulum.Lxmf.Store
