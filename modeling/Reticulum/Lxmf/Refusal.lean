import Reticulum.Lxmf.Recovery

/-!
# What a put that is refused leaves

`lxmf_store_put` makes room for an unverified message before it appends the message, and a removal
that it wrote stays when the append fails or does not fit. An append that was written whole and
could not be synchronised is read when the store is opened again. A put that is refused changes
nothing where the first record that it tries is harmless, and in a file in order nowhere else
(`put_unchanged_iff`).
-/

namespace Reticulum.Lxmf

open List

namespace Journal

variable {disk : ℕ → Outcome} {j j' : Journal} {m : StoreMessage} {record : Record}

/-- The messages that are read are the same, also after the store is closed and opened again. -/
def Unchanged (j j' : Journal) : Prop := j'.messages = j.messages ∧ j'.reopened = j.reopened

instance (j j' : Journal) : Decidable (Unchanged j j') := by unfold Unchanged; infer_instance

/-- A whole record behind a file in order is read when the store is opened. -/
theorem reopened_unsynced {j' : Journal} (h : j.Sound) (horder : j.InOrder) {record : Record}
    (hrecord : record.Writable j.live) (hsize : j.file.length + record.encode.length ≤ maxFileSize)
    (hfile : j'.file = j.file ++ record.encode) : j'.reopened = .ok (record.apply j.live) := by
  have hall : encodeAll [record] = record.encode := append_nil _
  let j₁ : Journal :=
    { file := j.file ++ record.encode
      index := record.applyAt j.file.length j.index
      appends := j.appends
      acknowledged := j.acknowledged ++ [record] }
  -- It is opened as a store that acknowledged the record.
  have heffect : Effect works j j₁ [record] [] :=
    ⟨by rw [hall, append_nil], rfl, rfl, ⟨hrecord, trivial⟩, by rwa [hall], .inl rfl⟩
  have hscan := scanFile_of_effect h horder heffect
  have hlive : j₁.live = record.apply j.live := heffect.live_eq
  have hsame : j'.reopened = j₁.reopened := by rw [reopened_eq, reopened_eq, hfile]
  rw [hsame, reopened_eq, hscan, ← hlive]
  exact messages_of_effect h heffect

/-- Evictions make the index no longer. -/
theorem length_evictions_le (ids : List (Octets 32)) (live : Index) :
    ((Store.evictions ids).foldl Record.apply live).length ≤ live.length := by
  induction ids generalizing live with
  | nil => exact le_rfl
  | cons id ids ih => exact (ih _).trans (length_filter_le _ _)

/-- The first records of a put, whichever they are, change the messages. -/
theorem foldl_plan_ne (crypto : Crypto) {live : Index} {typed : Typed m.delivery} {done : List Record}
    (hdone : done <+: (Store.plan crypto live (.put m typed)).records) (hsome : done ≠ []) :
    done.foldl Record.apply live ≠ live := by
  -- The first one that is evicted is missing.
  have hevicts {ids : List (Octets 32)} (hids : Store.Evicts m.source live ids)
      (hfirst : done <+: Store.evictions ids) : done.foldl Record.apply live ≠ live := by
    obtain ⟨ids', hids', rfl⟩ := prefix_map_iff.mp hfirst
    cases ids' with
    | nil => exact absurd rfl hsome
    | cons id ids' =>
      obtain ⟨rest, rfl⟩ := hids'
      obtain ⟨-, ⟨e, he, rfl⟩, -⟩ := hids
      intro hsame
      have hle := length_evictions_le ids' (live.drop e.message_id)
      have hlt : (live.drop e.message_id).length < length live :=
        length_filter_lt_length_iff_exists.mpr ⟨e, (Store.notVerified_of_victim he).1, by simp⟩
      have hlength := congrArg List.length hsame
      change length ((Store.evictions ids').foldl Record.apply (live.drop e.message_id)) = _ at hlength
      omega
  have hplan := Store.insertion_putPlan m live
  dsimp only [Store.plan] at hdone
  generalize Store.putPlan m live = script at hplan hdone
  cases hplan with
  | present => exact absurd (prefix_nil.mp hdone) hsome
  | inserted _ hnew hids =>
    rw [Script.records_after] at hdone
    rcases prefix_concat_iff.mp hdone with rfl | hprefix
    · -- The message is among the others.
      intro hsame
      rw [foldl_append] at hsame
      have hmem : m ∈ (live : List StoreMessage) := hsame ▸ mem_append_right _ (mem_singleton_self m)
      exact List.find?_eq_none.mp hnew m hmem (decide_eq_true rfl)
    · exact hevicts hids hprefix
  | refused _ hids =>
    rw [Script.records_after, Script.records, append_nil] at hdone
    exact hevicts hids hdone

/-- Behind a file in order, an append that is not written whole and whose bytes are read changes the
store that is opened. -/
theorem reopened_append_ne (h : j.Sound) (horder : j.InOrder) (hwritable : record.Writable j.live)
    (hchanges : record.apply j.live ≠ j.live)
    (hroom : j.file.length + record.encode.length ≤ maxFileSize) (hwhole : disk j.appends ≠ .whole)
    (hstops : ¬ j.Stops ((disk j.appends).written record.encode))
    (hfile : j'.file = j.file ++ (disk j.appends).written record.encode) :
    j'.reopened ≠ j.reopened := by
  cases houtcome : disk j.appends with
  | whole => exact absurd houtcome hwhole
  | unsynced =>
    rw [houtcome] at hfile
    rw [reopened_unsynced h horder hwritable hroom hfile, horder.reopened_eq, h.messages_eq]
    exact fun hsame => hchanges (Except.ok.inj hsame)
  | torn n =>
    rw [houtcome] at hstops
    refine absurd ?_ hstops
    unfold Stops
    rw [show scanFile j.file = _ from horder]
    dsimp only
    rw [drop_left]
    exact readPiece_written_torn hwritable.sized j.file.length n

/-- A put in every store that started with whole records and whose appends may fail in every way. It
changes nothing where the first record that it tries is harmless, and behind a file in order only
there. -/
theorem put_unchanged_iff (disk : ℕ → Outcome) (crypto : Crypto) {start : Journal}
    {records : List Record} (h : start.Clean records) (operations : List Operation)
    {m : StoreMessage} (typed : Typed m.delivery) :
    let j := Run.final (step disk crypto) start operations
    let first := j.attempt crypto (.put m typed)
    ((∀ record ∈ first, Harmless disk j record) → Unchanged j (j.put disk m).2) ∧
      (j.InOrder → (Unchanged j (j.put disk m).2 ↔ ∀ record ∈ first, Harmless disk j record)) := by
  intro j first
  have hsound : j.Sound := Run.invariant (fun _ operation h _ => h.step disk crypto operation)
    h.sound (Run.each_true operations)
  have hsound' : (j.put disk m).2.Sound := hsound.step disk crypto (.put m typed)
  have hmessages : (j.put disk m).2.messages = j.messages ↔ (j.put disk m).2.live = j.live := by
    rw [hsound'.messages_eq, hsound.messages_eq, Except.ok.injEq]
  have hharmless (hall : ∀ record ∈ first, Harmless disk j record) :
      Unchanged j (j.put disk m).2 := by
    have hsame := perform_harmless hsound Operation.noConfusion hall
    exact ⟨hmessages.mpr hsame.1, hsame.2⟩
  refine ⟨hharmless, fun horder => ⟨fun hunchanged record hrecord hroom => ?_, hharmless⟩⟩
  obtain ⟨next, hplan⟩ := Script.exists_of_head hrecord
  have hrun : ((j.put disk m).1.1, (j.put disk m).2) = _ :=
    perform_eq_run disk crypto hsound (show Operation.put m typed ≠ .compact from nofun)
  have hwritable := writableAll_plan hsound.proper crypto (.put m typed)
  have hchanges {done : List Record} (hdone : done <+: next.records) :
      (record :: done).foldl Record.apply j.live ≠ j.live :=
    @foldl_plan_ne m crypto j.live typed _
      (by rw [hplan]; exact (prefix_cons_inj record).mpr hdone) nofun
  rw [hplan] at hrun hwritable
  by_cases hok : (j.append disk record).1 = .ok
  · -- The record is written, and the messages are not the same.
    obtain ⟨-, heffect⟩ | ⟨hfailed, -⟩ := append_effect disk hsound hwritable.1
    · have hlive : (j.append disk record).2.live = record.apply j.live := heffect.live_eq
      obtain ⟨done, tail, hrest, hdone⟩ :=
        @run_effect disk _ next (hsound.effect heffect) (hlive ▸ hwritable.2)
      rw [Script.run_of_ok (Prod.ext hok rfl)] at hrun
      refine absurd ?_ (hchanges hdone)
      rw [foldl_cons, ← hlive, ← hrest.live_eq, ← hmessages.mp hunchanged.1]
      exact congrArg (fun r => r.2.live) hrun.symm
    · exact absurd hok hfailed
  · rw [Script.run_of_failed hok] at hrun
    have hsame : (j.put disk m).2 = (j.append disk record).2 := congrArg Prod.snd hrun
    obtain ⟨-, ⟨hfull, -⟩ | ⟨hwhole, -, hfile⟩⟩ := append_failed hok
    · exact absurd hroom (not_le.mpr hfull)
    · refine ⟨hwhole, by_contra fun hstops => ?_⟩
      exact reopened_append_ne hsound horder hwritable.1 (hchanges nil_prefix) hroom hwhole hstops
        hfile (hsame ▸ hunchanged.2)

/-- Eight sources have a message each, and the removal of one of them for a message of a ninth
source is not written: the eight messages are there. -/
theorem torn_removal_unchanged :
    let disk := outcomes (List.replicate 8 .whole ++ [.torn 20])
    let j := Run.final (step disk plainCrypto) empty (plainPuts 8)
    (j.put disk (Store.plainMessage 8 8)).1 = (.crypto, false) ∧ j.live.length = 8 ∧
      Unchanged j (j.put disk (Store.plainMessage 8 8)).2 := by
  have hiff := @put_unchanged_iff (outcomes (List.replicate 8 .whole ++ [.torn 20])) plainCrypto _ _
    clean_empty (plainPuts 8) (Store.plainMessage 8 8) (show Typed {} by unfold Typed; decide)
  exact ⟨by decide +kernel, by decide +kernel, hiff.1 (by decide +kernel)⟩

/-- The store has a message of each of eight sources, and the append of a ninth one fails: a message
of the first source is gone. In an empty store, a put that could not be synchronised is there when
the store is opened again. -/
theorem refused_put_evicts : (let disk := outcomes (List.replicate 9 .whole ++ [.torn 20])
     let j := Run.final (step disk plainCrypto) empty (plainPuts 8)
     (j.put disk (Store.plainMessage 8 8)).1 = (.crypto, false) ∧
      j.live.length = 8 ∧ (j.put disk (Store.plainMessage 8 8)).2.live.length = 7 ∧
      ¬ Unchanged j (j.put disk (Store.plainMessage 8 8)).2) ∧
    let j := (empty.put (outcomes [.unsynced]) (Store.plainMessage 0 0)).2
    (empty.put (outcomes [.unsynced]) (Store.plainMessage 0 0)).1 = (.crypto, false) ∧
      j.reopened = .ok [Store.plainMessage 0 0] := by
  decide +kernel

end Journal

end Reticulum.Lxmf
