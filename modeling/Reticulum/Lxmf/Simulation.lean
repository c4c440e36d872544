import Reticulum.Base.Run
import Reticulum.Lxmf.Operations
import Reticulum.Lxmf.Plans

/-!
# Two levels of the store

`Reticulum.Lxmf.Journal` is the store with the bytes of its file, `Reticulum.Lxmf.Store` the same
store at the level of its records. Both write the plan of an operation, which can be seen from the
messages before it, and stop at the first record that is not written (`Store.perform_eq_run`,
`Journal.perform_eq_run`). So they do the same, when the appends return the same
(`perform_simulates`).

What an operation did to the messages is told by the status that it returns (`perform_ran`): with
`LXMF_OK` all its records are applied to them, and with an error only the first ones. In every run
the messages keep what the theorems about one put of a store ask for (`Store.proper_run`).
-/

namespace Reticulum.Lxmf

open List
open Journal (Operation)

namespace Store

/-- What an operation writes into a store with these messages. A compaction writes to another
file. -/
def plan (crypto : Crypto) (index : Index) : Operation → Script Record Status
  | .put m _ => putPlan m index
  | .updateStatus id status =>
    updatePlan index id (fun e => e.status = status) (.status id status)
  | .updateSignature id state =>
    updatePlan index id (fun e => e.signature_state = state) (.signature id state)
  | .updateDelivery id delivery _ =>
    if ¬ delivery.valid then .stop .argument
    else updatePlan index id (fun e => e.delivery = delivery) (.delivery id delivery)
  | .updatePacked id packed =>
    if packed = [] ∨ packed.length > maxPacked then .stop .argument
    else
      match unpack crypto packed with
      | .error status => .stop status
      | .ok parsed =>
        match index.find id with
        | none => .stop .format
        | some e =>
          if parsed.message_id ≠ id ∨ parsed.source ≠ e.source ∨
              parsed.destination ≠ e.destination then .stop .format
          else .write (.replace { e with packed }) (.stop .ok)
  | .remove id => updatePlan index id (fun _ => false) (.remove id)
  | .compact => .stop .ok

/-- The operations on a store at the level of its records, where a compaction is nothing. -/
def perform (disk : ℕ → Status) (crypto : Crypto) (s : Store) : Operation → Status × Store
  | .put m _ => ((s.put disk m).1.1, (s.put disk m).2)
  | .updateStatus id status => s.updateStatus disk id status
  | .updateSignature id state => s.updateSignature disk id state
  | .updateDelivery id delivery _ => s.updateDelivery disk id delivery
  | .updatePacked id packed => s.updatePacked disk crypto id packed
  | .remove id => s.remove disk id
  | .compact => (.ok, s)

/-- An operation at the level of the records writes its plan. -/
theorem perform_eq_run (disk : ℕ → Status) (crypto : Crypto) (s : Store) (operation : Operation) :
    s.perform disk crypto operation = (plan crypto s.index operation).run .ok (follow disk) s := by
  cases operation with
  | put m typed =>
    dsimp only [perform]
    rw [put_eq_run]
    rfl
  | updateStatus id status => exact update_eq_run rfl
  | updateSignature id state => exact update_eq_run rfl
  | updateDelivery id delivery typed =>
    dsimp only [perform, plan]
    unfold updateDelivery
    split_ifs
    · exact update_eq_run rfl
    · rfl
  | updatePacked id packed =>
    dsimp only [perform, plan, updatePacked]
    split_ifs
    · rfl
    cases unpack crypto packed with
    | error status => rfl
    | ok parsed =>
      cases he : s.index.find id with
      | none => rfl
      | some e =>
        dsimp only
        split_ifs
        · rfl
        · obtain rfl := Index.message_id_of_find he
          rw [Script.run_write_stop]
          rfl
  | remove id => exact remove_eq_run id
  | compact => rfl

/-! ## The index without the messages -/

/-- What the index of a journal has of a message. -/
def strip (m : StoreMessage) : StoreMessage :=
  { m with
    destination := Octets.zero 16
    timestamp := Octets.zero 8
    content := []
    packed := [] }

variable {index : Index} {source : Octets 16}

/-- The caps look at nothing else of a message. -/
theorem room_strip : Room (index.map strip) source ↔ Room index source := by
  have hfilter : filter notVerified (index.map strip) = (filter notVerified index).map strip :=
    filter_map
  unfold Room unverifiedTotal unverifiedFrom unverifiedSources
  rw [countP_map, countP_map, hfilter, map_map]
  rfl

/-- Neither does the choice of a victim. -/
theorem victim_strip : victim (index.map strip) = (victim index).map strip := by
  have hworse (best : ℕ × Option StoreMessage) (e : StoreMessage) :
      worse (index.map strip) (best.1, best.2.map strip) (strip e) =
        ((worse index best e).1, (worse index best e).2.map strip) := by
    have hfrom : unverifiedFrom (index.map strip) (strip e).source = unverifiedFrom index e.source := by
      unfold unverifiedFrom
      rw [countP_map]
      rfl
    unfold worse
    rw [hfrom, show notVerified (strip e) = notVerified e from rfl]
    split <;> rfl
  let carry (best : ℕ × Option StoreMessage) : ℕ × Option StoreMessage := (best.1, best.2.map strip)
  have hfold : foldl (fun best e => worse (index.map strip) best (strip e)) (carry (0, none)) index =
      carry (foldl (worse index) (0, none) index) := foldl_hom carry hworse
  unfold victim
  rw [foldl_map]
  exact congrArg Prod.snd hfold

end Store

namespace Journal

open Store (plan updatePlan putPlan recordPlan roomPlan)

variable {disk : ℕ → Outcome} {j : Journal}

/-- The index is that of the messages. -/
theorem Sound.heads (h : j.Sound) : j.index.map Entry.head = j.live.map Store.strip := by
  have hpoints := h.points
  generalize j.index = index, j.live = live at hpoints
  induction hpoints with
  | nil => rfl
  | cons hpoints _ ih =>
    rw [map_cons, map_cons, ih]
    obtain ⟨_, m₀, _, _, -, -, hid, hsource, -, -, -, rfl⟩ := hpoints
    simp [Entry.head, Store.strip, hid, hsource]

/-- A change of an entry writes its plan. -/
theorem update_eq_run (h : j.Sound) {id : Octets 32} {same : Entry → Bool}
    {same' : StoreMessage → Bool} (hsame : ∀ e x, Entry.Points j.file e x → same e = same' x)
    (record : Record) : j.update disk id same record =
      (updatePlan j.live id same' record).run .ok (append disk) j := by
  unfold update updatePlan
  obtain ⟨hfind, hfind'⟩ | ⟨e, x, hfind, hfind', hpoints⟩ := find_points h.points id
  · rw [hfind, hfind']
    rfl
  · rw [hfind, hfind']
    dsimp only
    rw [hsame e x hpoints]
    split_ifs
    · rfl
    · exact (Script.run_write_stop .ok (append disk) record j).symm

/-- So does the end of a put. -/
theorem putRecord_eq_run (h : j.Sound) (m : StoreMessage) :
    ((j.putRecord disk m).1.1, (j.putRecord disk m).2) =
      (recordPlan m j.live).run .ok (append disk) j := by
  unfold putRecord recordPlan
  rw [h.points.length_eq]
  split_ifs
  · rfl
  · rw [Script.run_write_stop]

/-- The caps are enforced, and then what is next is written. -/
theorem roomPlan_run (source : Octets 16) {next : Index → Script Record Status}
    {f : Journal → Status × Journal}
    (hnext : ∀ j, j.Sound → f j = (next j.live).run .ok (append disk) j) (rounds : ℕ)
    (h : j.Sound) : (roomPlan source next rounds j.live).run .ok (append disk) j =
      match enforceUnverifiedCaps disk source rounds j with
      | (.ok, j) => f j
      | r => r := by
  induction rounds generalizing j with
  | zero => rfl
  | succ rounds ih =>
    have hroom : Store.Room (j.index.map Entry.head) source ↔ Store.Room j.live source := by
      rw [h.heads, Store.room_strip]
    unfold roomPlan enforceUnverifiedCaps evictOneUnverified
    by_cases hnow : Store.Room j.live source
    · have hthen := hroom.mpr hnow
      unfold Store.Room at hthen
      rw [if_pos hnow]
      rw [if_pos hthen]
      exact (hnext j h).symm
    · have hthen := mt hroom.mp hnow
      unfold Store.Room at hthen
      rw [if_neg hnow]
      rw [if_neg hthen, h.heads, Store.victim_strip]
      cases Store.victim j.live with
      | none => rfl
      | some v =>
        have heffect := append_effect disk h (writable_remove j.live v.message_id)
        dsimp only [Option.map_some, removeAt, Store.strip]
        generalize happend : j.append disk (.remove v.message_id) = r at heffect ⊢
        obtain ⟨status, j₁⟩ := r
        rcases heffect with ⟨hok, heffect⟩ | ⟨hfailed, -⟩
        · obtain rfl : status = .ok := hok
          have hlive : j₁.live = j.live.drop v.message_id := heffect.live_eq
          rw [Script.run_of_ok happend, ← hlive]
          exact ih (h.effect heffect)
        · rw [Script.run_of_failed (by rw [happend]; exact hfailed), happend]
          cases status with
          | ok => exact absurd rfl hfailed
          | _ => rfl

/-- An operation at the level of the bytes writes its plan. -/
theorem perform_eq_run (disk : ℕ → Outcome) (crypto : Crypto) (h : j.Sound) {operation : Operation}
    (hcompact : operation ≠ .compact) : j.perform disk crypto operation =
      (plan crypto j.live operation).run .ok (append disk) j := by
  cases operation with
  | put m typed =>
    have hfind : (Entry.find j.index m.message_id).isSome = (j.live.find m.message_id).isSome := by
      obtain ⟨hfind, hfind'⟩ | ⟨e, x, hfind, hfind', -⟩ := find_points h.points m.message_id <;>
        rw [hfind, hfind'] <;> rfl
    dsimp only [perform, plan]
    unfold put putPlan
    rw [hfind, ← h.points.length_eq]
    split_ifs
    · rfl
    · rfl
    · rw [roomPlan_run m.source (fun j h => putRecord_eq_run h m) _ h]
      rcases enforceUnverifiedCaps disk m.source (j.index.length + 1) j with ⟨status, j₁⟩
      cases status <;> rfl
    · exact putRecord_eq_run h m
  | updateStatus id status | updateSignature id status =>
    refine update_eq_run h (fun e x hpoints => ?_) _
    obtain ⟨_, _, _, _, -, -, -, -, -, -, -, rfl⟩ := hpoints
    rfl
  | updateDelivery id delivery typed =>
    dsimp only [perform, plan]
    unfold updateDelivery
    split_ifs
    · refine update_eq_run h (fun e x hpoints => ?_) _
      obtain ⟨_, _, _, _, -, -, -, -, -, -, -, rfl⟩ := hpoints
      rfl
    · rfl
  | updatePacked id packed =>
    dsimp only [perform, plan, updatePacked]
    split_ifs
    · rfl
    cases unpack crypto packed with
    | error status => rfl
    | ok parsed =>
      obtain ⟨hfind, hfind'⟩ | ⟨e, x, hfind, hfind', hpoints⟩ := find_points h.points id
      · rw [hfind, hfind']
        rfl
      · rw [hfind, hfind']
        dsimp only
        rw [hpoints.read_eq]
        dsimp only
        split_ifs
        · rfl
        · exact (Script.run_write_stop .ok (append disk) (.replace { x with packed }) j).symm
  | remove id =>
    dsimp only [perform, plan, remove, updatePlan]
    obtain ⟨hfind, hfind'⟩ | ⟨e, x, hfind, hfind', -⟩ := find_points h.points id
    · rw [hfind, hfind']
      rfl
    · rw [hfind, hfind']
      exact (Script.run_write_stop .ok (append disk) (.remove id) j).symm
  | compact => exact absurd rfl hcompact

/-- Evictions can always be written. -/
theorem writableAll_evictions (live : Index) (ids : List (Octets 32)) :
    WritableAll live (Store.evictions ids) := by
  induction ids generalizing live with
  | nil => trivial
  | cons id ids ih => exact ⟨writable_remove live id, ih _⟩

/-- What is not a put writes at most one record. -/
theorem records_plan {live : Index} (h : live.Proper) (crypto : Crypto) {operation : Operation}
    (hput : ∀ m typed, operation ≠ .put m typed) : (plan crypto live operation).records = [] ∨
      ∃ record, (plan crypto live operation).records = [record] ∧ record.Writable live := by
  have hupdate (id : Octets 32) (same : StoreMessage → Bool) {record : Record}
      (hrecord : record.Writable live) : (updatePlan live id same record).records = [] ∨
        ∃ record', (updatePlan live id same record).records = [record'] ∧ record'.Writable live := by
    unfold updatePlan
    split
    · exact .inl rfl
    · split_ifs
      · exact .inl rfl
      · exact .inr ⟨record, rfl, hrecord⟩
  cases operation with
  | put m typed => exact absurd rfl (hput m typed)
  | updateStatus id value | updateSignature id value =>
    exact hupdate _ _ ⟨trivial, trivial, fun _ hm => Record.noConfusion hm⟩
  | updateDelivery id delivery typed =>
    dsimp only [plan]
    split_ifs with hvalid
    · exact hupdate _ _
        ⟨⟨hvalid, typed.1, typed.2.1, typed.2.2⟩, hvalid, fun _ hm => Record.noConfusion hm⟩
    · exact .inl rfl
  | updatePacked id packed =>
    dsimp only [plan]
    split_ifs with hpacked
    · exact .inl rfl
    cases unpack crypto packed with
    | error status => exact .inl rfl
    | ok parsed =>
      cases he : live.find id with
      | none => exact .inl rfl
      | some e =>
        dsimp only
        split_ifs
        · exact .inl rfl
        · obtain rfl := Index.message_id_of_find he
          exact .inr ⟨_, rfl, writable_replace h he (not_lt.mp (not_or.mp hpacked).2)⟩
  | remove id => exact hupdate _ _ (writable_remove live id)
  | compact => exact .inl rfl

/-- The records of a plan can be written. -/
theorem writableAll_plan {live : Index} (h : live.Proper) (crypto : Crypto) (operation : Operation) :
    WritableAll live (plan crypto live operation).records := by
  by_cases hput : ∃ m typed, operation = .put m typed
  · obtain ⟨m, typed, rfl⟩ := hput
    have hplan := Store.insertion_putPlan m live
    dsimp only [plan]
    generalize putPlan m live = script at hplan ⊢
    cases hplan with
    | present => trivial
    | inserted hrange hnew hevicts hnot hroom hplace =>
      have hm := sized_of_typed typed hrange
      rw [Script.records_after]
      refine writableAll_append.mpr ⟨writableAll_evictions live _, ⟨hm, ?_, ?_⟩, trivial⟩
      · exact ⟨hm.content, hm.packed, hm.delivery.valid, Store.find_evictions_of_none _ hnew, hplace⟩
      · exact fun _ hm => Record.noConfusion hm
    | refused =>
      rw [Script.records_after]
      exact writableAll_append.mpr ⟨writableAll_evictions live _, trivial⟩
  · rcases records_plan h crypto fun m typed hop => hput ⟨m, typed, hop⟩ with
      hnone | ⟨record, hone, hrecord⟩
    · rw [hnone]
      trivial
    · rw [hone]
      exact ⟨hrecord, trivial⟩

/-- A run writes the first of its records, and then what an append that failed left of another
one. -/
theorem run_effect (script : Script Record Status) (h : j.Sound)
    (hrecords : WritableAll j.live script.records) : ∃ done tail,
      Effect disk j (script.run .ok (append disk) j).2 done tail ∧ done <+: script.records := by
  refine Script.run_rule (motive := fun j script r => j.Sound → WritableAll j.live script.records →
    ∃ done tail, Effect disk j r.2 done tail ∧ done <+: script.records) .ok (append disk)
    (fun j status h _ => ?_) (fun j record next hfailed h hrecords => ?_)
    (fun j record next r hok hrest h hrecords => ?_) script j h hrecords
  · exact ⟨[], [], .of_eq rfl rfl rfl h.size, prefix_rfl⟩
  · rcases append_effect disk h hrecords.1 with ⟨hok, -⟩ | ⟨-, tail, heffect⟩
    · exact absurd hok hfailed
    · exact ⟨[], tail, heffect, nil_prefix⟩
  · rcases append_effect disk h hrecords.1 with ⟨-, heffect⟩ | ⟨hfailed, -⟩
    · have hlive : (j.append disk record).2.live = record.apply j.live := heffect.live_eq
      obtain ⟨done, tail, hdone, hprefix⟩ := hrest (h.effect heffect) (hlive ▸ hrecords.2)
      exact ⟨record :: done, tail, heffect.trans hdone, (prefix_cons_inj record).mpr hprefix⟩
    · exact absurd hok hfailed

/-- What every operation but the compaction does to the file. -/
theorem perform_effect (disk : ℕ → Outcome) (crypto : Crypto) (h : j.Sound) {operation : Operation}
    (hcompact : operation ≠ .compact) : ∃ done tail,
      Effect disk j (j.step disk crypto operation) done tail ∧
        done <+: (plan crypto j.live operation).records := by
  unfold step
  rw [perform_eq_run disk crypto h hcompact]
  exact run_effect _ h (writableAll_plan h.proper crypto operation)

end Journal

/-! ## The simulation -/

namespace Journal

variable {j : Journal}

/-- The store at the level of its records. -/
def store (j : Journal) : Store :=
  { index := j.live, journal := j.acknowledged, appends := j.appends }

/-- An append at the level of the records. -/
theorem store_append (disk : ℕ → Outcome) (j : Journal) (record : Record) :
    (j.append disk record).2.store =
      if (j.append disk record).1 = .ok then
        { index := record.apply j.live
          journal := j.acknowledged ++ [record]
          appends := j.appends + 1 }
      else { j.store with appends := j.appends + 1 } := by
  unfold append
  by_cases hsize : j.file.length + record.encode.length > maxFileSize
  · rw [if_pos hsize]
    rfl
  · rw [if_neg hsize]
    by_cases hwhole : disk j.appends = .whole
    · simp only [if_pos hwhole, if_true, store, live, foldl_append]
      rfl
    · rw [if_neg hwhole]
      rfl

/-- What an operation did to the messages is told by its status, whatever its appends left. -/
theorem perform_ran (disk : ℕ → Outcome) (crypto : Crypto) (h : j.Sound) {operation : Operation}
    (hcompact : operation ≠ .compact) : (Store.plan crypto j.live operation).Ran .ok Record.apply
      (j.perform disk crypto operation).1 j.live (j.perform disk crypto operation).2.live := by
  have hlive (j : Journal) (record : Record) : (j.append disk record).2.live =
      if (j.append disk record).1 = .ok then record.apply j.live else j.live := by
    have hindex := congrArg Store.index (store_append disk j record)
    split_ifs at hindex ⊢ <;> exact hindex
  rw [perform_eq_run disk crypto h hcompact]
  exact Script.ran_run .ok (append disk) hlive _ j

/-- An append that returns the same does the same. -/
theorem follow_store {disk : ℕ → Outcome} {d : ℕ → Status} {record : Record}
    (hd : d j.appends = (j.append disk record).1) :
    Store.follow d j.store record = ((j.append disk record).1, (j.append disk record).2.store) := by
  unfold Store.follow Store.append
  rw [store_append, show d j.store.appends = _ from hd]
  split_ifs with hok
  · rw [hok]
    rfl
  · rfl

/-- A script does at the level of the records what it does at the level of the bytes, on a disk
whose appends return the same. -/
theorem run_simulates (disk : ℕ → Outcome) (script : Script Record Status) (j : Journal) :
    ∃ returned : ℕ → Status, ∀ d : ℕ → Status, (∀ n, j.appends ≤ n → d n = returned n) →
      script.run .ok (Store.follow d) j.store =
        ((script.run .ok (append disk) j).1, (script.run .ok (append disk) j).2.store) := by
  refine Script.run_rule (motive := fun j script r => ∃ returned : ℕ → Status, ∀ d : ℕ → Status,
    (∀ n, j.appends ≤ n → d n = returned n) →
      script.run .ok (Store.follow d) j.store = (r.1, r.2.store)) .ok (append disk)
    (fun j status => ⟨fun _ => .ok, fun _ _ => rfl⟩) (fun j record next hnot => ?_)
    (fun j record next r hok hrest => ?_) script j
  · refine ⟨fun _ => (j.append disk record).1, fun d hd => ?_⟩
    have hfollow := follow_store (hd j.appends le_rfl)
    rw [Script.run_of_failed (by rw [hfollow]; exact hnot), hfollow]
  · -- The appends behind the first one are later ones.
    obtain ⟨returned, hreturned⟩ := hrest
    refine ⟨fun n => if n = j.appends then .ok else returned n, fun d hd => ?_⟩
    have hfirst : d j.appends = (j.append disk record).1 := by
      exact ((hd j.appends le_rfl).trans (if_pos rfl)).trans hok.symm
    have hfollow := follow_store hfirst
    rw [hok] at hfollow
    have happends : (j.append disk record).2.appends = j.appends + 1 :=
      congrArg Store.appends ((store_append disk j record).trans (if_pos hok))
    rw [Script.run_of_ok hfollow]
    refine hreturned d fun n hn => ?_
    exact (hd n (by omega)).trans (if_neg (by omega))

/-- Every operation but the compaction does the same at both levels. -/
theorem perform_simulates (disk : ℕ → Outcome) (crypto : Crypto) (h : j.Sound)
    {operation : Operation} (hcompact : operation ≠ .compact) : ∃ returned : ℕ → Status,
      j.store.perform returned crypto operation =
        ((j.perform disk crypto operation).1, (j.perform disk crypto operation).2.store) := by
  obtain ⟨returned, hreturned⟩ := run_simulates disk (Store.plan crypto j.live operation) j
  refine ⟨returned, ?_⟩
  rw [perform_eq_run disk crypto h hcompact, Store.perform_eq_run]
  exact hreturned returned fun _ _ => rfl

end Journal

/-! ## Runs at the level of the records -/

namespace Store

/-- An operation leaves what always holds of the messages. -/
theorem proper_perform (disk : ℕ → Status) (crypto : Crypto) {s : Store} (h : s.index.Proper)
    (operation : Operation) : (s.perform disk crypto operation).2.index.Proper := by
  have hwritable := Journal.writableAll_plan h crypto operation
  rw [perform_eq_run]
  obtain ⟨hok, hfailed⟩ := run_extends disk (plan crypto s.index operation) s
  generalize (plan crypto s.index operation).run .ok (follow disk) s = r at hok hfailed ⊢
  by_cases hstatus : r.1 = .ok
  · rw [(hok hstatus).2.index]
    exact h.foldl hwritable
  · obtain ⟨done, hprefix, hextends, -⟩ := hfailed hstatus
    rw [hextends.index]
    exact h.foldl (hwritable.of_isPrefix hprefix)

/-- What every run of operations on an empty store leaves: messages with distinct ids among them. -/
theorem proper_run (disk : ℕ → Status) (crypto : Crypto) (operations : List Operation) :
    (Run.final (fun s operation => (perform disk crypto s operation).2) empty
      operations).index.Proper := by
  refine Run.invariant (fun (s : Store) _ (h : s.index.Proper) _ => ?_) Journal.sound_empty.proper
    (Run.each_true operations)
  exact proper_perform disk crypto h _

end Store

end Reticulum.Lxmf
