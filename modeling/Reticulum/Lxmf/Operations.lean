import Reticulum.Lxmf.Replay

/-!
# What the operations write

Every operation on a store but the compaction appends whole records one after the other, and stops
at the first append that fails (`Journal.Effect`). `Sound`, that the index points at the messages
that the acknowledged records make, is kept by every effect whatever was written by the append that
failed.
-/

namespace Reticulum.Lxmf

open List Nat

/-! ## The live messages -/

/-- What always holds of the messages of a store. -/
structure Index.Proper (live : Index) : Prop where
  distinct : live.Distinct
  room : live.length ≤ maxMessages
  sized : ∀ m ∈ (live : List StoreMessage), m.Sized

/-- A change that leaves the ids leaves what always holds. -/
theorem Index.Proper.modify {live : Index} (h : live.Proper) (id : Octets 32)
    {f : StoreMessage → StoreMessage} (hid : ∀ m, (f m).message_id = m.message_id)
    (hsized : ∀ m, m.Sized → (f m).Sized) : (live.modify id f).Proper where
  distinct := h.distinct.modify id hid
  room := (length_map _).trans_le h.room
  sized := by
    intro m hm
    obtain ⟨x, hx, rfl⟩ := mem_map.mp hm
    split
    · exact hsized x (h.sized x hx)
    · exact h.sized x hx

/-- A record that can be written leaves what always holds. -/
theorem Index.Proper.apply {live : Index} (h : live.Proper) {record : Record}
    (hrecord : record.Writable live) : (record.apply live).Proper := by
  have hsized := hrecord.sized
  cases record with
  | put m =>
    obtain ⟨-, -, -, hnew, hroom⟩ := hrecord.fits
    refine ⟨h.distinct.append hnew, ?_, ?_⟩
    · rw [Record.apply, length_append]
      exact hroom
    · intro x hx
      rcases mem_append.mp hx with hx | hx
      · exact h.sized x hx
      · rw [mem_singleton.mp hx]
        exact hsized
  | replace m =>
    refine ⟨?_, (length_map _).trans_le h.room, ?_⟩
    · have hids : List.map StoreMessage.message_id (Record.apply live (.replace m)) =
          .map StoreMessage.message_id live := by
        rw [Record.apply, Index.modify, map_map]
        refine map_congr_left fun e _ => ?_
        dsimp only [Function.comp_apply]
        split
        · exact .symm (by assumption)
        · rfl
      rw [Index.Distinct, hids]
      exact h.distinct
    · intro x hx
      obtain ⟨y, hy, rfl⟩ := mem_map.mp hx
      split
      · exact hsized
      · exact h.sized y hy
  | status id value => exact h.modify id (fun _ => rfl) fun m hm => { hm with }
  | signature id value =>
    exact h.modify id (fun _ => rfl) fun m hm => { hm with }
  | remove id =>
    exact ⟨h.distinct.drop id, (length_filter_le _ _).trans h.room,
      fun m hm => h.sized m (mem_of_mem_filter hm)⟩
  | delivery id value => exact h.modify id (fun _ => rfl) fun m hm => ⟨hm.content, hm.packed, hsized⟩

/-- Records that can be written one after the other. -/
def WritableAll : Index → List Record → Prop
  | _, [] => True
  | live, record :: records => record.Writable live ∧ WritableAll (record.apply live) records

theorem writableAll_append {live : Index} {xs ys : List Record} : WritableAll live (xs ++ ys) ↔
      WritableAll live xs ∧ WritableAll (xs.foldl Record.apply live) ys := by
  induction xs generalizing live with
  | nil => simp [WritableAll]
  | cons x xs ih => simp [WritableAll, ih, and_assoc]

theorem WritableAll.sized {live : Index} {records : List Record} (h : WritableAll live records) :
    ∀ r ∈ records, r.Sized := by
  induction records generalizing live with
  | nil => exact fun r hr => absurd hr not_mem_nil
  | cons record records ih =>
    rw [forall_mem_cons]
    exact ⟨h.1.sized, ih h.2⟩

theorem WritableAll.of_isPrefix {live : Index} {xs ys : List Record} (h : WritableAll live ys)
    (hxs : xs <+: ys) : WritableAll live xs := by
  obtain ⟨rest, rfl⟩ := hxs
  exact (writableAll_append.mp h).1

/-- Whole records at the end of the file change the index as they change the messages, and a scan
can take them. -/
theorem replay_points {file : List UInt8} {index : List Entry} {live : Index} {records : List Record}
    (h : List.Forall₂ (Entry.Points file) index live) (hrecords : WritableAll live records) :
    FitAt file.length index records ∧
      List.Forall₂ (Entry.Points (file ++ encodeAll records)) (replay file.length index records)
        (records.foldl Record.apply live) := by
  induction records generalizing file index live with
  | nil =>
    rw [encodeAll, flatMap_nil, append_nil]
    exact ⟨trivial, h⟩
  | cons record records ih =>
    obtain ⟨hrecord, hrest⟩ := hrecords
    have hpoints := applyAt_points h hrecord
    obtain ⟨hfit, hreplay⟩ := ih hpoints hrest
    rw [length_append] at hfit hreplay
    rw [append_assoc] at hreplay
    have hfits : record.FitsAt index := by
      cases record with
      | put m =>
        obtain ⟨-, -, -, hnew, hroom⟩ := hrecord.fits
        obtain ⟨hfind, -⟩ | ⟨e, x, -, hfound, -⟩ := find_points h m.message_id
        · exact ⟨hfind, h.length_eq ▸ hroom⟩
        · rw [hnew] at hfound
          cases hfound
      | replace m =>
        obtain ⟨-, -, -, hold⟩ := hrecord.fits
        obtain ⟨-, hfind⟩ | ⟨e, x, hfound, -, -⟩ := find_points h m.message_id
        · rw [hfind] at hold
          cases hold
        · exact Option.isSome_iff_exists.mpr ⟨e, hfound⟩
      | status id value | signature id value | remove id | delivery id value => trivial
    exact ⟨⟨hrecord.sized, hfits, hfit⟩, hreplay⟩

theorem Index.Proper.foldl {live : Index} {records : List Record} (h : live.Proper)
    (hrecords : WritableAll live records) : Index.Proper (records.foldl Record.apply live) := by
  induction records generalizing live with
  | nil => exact h
  | cons record records ih => exact ih (h.apply hrecords.1) hrecords.2

namespace Journal

/-- The messages that the acknowledged records make. -/
def live (j : Journal) : Index := j.acknowledged.foldl Record.apply []

/-- What always holds of a store. -/
structure Sound (j : Journal) : Prop where
  points : List.Forall₂ (Entry.Points j.file) j.index j.live
  proper : j.live.Proper
  size : j.file.length ≤ maxFileSize

variable {j j' : Journal} {m : StoreMessage}

/-- The messages that are read are those that the acknowledged records make. -/
theorem Sound.messages_eq (h : j.Sound) : j.messages = .ok j.live :=
  messages_of_points h.points

theorem sound_empty : empty.Sound :=
  ⟨.nil, ⟨nodup_nil, zero_le _, fun _ hm => absurd hm not_mem_nil⟩, zero_le _⟩

/-! ## Effects -/

variable (disk : ℕ → Outcome)

/-- An operation appended whole records, and then what an append that failed left of another one. -/
structure Effect (j j' : Journal) (records : List Record) (tail : List UInt8) : Prop where
  file : j'.file = j.file ++ (encodeAll records ++ tail)
  index : j'.index = replay j.file.length j.index records
  acknowledged : j'.acknowledged = j.acknowledged ++ records
  writable : WritableAll j.live records
  size : j.file.length + (encodeAll records).length ≤ maxFileSize
  failed : tail = [] ∨ ∃ (record : Record) (n : ℕ),
    record.Writable (records.foldl Record.apply j.live) ∧ disk n ≠ .whole ∧
    tail = (disk n).written record.encode ∧
    j.file.length + (encodeAll records).length + record.encode.length ≤ maxFileSize

variable {disk}

/-- An operation that wrote nothing. -/
theorem Effect.of_eq (hfile : j'.file = j.file) (hindex : j'.index = j.index)
    (hacknowledged : j'.acknowledged = j.acknowledged) (hsize : j.file.length ≤ maxFileSize) :
    Effect disk j j' [] [] :=
  ⟨by simp [hfile, encodeAll], hindex, by simp [hacknowledged], trivial, by simpa [encodeAll],
    .inl rfl⟩

theorem Effect.live_eq {records : List Record} {tail : List UInt8}
    (h : Effect disk j j' records tail) : j'.live = records.foldl Record.apply j.live := by
  rw [live, h.acknowledged, foldl_append]
  rfl

/-- Whole records and then the effect of another operation. -/
theorem Effect.trans {j₁ j₂ j₃ : Journal} {xs ys : List Record} {tail : List UInt8}
    (h₁ : Effect disk j₁ j₂ xs []) (h₂ : Effect disk j₂ j₃ ys tail) :
    Effect disk j₁ j₃ (xs ++ ys) tail := by
  have hfile : j₂.file = j₁.file ++ encodeAll xs := by rw [h₁.file, append_nil]
  have hlength : j₂.file.length = j₁.file.length + (encodeAll xs).length := by
    rw [hfile, length_append]
  have hlive := h₁.live_eq
  refine ⟨?_, ?_, ?_, ?_, ?_, ?_⟩
  · rw [h₂.file, hfile, encodeAll_append, append_assoc, append_assoc]
  · rw [h₂.index, h₁.index, hlength, replay_append]
  · rw [h₂.acknowledged, h₁.acknowledged, append_assoc]
  · exact writableAll_append.mpr ⟨h₁.writable, hlive ▸ h₂.writable⟩
  · rw [encodeAll_append, length_append, ← add_assoc, ← hlength]
    exact h₂.size
  · refine h₂.failed.imp id ?_
    rintro ⟨record, n, hrecord, houtcome, htail, hsize⟩
    refine ⟨record, n, ?_, houtcome, htail, ?_⟩
    · rwa [foldl_append, ← hlive]
    · rwa [encodeAll_append, length_append, ← add_assoc, ← hlength]

/-- A store is sound after every effect. -/
theorem Sound.effect (h : j.Sound) {records : List Record} {tail : List UInt8}
    (heffect : Effect disk j j' records tail) : j'.Sound := by
  obtain ⟨-, hpoints⟩ := replay_points h.points heffect.writable
  refine ⟨?_, ?_, ?_⟩
  · rw [heffect.file, heffect.index, heffect.live_eq, ← append_assoc]
    exact hpoints.imp fun e m hpoints => hpoints.append tail
  · rw [heffect.live_eq]
    exact h.proper.foldl heffect.writable
  · have hsize := heffect.size
    rw [heffect.file, length_append, length_append]
    rcases heffect.failed with rfl | ⟨record, n, -, -, rfl, hroom⟩
    · omega
    · have hle : ((disk n).written record.encode).length ≤ record.encode.length := by
        unfold Outcome.written
        split
        · exact le_rfl
        · exact le_rfl
        · rw [length_take]
          exact min_le_right _ _
      omega

variable (disk)

/-- An append writes its record and succeeds, or it fails and leaves what it wrote. -/
theorem append_effect (h : j.Sound) {record : Record} (hrecord : record.Writable j.live) :
    let r := j.append disk record
    (r.1 = .ok ∧ Effect disk j r.2 [record] []) ∨
      (r.1 ≠ .ok ∧ ∃ tail, Effect disk j r.2 [] tail)
    := by
  unfold append
  dsimp only
  split
  · exact .inr ⟨nofun, [], .of_eq rfl rfl rfl h.size⟩
  · rename_i hsize
    split_ifs with hwhole
    · left
      refine ⟨rfl, ?_, rfl, rfl, ⟨hrecord, trivial⟩, ?_, .inl rfl⟩
      · rw [hwhole, append_nil, encodeAll, flatMap_singleton]
        rfl
      · rw [encodeAll, flatMap_singleton]
        omega
    · right
      refine ⟨nofun, (disk j.appends).written record.encode, ?_, rfl, ?_, trivial, ?_, ?_⟩
      · rfl
      · exact (append_nil _).symm
      · simpa [encodeAll] using h.size
      · exact .inr ⟨record, j.appends, hrecord, hwhole, rfl, by simpa [encodeAll] using hsize⟩

/-- A removal can always be written. -/
theorem writable_remove (live : Index) (id : Octets 32) : (Record.remove id).Writable live :=
  ⟨trivial, trivial, fun _ hm => Record.noConfusion hm⟩

/-- A message that the store accepts. -/
theorem sized_of_typed (htyped : Typed m.delivery)
    (hrange : ¬ (m.content.length > maxContent ∨ m.packed.length > maxPacked ∨
      ¬ m.delivery.valid = true)) : m.Sized := by
  rw [not_or, not_or, not_not] at hrange
  exact ⟨not_lt.mp hrange.1, not_lt.mp hrange.2.1, hrange.2.2, htyped.1, htyped.2.1, htyped.2.2⟩

/-- A replacement of the packed bytes of a message can be written. -/
theorem writable_replace {live : Index} (h : live.Proper) {x : StoreMessage}
    (hx : live.find x.message_id = some x) {packed : List UInt8} (hpacked : packed.length ≤ maxPacked) :
    (Record.replace { x with packed }).Writable live := by
  have hsized := h.sized x (Index.mem_of_find hx)
  refine ⟨⟨hsized.content, hpacked, hsized.delivery⟩,
    ⟨hsized.content, hpacked, hsized.delivery.valid, ?_⟩, ?_⟩
  · exact Option.isSome_iff_exists.mpr ⟨x, hx⟩
  · intro m hm y hy hid
    obtain rfl := Record.replace.inj hm
    have hfound := Index.find_of_mem h.distinct hy
    rw [hid, hx] at hfound
    rw [Option.some.inj hfound]

/-! ## Compaction -/

/-- The puts of messages can be written behind those of the messages before them. -/
theorem writableAll_puts {before live : Index} (h : Index.Proper (before ++ live)) :
    WritableAll before (live.map .put) ∧
      (live.map Record.put).foldl Record.apply before = before ++ live := by
  induction live generalizing before with
  | nil => exact ⟨trivial, (append_nil before).symm⟩
  | cons m live ih =>
    have hm := h.sized m (by simp)
    have hnew : before.find m.message_id = none := by
      have hdistinct := h.distinct
      rw [Index.Distinct, map_append, map_cons, nodup_middle, nodup_cons,
        mem_append, not_or] at hdistinct
      rw [Index.find, List.find?_eq_none]
      intro e he hid
      exact hdistinct.1.1 (of_decide_eq_true hid ▸ mem_map_of_mem he)
    have hroom : before.length < maxMessages := by
      have hle := h.room
      rw [length_append, length_cons] at hle
      omega
    have hshift : (before ++ m :: live : Index) = (before ++ [m]) ++ live := by simp
    obtain ⟨hrest, hfold⟩ := ih (hshift ▸ h)
    refine ⟨⟨⟨hm, ⟨hm.content, hm.packed, hm.delivery.valid, hnew, hroom⟩,
      fun _ hm => Record.noConfusion hm⟩, hrest⟩, ?_⟩
    rw [hshift]
    exact hfold

/-- The loop of the compaction writes the puts of all messages, or it fails. -/
theorem copyAll_spec {file : List UInt8} {index : List Entry} {live : Index}
    (h : List.Forall₂ (Entry.Points file) index live) (appends : ℕ) (out : List UInt8) :
    (∃ status appends', status ≠ .ok ∧
        copyAll disk file index appends out = (.error status, appends')) ∨
      ((live ≠ [] → out.length + (encodeAll (live.map .put)).length ≤ maxFileSize) ∧
        ∃ appends', copyAll disk file index appends out =
          (.ok (out ++ encodeAll (live.map .put)), appends')) := by
  induction h generalizing appends out with
  | nil =>
    refine .inr ⟨fun hne => absurd rfl hne, appends, ?_⟩
    simp [copyAll, encodeAll]
  | @cons e m index live hpoints _ ih =>
    unfold copyAll
    rw [hpoints.message_eq]
    dsimp only
    split
    · exact .inl ⟨.bounds, _, by decide, rfl⟩
    · split
      · rcases ih (appends + 1) (out ++ (Record.put m).encode) with hfailed | ⟨hroom, hdone⟩
        · exact .inl hfailed
        · right
          rw [map_cons, encodeAll_cons, ← append_assoc]
          refine ⟨fun _ => ?_, hdone⟩
          rw [length_append]
          by_cases hlive : live = []
          · subst hlive
            simp only [map_nil, encodeAll, flatMap_nil, length_nil]
            omega
          · have hle := hroom hlive
            rw [length_append] at hle
            omega
      · exact .inl ⟨.crypto, _, by decide, rfl⟩

/-- A file of whole records is read to its end. -/
theorem scanFile_encodeAll {records : List Record} (hrecords : WritableAll [] records)
    (hsize : (encodeAll records).length ≤ maxFileSize) :
    scanFile (encodeAll records) = .ok (replay 0 [] records, (encodeAll records).length) := by
  obtain ⟨hfit, -⟩ := @replay_points [] [] [] records .nil hrecords
  have hscan := scanTail_records hfit (by simpa using hsize) []
  rw [append_nil, scanTail_stop (.inl (readPiece_nil _)), length_nil, zero_add] at hscan
  exact hscan

/-- The file of a store has just the records of puts of its messages. -/
structure Compacted (j j' : Journal) : Prop where
  file : j'.file = encodeAll (j.live.map .put)
  index : j'.index = replay 0 [] (j.live.map .put)
  acknowledged : j'.acknowledged = j.acknowledged
  size : (encodeAll (j.live.map .put)).length ≤ maxFileSize

/-- A compaction fails and changes nothing, or it leaves the puts of all messages. -/
theorem compact_effect (h : j.Sound) :
    let r := j.compact disk
    (r.1 ≠ .ok ∧ Effect disk j r.2 [] []) ∨ (r.1 = .ok ∧ Compacted j r.2) := by
  obtain ⟨hputs, -⟩ := @writableAll_puts [] j.live h.proper
  unfold compact
  rcases copyAll_spec disk h.points j.appends [] with
    ⟨status, appends, hstatus, hcopy⟩ | ⟨hroom, appends, hcopy⟩
  · rw [hcopy]
    exact .inl ⟨hstatus, .of_eq rfl rfl rfl h.size⟩
  · have hsize : (encodeAll (j.live.map .put)).length ≤ maxFileSize := by
      by_cases hlive : j.live = []
      · rw [hlive]
        exact zero_le _
      · simpa using hroom hlive
    rw [hcopy, nil_append]
    dsimp only
    rw [scanFile_encodeAll hputs hsize]
    exact .inr ⟨rfl, take_length, rfl, rfl, hsize⟩

/-- A compaction leaves the messages. -/
theorem live_compact (h : j.Sound) : (j.compact disk).2.live = j.live := by
  rcases compact_effect disk h with ⟨-, heffect⟩ | ⟨-, hcompacted⟩
  · exact heffect.live_eq
  · rw [live, hcompacted.acknowledged, live]

/-- A store is sound after a compaction. -/
theorem Sound.compacted (h : j.Sound) (hcompacted : Compacted j j') : j'.Sound := by
  obtain ⟨hputs, hfold⟩ := @writableAll_puts [] j.live h.proper
  obtain ⟨-, hpoints⟩ := @replay_points [] [] [] _ .nil hputs
  have hlive : j'.live = j.live := by rw [live, hcompacted.acknowledged, live]
  refine ⟨?_, hlive ▸ h.proper, hcompacted.file ▸ hcompacted.size⟩
  rw [hcompacted.file, hcompacted.index, hlive]
  rwa [hfold] at hpoints

end Journal

end Reticulum.Lxmf
