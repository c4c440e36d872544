import Reticulum.Lxmf.Simulation

/-!
# What a reopened store holds

A journal is clean when its file is a sequence of whole records which the index follows
(`Journal.Clean`). Such a store is opened with the index that it had, and opening the first bytes of
its file gives what the records make that lie wholly inside (`Clean.opens`). Stores whose appends
all succeed are clean, and their operations are not parted when the file is cut, but for puts that
evict (`replay_correct`).
-/

namespace Reticulum.Lxmf.Journal

open List Run

/-- The records that lie wholly inside the first `k` bytes. -/
def inside : ℕ → List Record → List Record
  | _, [] => []
  | k, record :: records =>
    if record.encode.length ≤ k then record :: inside (k - record.encode.length) records else []

/-- The file of a store is a sequence of whole records. -/
structure Clean (j : Journal) (records : List Record) : Prop where
  file : j.file = encodeAll records
  index : j.index = replay 0 [] records
  writable : WritableAll [] records
  live : j.live = records.foldl Record.apply []
  size : j.file.length ≤ maxFileSize

theorem clean_empty : empty.Clean [] := ⟨rfl, rfl, trivial, rfl, Nat.zero_le _⟩

/-- The beginning of a file of records: those inside, and a part of the next one. -/
theorem take_encodeAll (k : ℕ) (records : List Record) (hsized : ∀ r ∈ records, r.Sized) :
    ∃ torn, (encodeAll records).take k = encodeAll (inside k records) ++ torn ∧
      (torn = [] ∨ ∃ record ∈ records, ∃ n, 0 < n ∧ n < record.encode.length ∧
        torn = record.encode.take n) := by
  induction records generalizing k with
  | nil => exact ⟨[], by simp [inside, encodeAll], .inl rfl⟩
  | cons record records ih =>
    rw [forall_mem_cons] at hsized
    unfold inside
    split_ifs with hle
    · obtain ⟨torn, htake, htorn⟩ := ih (k - record.encode.length) hsized.2
      refine ⟨torn, ?_, htorn.imp id ?_⟩
      · rw [encodeAll_cons, encodeAll_cons, take_append, take_of_length_le hle, htake, append_assoc]
      · rintro ⟨r, hr, hn⟩
        exact ⟨r, mem_cons_of_mem _ hr, hn⟩
    · rw [not_le] at hle
      refine ⟨record.encode.take k, ?_, ?_⟩
      · rw [encodeAll_cons, take_append_of_le_length hle.le]
        rfl
      · by_cases hk : k = 0
        · exact .inl (by rw [hk, take_zero])
        · exact .inr ⟨record, mem_cons_self, k, Nat.pos_of_ne_zero hk, hle, rfl⟩

theorem inside_isPrefix (k : ℕ) (records : List Record) : inside k records <+: records := by
  induction records generalizing k with
  | nil => exact prefix_rfl
  | cons record records ih =>
    unfold inside
    split
    · exact (prefix_cons_inj record).mpr (ih _)
    · exact nil_prefix

variable {records : List Record} {j : Journal}

/-- The beginning of a file of whole records is read to the end of the last whole record. -/
theorem scanFile_take (hrecords : WritableAll [] records)
    (hsize : (encodeAll records).length ≤ maxFileSize) (k : ℕ) :
    scanFile ((encodeAll records).take k) =
      .ok (replay 0 [] (inside k records), (encodeAll (inside k records)).length) := by
  obtain ⟨torn, htake, htorn⟩ := take_encodeAll k records hrecords.sized
  have hinside := hrecords.of_isPrefix (inside_isPrefix k records)
  obtain ⟨hfit, -⟩ := @replay_points [] [] [] _ .nil hinside
  have hle : (encodeAll (inside k records)).length ≤ maxFileSize := by
    have hlength := congrArg List.length htake
    rw [length_take, length_append] at hlength
    omega
  have hscan := scanTail_records hfit (by simpa using hle) torn
  rw [length_nil, Nat.zero_add] at hscan
  rw [htake]
  refine hscan.trans (scanTail_stop ?_)
  rcases htorn with rfl | ⟨record, hrecord, n, hpos, hn, rfl⟩
  · exact .inl (readPiece_nil _)
  · exact .inr (readPiece_torn (hrecords.sized record hrecord) hpos hn)

/-- A file is opened with messages, and cut to bytes. -/
def Opens (bytes file : List UInt8) (messages : List StoreMessage) : Prop :=
  ∃ index, scanFile bytes = .ok (index, file.length) ∧ bytes.take file.length = file ∧
    Entry.messages file index = .ok messages

/-- The first bytes of a clean file are opened with what the records inside make, and cut behind
them. -/
theorem Clean.opens (h : j.Clean records) (k : ℕ) :
    Opens (j.file.take k) (encodeAll (inside k records))
      ((inside k records).foldl Record.apply []) := by
  obtain ⟨torn, htake, -⟩ := take_encodeAll k records h.writable.sized
  have hinside := h.writable.of_isPrefix (inside_isPrefix k records)
  obtain ⟨-, hpoints⟩ := @replay_points [] [] [] _ .nil hinside
  refine ⟨replay 0 [] (inside k records), ?_, ?_, messages_of_points hpoints⟩
  · rw [h.file]
    exact scanFile_take h.writable (h.file ▸ h.size) k
  · rw [h.file, htake]
    exact take_left' rfl

theorem Clean.sound (h : j.Clean records) : j.Sound := by
  obtain ⟨-, hpoints⟩ := @replay_points [] [] [] records .nil h.writable
  refine ⟨?_, ?_, h.size⟩
  · rw [h.file, h.index, h.live]
    exact hpoints
  · rw [h.live]
    exact sound_empty.proper.foldl h.writable

/-- A clean store is opened as it was. -/
theorem Clean.reopen_eq (h : j.Clean records) : j.reopen = .ok j := by
  have hscan := scanFile_encodeAll h.writable (h.file ▸ h.size)
  unfold reopen
  rw [h.file, hscan]
  simp [Except.map, ← h.file, ← h.index]

/-- Whole records behind a clean file leave it clean. -/
theorem Clean.effect {disk : ℕ → Outcome} {j' : Journal} {rs : List Record} (h : j.Clean records)
    (heffect : Effect disk j j' rs []) : j'.Clean (records ++ rs) := by
  have hsize := heffect.size
  refine ⟨?_, ?_, ?_, ?_, ?_⟩
  · rw [heffect.file, h.file, encodeAll_append, append_nil]
  · rw [heffect.index, h.index, replay_append, h.file, Nat.zero_add]
  · exact writableAll_append.mpr ⟨h.writable, h.live ▸ heffect.writable⟩
  · rw [heffect.live_eq, h.live, foldl_append]
  · rw [heffect.file, append_nil, length_append]
    exact hsize

/-- A compacted store is clean. -/
theorem Clean.compacted {j' : Journal} (h : j.Sound) (hcompacted : Compacted j j') :
    j'.Clean (j.live.map .put) := by
  obtain ⟨hputs, hfold⟩ := @writableAll_puts [] j.live h.proper
  have hlive : j'.live = j.live := by
    rw [Journal.live, hcompacted.acknowledged, Journal.live]
  exact ⟨hcompacted.file, hcompacted.index, hputs, hlive.trans hfold.symm,
    hcompacted.file ▸ hcompacted.size⟩

/-! ## Runs without failures -/

/-- Every append succeeds. -/
def works : ℕ → Outcome := fun _ => .whole

/-- On a disk that works nothing is left of an append that failed. -/
theorem Effect.tail_eq_nil {j' : Journal} {tail : List UInt8} (h : Effect works j j' records tail) :
    tail = [] := by
  rcases h.failed with htail | ⟨_, _, -, hwhole, -, -⟩
  · exact htail
  · exact absurd rfl hwhole

/-- The file of a store is clean. -/
def Kept (j : Journal) : Prop := ∃ records, j.Clean records

theorem Kept.sound : j.Kept → j.Sound := fun ⟨_, h⟩ => h.sound

theorem Kept.compact (h : j.Kept) (disk : ℕ → Outcome) : (j.compact disk).2.Kept := by
  obtain ⟨records, hclean⟩ := h
  rcases compact_effect disk hclean.sound with ⟨-, heffect⟩ | ⟨-, hcompacted⟩
  · exact ⟨_, hclean.effect heffect⟩
  · exact ⟨_, .compacted hclean.sound hcompacted⟩

theorem Kept.step (crypto : Crypto) (h : j.Kept) (operation : Operation) :
    (j.step works crypto operation).Kept := by
  by_cases hcompact : operation = .compact
  · subst hcompact
    exact h.compact works
  · obtain ⟨records, hclean⟩ := h
    obtain ⟨rs, tail, heffect, -⟩ := perform_effect works crypto hclean.sound hcompact
    obtain rfl := heffect.tail_eq_nil
    exact ⟨records ++ rs, hclean.effect heffect⟩

/-! ## Cuts -/

/-- The records inside more bytes than the first ones have. -/
theorem inside_append {k : ℕ} {xs : List Record} (hk : (encodeAll xs).length ≤ k) (ys : List Record) :
    inside k (xs ++ ys) = xs ++ inside (k - (encodeAll xs).length) ys := by
  induction xs generalizing k with
  | nil => rfl
  | cons x xs ih =>
    rw [encodeAll_cons, length_append] at hk ⊢
    rw [cons_append, inside, if_pos (by omega), ih (by omega), Nat.sub_sub]
    rfl

/-- Not all of the records are inside fewer bytes than they have. -/
theorem inside_ne {k : ℕ} (hk : k < (encodeAll records).length) : inside k records ≠ records := by
  induction records generalizing k with
  | nil => exact absurd hk (Nat.not_lt_zero k)
  | cons record records ih =>
    rw [encodeAll_cons, length_append] at hk
    unfold inside
    split_ifs
    · intro hsame
      exact ih (by omega) (cons.inj hsame).2
    · exact nofun

/-- Records inside some bytes of the records of a put that evicts, not all of them, are
evictions. -/
theorem inside_evictions {m : StoreMessage} {ids : List (Octets 32)} {k : ℕ}
    (hrecords : records <+: Store.evictions ids ++ [.put m]) (hk : k < (encodeAll records).length) :
    ∃ ids', inside k records = Store.evictions ids' := by
  have hinside := inside_isPrefix k records
  have hprefix : inside k records <+: Store.evictions ids := by
    refine (prefix_concat_iff.mp (hinside.trans hrecords)).resolve_left fun hall => inside_ne hk ?_
    exact hinside.eq_of_length_le (hall ▸ hrecords.length_le)
  obtain ⟨ids', -, hids'⟩ := prefix_map_iff.mp hprefix
  exact ⟨ids', hids'⟩

/-- The records of an operation: at most one, or those of a put that evicts. -/
def Grouped (live : Index) (operation : Operation) (records : List Record) : Prop :=
  records.length ≤ 1 ∨ ∃ m typed ids, operation = .put m typed ∧ m.signature_state ≠ .verified ∧
    ¬ Store.Room live m.source ∧ records <+: Store.evictions ids ++ [.put m]

theorem grouped_plan {live : Index} (h : live.Proper) (crypto : Crypto) (operation : Operation) :
    Grouped live operation (Store.plan crypto live operation).records := by
  by_cases hput : ∃ m typed, operation = .put m typed
  · obtain ⟨m, typed, rfl⟩ := hput
    have hevicts {ids : List (Octets 32)} (hids : Store.Evicts m.source live ids)
        (hnot : ids ≠ [] → m.signature_state ≠ .verified) {records : List Record}
        (hrecords : records <+: Store.evictions ids ++ [.put m]) :
        Grouped live (.put m typed) records := by
      cases ids with
      | nil => exact .inl hrecords.length_le
      | cons id ids => exact .inr ⟨m, typed, _, rfl, hnot nofun, hids.1, hrecords⟩
    have hplan := Store.insertion_putPlan m live
    dsimp only [Store.plan]
    generalize Store.putPlan m live = script at hplan ⊢
    cases hplan with
    | present => exact .inl (Nat.zero_le 1)
    | inserted _ _ hids hnot =>
      rw [Script.records_after]
      exact hevicts hids hnot prefix_rfl
    | refused _ hids hnot =>
      rw [Script.records_after]
      exact hevicts hids hnot ((prefix_append_right_inj _).mpr nil_prefix)
  · rcases records_plan h crypto fun m typed hop => hput ⟨m, typed, hop⟩ with hnone | ⟨_, hone, -⟩
    · exact .inl (by simp [hnone])
    · exact .inl (by simp [hone])

/-- An operation that appends to the file: everything but a compaction that succeeds. -/
def Adds (crypto : Crypto) (j : Journal) (operation : Operation) : Prop :=
  operation = .compact → (j.perform works crypto operation).1 ≠ .ok

/-- What the first `k` bytes of a file are opened with, and what is left of them, by the operation
in whose records they end. -/
inductive Cut (crypto : Crypto) (j : Journal) (operation : Operation) (k : ℕ) :
    List UInt8 → Index → Prop
  /-- The messages and the file before the operation. -/
  | before (hadds : Adds crypto j operation) (hk : j.file.length ≤ k) :
      Cut crypto j operation k j.file j.live
  /-- A put that has to evict is cut between its records: some of the evictions are inside. -/
  | evicting (hk : j.file.length ≤ k) {m : StoreMessage} {typed : Typed m.delivery}
      (hput : operation = .put m typed) (hnot : m.signature_state ≠ .verified)
      (hroom : ¬ Store.Room j.live m.source) {records : List Record}
      (hrecords : (j.step works crypto operation).file = j.file ++ encodeAll records)
      {ids : List (Octets 32)} (hids : inside (k - j.file.length) records = Store.evictions ids) :
      Cut crypto j operation k (j.file ++ encodeAll (Store.evictions ids))
        ((Store.evictions ids).foldl Record.apply j.live)
  /-- A compaction wrote the messages anew: the first of them are inside. -/
  | compacted (hcompact : ¬ Adds crypto j operation) :
      Cut crypto j operation k (encodeAll (inside k (j.live.map .put)))
        ((inside k (j.live.map .put)).foldl Record.apply [])

variable {crypto : Crypto} {operation : Operation} {k : ℕ}

/-- The records of an operation that appends. -/
theorem Adds.effect (h : j.Sound) (hadds : Adds crypto j operation) :
    ∃ records, Effect works j (j.step works crypto operation) records [] ∧
      Grouped j.live operation records := by
  by_cases hcompact : operation = .compact
  · have hfailed := hadds hcompact
    subst hcompact
    rcases compact_effect works h with ⟨-, heffect⟩ | ⟨hok, -⟩
    · exact ⟨[], heffect, .inl (Nat.zero_le 1)⟩
    · exact absurd hok hfailed
  · obtain ⟨records, tail, heffect, hprefix⟩ := perform_effect works crypto h hcompact
    obtain rfl := heffect.tail_eq_nil
    refine ⟨records, heffect, (grouped_plan h.proper crypto operation).imp hprefix.length_le.trans ?_⟩
    rintro ⟨m, typed, ids, hput, hnot, hroom, hrecords⟩
    exact ⟨m, typed, ids, hput, hnot, hroom, hprefix.trans hrecords⟩

/-- The first bytes of a file, behind those before its last operation. -/
theorem Kept.opens_step (h : j.Kept) (hadds : Adds crypto j operation) (hle : j.file.length ≤ k)
    (hk : k < (j.step works crypto operation).file.length) : ∃ file messages,
      Opens ((j.step works crypto operation).file.take k) file messages ∧
        Cut crypto j operation k file messages := by
  obtain ⟨old, hclean⟩ := h
  obtain ⟨records, heffect, hgrouped⟩ := hadds.effect hclean.sound
  have hfile : (j.step works crypto operation).file = j.file ++ encodeAll records := by
    rw [heffect.file, append_nil]
  have hopens := (hclean.effect heffect).opens k
  have hlength : (encodeAll old).length = j.file.length := by rw [hclean.file]
  rw [inside_append (hlength.trans_le hle), hlength, encodeAll_append, foldl_append, ← hclean.file,
    ← hclean.live] at hopens
  rw [hfile, length_append] at hk
  refine ⟨_, _, hopens, ?_⟩
  rcases hgrouped with hone | ⟨m, typed, ids, hput, hnot, hroom, hrecords⟩
  · -- There is one record, and it is not inside.
    have hnone : inside (k - j.file.length) records = [] := by
      have hne := inside_ne (show k - j.file.length < (encodeAll records).length by omega)
      have hfirst := inside_isPrefix (k - j.file.length) records
      by_contra hsome
      refine hne (hfirst.eq_of_length_le (hone.trans ?_))
      exact length_pos_of_ne_nil hsome
    rw [hnone, encodeAll, flatMap_nil, append_nil]
    exact .before hadds hle
  · obtain ⟨ids', hids'⟩ :=
      inside_evictions hrecords (show k - j.file.length < (encodeAll records).length by omega)
    rw [hids']
    exact .evicting hle hput hnot hroom hfile hids'

/-- The first bytes of the file after a run end in the records of one of its operations. -/
theorem cut_of_lt (crypto : Crypto) (operations : List Operation) :
    let run := final (step works crypto) empty
    ∀ k < (run operations).file.length, ∃ past operation rest file messages,
      operations = past ++ operation :: rest ∧
      Run.Each (step works crypto) (Adds crypto) (run (past ++ [operation])) rest ∧
      k < (run (past ++ [operation])).file.length ∧ Opens ((run operations).file.take k) file messages ∧
      Cut crypto (run past) operation k file messages := by
  intro run
  induction operations using List.reverseRecOn with
  | nil => exact fun k hk => absurd hk (Nat.not_lt_zero k)
  | append_singleton operations operation ih =>
    intro k hk
    have hkept : (run operations).Kept :=
      invariant (fun _ operation h _ => h.step crypto operation)
        ⟨[], clean_empty⟩ (each_true operations)
    have hrun : run (operations ++ [operation]) = (run operations).step works crypto operation :=
      final_append ..
    by_cases hadds : Adds crypto (run operations) operation
    · by_cases hlt : k < (run operations).file.length
      · -- The bytes were there before the operation.
        obtain ⟨past, o, rest, file, messages, hsplit, heach, hbefore, hopens, hcut⟩ := ih k hlt
        obtain ⟨records, heffect, -⟩ := hadds.effect hkept.sound
        refine ⟨past, o, rest ++ [operation], file, messages, by rw [hsplit]; simp, ?_, hbefore, ?_, hcut⟩
        · refine each_append.mpr ⟨heach, ?_, trivial⟩
          rw [← final_append, append_assoc, singleton_append, ← hsplit]
          exact hadds
        · rw [hrun, heffect.file, take_append_of_le_length hlt.le]
          exact hopens
      · obtain ⟨file, messages, hopens, hcut⟩ :=
          hkept.opens_step hadds (not_lt.mp hlt) (hrun ▸ hk)
        exact ⟨operations, operation, [], file, messages, rfl, trivial, hk, hrun ▸ hopens, hcut⟩
    · obtain ⟨hcompact, hok⟩ := Classical.not_imp.mp hadds
      refine ⟨operations, operation, [], _, _, rfl, trivial, hk, ?_, .compacted hadds⟩
      rw [hrun]
      subst hcompact
      rcases compact_effect works hkept.sound with ⟨hfailed, -⟩ | ⟨-, hcompacted⟩
      · exact absurd hfailed hok
      · exact (Clean.compacted hkept.sound hcompacted).opens k

/-- A store whose appends all succeed, after every run of operations. It is opened as it was, with
the messages that its operations made, and a compaction leaves them. Opening fewer bytes of its file
gives the messages before the operation in whose records they end and cuts the file behind those of
the operations before. Only the records of a put that evicts and those of a compaction can be
parted. -/
theorem replay_correct (crypto : Crypto) (operations : List Operation) :
    let run := final (step works crypto) empty
    let j := run operations
    j.reopen = .ok j ∧ j.messages = .ok j.live ∧ (j.compact works).2.messages = .ok j.live ∧
      ∀ k < j.file.length, ∃ past operation rest j' messages, operations = past ++ operation :: rest ∧
        Run.Each (step works crypto) (Adds crypto) (run (past ++ [operation])) rest ∧
        k < (run (past ++ [operation])).file.length ∧
        reopen { j with file := j.file.take k } = .ok j' ∧ j'.messages = .ok messages ∧
        Cut crypto (run past) operation k j'.file messages := by
  intro run j
  have hkept : j.Kept :=
    invariant (fun _ operation h _ => h.step crypto operation)
      ⟨[], clean_empty⟩ (each_true operations)
  have hcompact := (hkept.compact works).sound.messages_eq
  obtain ⟨records, hclean⟩ := hkept
  refine ⟨hclean.reopen_eq, hclean.sound.messages_eq, ?_, fun k hk => ?_⟩
  · rw [hcompact, live_compact works hclean.sound]
  · obtain ⟨past, operation, rest, file, messages, hsplit, heach, hlt, ⟨index, hscan, hfile, hmessages⟩,
      hcut⟩ := cut_of_lt crypto operations k hk
    refine ⟨past, operation, rest, { j with file, index }, messages, hsplit, heach, hlt, ?_, hmessages,
      hcut⟩
    unfold reopen
    rw [hscan]
    exact congrArg (fun file => Except.ok { j with file, index }) hfile

/-- A put of a message with the number, of a source of its own. -/
def plainPut (n : ℕ) : Operation :=
  .put (Store.plainMessage (UInt8.ofNat n) (UInt8.ofNat n)) (show Typed {} by unfold Typed; decide)

/-- Puts of messages with the numbers below `n`. -/
def plainPuts (n : ℕ) : List Operation := (List.range n).map plainPut

/-- A digest that keeps the first 32 bytes, and signatures that are all valid. -/
def plainCrypto : Crypto := { sha256 := Octets.ofList 32, ed25519Verify := fun _ _ _ => true }

/-- The ninth source costs a message. Cut behind the record that removes it, the file has the
records of the first eight operations and not all of those of the ninth, but it is not opened with
the messages of the first eight. -/
theorem cut_between_records :
    let j := final (step works plainCrypto) empty (plainPuts 8)
    let j' := final (step works plainCrypto) empty (plainPuts 9)
    j.file.length ≤ j.file.length + 48 ∧ j.file.length + 48 < j'.file.length ∧
      (reopen { j' with file := j'.file.take (j.file.length + 48) }).toOption.map messages ≠
        some j.messages := by
  decide +kernel

end Reticulum.Lxmf.Journal
