import Reticulum.Lxmf.Durability

/-!
# What failed appends leave

The file is only appended to, and a store that is opened reads it up to the first bytes that are not
a record. Bytes of an append that failed therefore hide every record that is written behind them,
until a compaction. While the file is in order, that is, whole records to its end that make the
index, every operation survives whatever its appends leave (`survives_of_inOrder`). Behind the bytes
of a failed append the store survives an operation that writes nothing, or whose append fails and
leaves bytes at which the file is not read any further (`perform_harmless`).
-/

namespace Reticulum.Lxmf

open Bytes List Run

/-! ## More bytes behind a file -/

/-- A record is read from every longer string. -/
theorem readPiece_append_record {good type : ℕ} {bytes payload rest : List UInt8}
    (h : readPiece good bytes = .record type payload rest) (more : List UInt8) :
    bytes.drop (headerSize + payload.length) = rest ∧
      readPiece good (bytes ++ more) = .record type payload (rest ++ more) := by
  have hsize : headerSize = 16 := rfl
  unfold readPiece at h
  dsimp only at h
  split_ifs at h with hne hheader hmagic hfields hn hshort hsum
  obtain ⟨rfl, rfl, rfl⟩ := Piece.record.inj h
  have hlength : (slice bytes headerSize (number bytes 8 4)).length = number bytes 8 4 := by
    rw [slice, length_take, length_drop]
    omega
  have hlonger : (bytes ++ more).length = bytes.length + more.length := length_append
  refine ⟨by rw [hlength], ?_⟩
  unfold readPiece
  simp (disch := omega) only [slice_append_of_le, number_append_of_le, drop_append_of_le_length]
  rw [if_neg (fun hnil => hne (append_eq_nil_iff.mp hnil).1), if_neg (by omega), if_neg hmagic,
    if_neg hfields, if_neg hn, if_neg (by omega), if_neg hsum]

/-- A scan fails at a version that is not known. -/
theorem scanTail_format {good : ℕ} {index : List Entry} {bytes : List UInt8}
    (h : readPiece good bytes = .format) : scanTail good index bytes = .error .format := by
  unfold scanTail
  rw [scanFrom, h]

/-- A round of a scan stops, fails whatever follows, or reads a record and goes on behind it. -/
theorem scanTail_round (good : ℕ) (index : List Entry) (bytes : List UInt8) :
    scanTail good index bytes = .ok (index, good) ∨
      (∃ status, ∀ more, scanTail good index (bytes ++ more) = .error status) ∨
      ∃ n index', 0 < n ∧ n ≤ bytes.length ∧ ∀ more,
        scanTail good index (bytes ++ more) = scanTail (good + n) index' (bytes.drop n ++ more) := by
  cases hpiece : readPiece good bytes with
  | done => exact .inl (scanTail_stop (.inl hpiece))
  | recover => exact .inl (scanTail_stop (.inr hpiece))
  | format =>
    -- A version that is not known is seen in every longer string.
    refine .inr (.inl ⟨.format, fun more => scanTail_format ?_⟩)
    have hsize : headerSize = 16 := rfl
    unfold readPiece at hpiece
    dsimp only at hpiece
    split_ifs at hpiece with hne hheader hmagic hfields
    have hlonger : (bytes ++ more).length = bytes.length + more.length := length_append
    unfold readPiece
    simp (disch := omega) only [slice_append_of_le, number_append_of_le]
    rw [if_neg (fun hnil => hne (append_eq_nil_iff.mp hnil).1), if_neg (by omega),
      if_neg hmagic, if_pos hfields]
  | record type payload rest =>
    have hmore more := readPiece_append_record hpiece more
    have hlength := length_of_readPiece hpiece
    have hsize : headerSize = 16 := rfl
    cases hchange : decodeChange type payload with
    | none =>
      refine .inl ?_
      unfold scanTail
      rw [scanFrom, hpiece]
      dsimp only
      rw [hchange]
    | some change =>
      have hround (more : List UInt8) : scanTail good index (bytes ++ more) = _ :=
        scanTail_record (hmore more).2 hchange
      cases happly : change.apply good index with
      | recover =>
        refine .inl ?_
        rw [scanTail_record hpiece hchange, happly]
      | bounds => exact .inr (.inl ⟨.bounds, fun more => by rw [hround more, happly]⟩)
      | index index' =>
        refine .inr (.inr ⟨headerSize + payload.length, index', by omega, by omega, fun more => ?_⟩)
        rw [hround more, happly, (hmore []).1, Nat.add_assoc]

/-- More bytes behind a file are scanned from where a scan of the file ends, and not at all where
that fails. -/
theorem scanTail_append (good : ℕ) (index : List Entry) (bytes more : List UInt8) :
    match scanTail good index bytes with
    | .error status => scanTail good index (bytes ++ more) = .error status
    | .ok (index', good') => ∃ n ≤ bytes.length, good' = good + n ∧
        scanTail good index (bytes ++ more) = scanTail good' index' (bytes.drop n ++ more) := by
  -- Every round leaves fewer bytes.
  induction hlength : bytes.length using Nat.strong_induction_on generalizing good index bytes with
  | _ length ih =>
    rcases scanTail_round good index bytes with hstop | ⟨status, hfail⟩ | ⟨n, index', hpos, hn, hgo⟩
    · rw [hstop]
      exact ⟨0, Nat.zero_le _, rfl, rfl⟩
    · have hnow := hfail []
      rw [append_nil] at hnow
      rw [hnow]
      exact hfail more
    · have hnow := hgo []
      rw [append_nil, append_nil] at hnow
      have hdrop : (bytes.drop n).length = bytes.length - n := length_drop
      have hrest := ih (bytes.drop n).length (by omega) (good + n) index' (bytes.drop n) rfl
      rw [hnow, hgo more]
      revert hrest
      cases scanTail (good + n) index' (bytes.drop n) with
      | error status => exact id
      | ok result =>
        rintro ⟨n', hn', hgood, hscan⟩
        refine ⟨n + n', by omega, by rw [hgood, Nat.add_assoc], ?_⟩
        rw [hscan, drop_drop]

/-- More bytes behind a file are scanned from where a scan of the file ends. -/
theorem scanFile_append {file : List UInt8} {index : List Entry} {good : ℕ}
    (h : scanFile file = .ok (index, good)) (more : List UInt8) : good ≤ file.length ∧
      scanFile (file ++ more) = scanTail good index ((file ++ more).drop good) := by
  have happend := scanTail_append 0 [] file more
  rw [show scanTail 0 [] file = .ok (index, good) from h] at happend
  obtain ⟨n, hn, rfl, hscan⟩ := happend
  rw [Nat.zero_add] at hscan ⊢
  refine ⟨hn, ?_⟩
  rw [drop_append_of_le_length hn]
  exact hscan

namespace Journal

/-! ## Opening again -/

/-- The messages of a store that is closed and opened again. -/
def reopened (j : Journal) : Except Status (List StoreMessage) :=
  match j.reopen with
  | .error status => .error status
  | .ok j => j.messages

theorem reopened_eq (j : Journal) : j.reopened = match scanFile j.file with
      | .error status => .error status
      | .ok (index, good) => Entry.messages (j.file.take good) index := by
  unfold reopened reopen
  cases scanFile j.file <;> rfl

variable {j : Journal} {disk : ℕ → Outcome} {j' : Journal} {records : List Record}
  {tail : List UInt8}

theorem reopened_of_file (h : j'.file = j.file) : j'.reopened = j.reopened := by
  rw [reopened_eq, reopened_eq, h]

/-- The file has whole records to its end, and they make the index. -/
def InOrder (j : Journal) : Prop := scanFile j.file = .ok (j.index, j.file.length)

instance (j : Journal) : Decidable j.InOrder := by unfold InOrder; infer_instance

theorem Clean.inOrder (h : j.Clean records) : j.InOrder := by
  unfold InOrder
  rw [h.file, h.index]
  exact scanFile_encodeAll h.writable (h.file ▸ h.size)

/-- A store whose file is in order is opened as it is. -/
theorem InOrder.reopened_eq (h : j.InOrder) : j.reopened = j.messages := by
  rw [Journal.reopened_eq, show scanFile j.file = _ from h]
  dsimp only
  rw [take_length]
  rfl

/-- A file in order with whole records and other bytes behind it is read up to these bytes. -/
theorem scanFile_of_effect (h : j.Sound) (horder : j.InOrder)
    (heffect : Effect disk j j' records tail) :
    scanFile j'.file = scanTail (j.file ++ encodeAll records).length j'.index tail := by
  obtain ⟨hfit, -⟩ := replay_points h.points heffect.writable
  obtain ⟨-, hscan⟩ := scanFile_append horder (encodeAll records ++ tail)
  rw [drop_left] at hscan
  rw [heffect.file, hscan, scanTail_records hfit heffect.size, heffect.index, length_append]

/-- Its messages are those that the records make when the other bytes are not read. -/
theorem messages_of_effect (h : j.Sound) (heffect : Effect disk j j' records tail) :
    Entry.messages (j'.file.take (j.file ++ encodeAll records).length) j'.index = .ok j'.live := by
  obtain ⟨-, hpoints⟩ := replay_points h.points heffect.writable
  rw [heffect.file, ← append_assoc, take_left, heffect.index, heffect.live_eq]
  exact messages_of_points hpoints

/-- The beginning of a record is not read. -/
theorem readPiece_written_torn {record : Record} (hsized : record.Sized) (good n : ℕ) :
    readPiece good ((Outcome.torn n).written record.encode) = .done ∨
      readPiece good ((Outcome.torn n).written record.encode) = .recover := by
  rw [Outcome.written]
  by_cases hzero : min n (record.encode.length - 1) = 0
  · rw [hzero]
    exact .inl (readPiece_nil good)
  · exact .inr (readPiece_torn hsized (by omega) (by omega))

/-! ## Stores that survive -/

/-- The messages are there after the store is closed and opened again. -/
def Survives (j : Journal) : Prop := j.reopened = j.messages

/-- From a file in order nothing is lost. -/
theorem survives_of_inOrder (hdisk : ∀ n, disk n ≠ .unsynced) (h : j.Sound)
    (horder : j.InOrder) (heffect : Effect disk j j' records tail) : j'.Survives := by
  have hscan := scanFile_of_effect h horder heffect
  have hstops : ∀ good, readPiece good tail = .done ∨ readPiece good tail = .recover := by
    intro good
    rcases heffect.failed with rfl | ⟨record, n, hrecord, hwhole, rfl, -⟩
    · exact .inl (readPiece_nil good)
    · cases houtcome : disk n with
      | whole => exact absurd houtcome hwhole
      | unsynced => exact absurd houtcome (hdisk n)
      | torn k => exact readPiece_written_torn hrecord.sized good k
  rw [scanTail_stop (hstops _)] at hscan
  unfold Survives
  rw [(h.effect heffect).messages_eq, reopened_eq, hscan]
  exact messages_of_effect h heffect

/-! ## Bytes that are not read -/

/-- Behind the records that were read so far, the file with more bytes has none. -/
def Stops (j : Journal) (more : List UInt8) : Prop :=
  match scanFile j.file with
  | .error _ => True
  | .ok (_, good) =>
    readPiece good ((j.file ++ more).drop good) = .done ∨
      readPiece good ((j.file ++ more).drop good) = .recover

instance (j : Journal) (more : List UInt8) : Decidable (j.Stops more) := by
  unfold Stops
  split <;> infer_instance

/-- Then the store is opened as before. -/
theorem reopened_of_stops {more : List UInt8} (hfile : j'.file = j.file ++ more)
    (h : j.Stops more) : j'.reopened = j.reopened := by
  unfold Stops at h
  rw [reopened_eq, reopened_eq, hfile]
  cases hscan : scanFile j.file with
  | error status =>
    have happend := scanTail_append 0 [] j.file more
    rw [show scanTail 0 [] j.file = .error status from hscan] at happend
    rw [show scanFile (j.file ++ more) = _ from happend]
  | ok result =>
    obtain ⟨hgood, hmore⟩ := scanFile_append hscan more
    rw [hscan] at h
    rw [hmore, scanTail_stop h]
    dsimp only
    rw [take_append_of_le_length hgood]

/-- A record that is tried does no harm: it does not fit into the file, or it is not written and
what is left of it is not read. -/
def Harmless (disk : ℕ → Outcome) (j : Journal) (record : Record) : Prop :=
  j.file.length + record.encode.length ≤ maxFileSize →
    disk j.appends ≠ .whole ∧ j.Stops ((disk j.appends).written record.encode)

instance (disk : ℕ → Outcome) (j : Journal) (record : Record) :
    Decidable (Harmless disk j record) := by
  unfold Harmless
  infer_instance

/-- An append that fails leaves the index, and the file or a part of its record behind it. -/
theorem append_failed {record : Record} (h : (j.append disk record).1 ≠ .ok) :
    (j.append disk record).2.live = j.live ∧
      (j.file.length + record.encode.length > maxFileSize ∧ (j.append disk record).2.file = j.file ∨
        disk j.appends ≠ .whole ∧ j.file.length + record.encode.length ≤ maxFileSize ∧
          (j.append disk record).2.file = j.file ++ (disk j.appends).written record.encode) := by
  unfold append at h ⊢
  by_cases hroom : j.file.length + record.encode.length > maxFileSize
  · rw [if_pos hroom]
    exact ⟨rfl, .inl ⟨hroom, rfl⟩⟩
  · rw [if_neg hroom] at h ⊢
    by_cases hwhole : disk j.appends = .whole
    · rw [if_pos hwhole] at h
      exact absurd rfl h
    · rw [if_neg hwhole]
      exact ⟨rfl, .inr ⟨hwhole, not_lt.mp hroom, rfl⟩⟩

/-- The append of a harmless record fails and changes nothing. -/
theorem append_harmless {record : Record} (h : Harmless disk j record) :
    (j.append disk record).1 ≠ .ok ∧ (j.append disk record).2.live = j.live ∧
      (j.append disk record).2.reopened = j.reopened := by
  have hfailed : (j.append disk record).1 ≠ .ok := by
    unfold append
    dsimp only
    split_ifs with hroom hwhole
    · exact nofun
    · exact absurd hwhole (h (not_lt.mp hroom)).1
    · exact nofun
  obtain ⟨hlive, hfile⟩ := append_failed hfailed
  refine ⟨hfailed, hlive, ?_⟩
  rcases hfile with ⟨-, hfile⟩ | ⟨-, hroom, hfile⟩
  · exact reopened_of_file hfile
  · exact reopened_of_stops hfile (h hroom).2

/-- The record that an operation tries to write first. -/
def attempt (crypto : Crypto) (j : Journal) (operation : Operation) : Option Record :=
  (Store.plan crypto j.live operation).records.head?

/-- An operation whose first record is harmless changes nothing. -/
theorem perform_harmless {crypto : Crypto} {operation : Operation} (hsound : j.Sound)
    (hcompact : operation ≠ .compact)
    (h : ∀ record ∈ j.attempt crypto operation, Harmless disk j record) :
    (j.step disk crypto operation).live = j.live ∧
      (j.step disk crypto operation).reopened = j.reopened := by
  unfold step
  unfold attempt at h
  rw [perform_eq_run disk crypto hsound hcompact]
  generalize Store.plan crypto j.live operation = script at h ⊢
  cases script with
  | stop => exact ⟨rfl, rfl⟩
  | write record next =>
    obtain ⟨hfailed, hsame⟩ := append_harmless (h record rfl)
    rwa [Script.run_of_failed hfailed]

/-- An operation keeps what is in the store: it is a compaction, or the file is in order before it,
or the record that it tries first is harmless. -/
def Keeps (disk : ℕ → Outcome) (crypto : Crypto) (j : Journal) (operation : Operation) : Prop :=
  operation = .compact ∨ j.InOrder ∨ ∀ record ∈ j.attempt crypto operation, Harmless disk j record

/-- A store stays sound whatever its appends leave. -/
theorem Sound.step (disk : ℕ → Outcome) (crypto : Crypto) (h : j.Sound) (operation : Operation) :
    (j.step disk crypto operation).Sound := by
  by_cases hcompact : operation = .compact
  · subst hcompact
    rcases compact_effect disk h with ⟨-, heffect⟩ | ⟨-, hcompacted⟩
    · exact h.effect heffect
    · exact h.compacted hcompacted
  · obtain ⟨records, tail, heffect, -⟩ := perform_effect disk crypto h hcompact
    exact h.effect heffect

/-- An operation that keeps what is in the store leaves a store that survives. -/
theorem Survives.step (hdisk : ∀ n, disk n ≠ .unsynced) {crypto : Crypto} {operation : Operation}
    (hsound : j.Sound) (h : j.Survives) (hkeeps : Keeps disk crypto j operation) :
    (j.step disk crypto operation).Survives := by
  -- The messages are the same, and so are those that are opened.
  have hsame (hlive : (j.step disk crypto operation).live = j.live)
      (hreopened : (j.step disk crypto operation).reopened = j.reopened) :
      (j.step disk crypto operation).Survives := by
    unfold Survives at h ⊢
    rw [hreopened, h, hsound.messages_eq, (hsound.step disk crypto operation).messages_eq, hlive]
  by_cases hcompact : operation = .compact
  · subst hcompact
    rcases compact_effect disk hsound with ⟨-, heffect⟩ | ⟨-, hcompacted⟩
    · have hfile : (j.compact disk).2.file = j.file := by simpa [encodeAll] using heffect.file
      exact hsame (live_compact disk hsound) (reopened_of_file hfile)
    · exact (Clean.compacted hsound hcompacted).inOrder.reopened_eq
  · rcases hkeeps with hcompact' | horder | hharmless
    · exact absurd hcompact' hcompact
    · obtain ⟨records, tail, heffect, -⟩ := perform_effect disk crypto hsound hcompact
      exact survives_of_inOrder hdisk hsound horder heffect
    · obtain ⟨hlive, hreopened⟩ := perform_harmless hsound hcompact hharmless
      exact hsame hlive hreopened

/-- A store that is opened on whole records and whose appends may fail with any part of their
record written. Whatever they leave, the messages that are read through the index after an
operation are those before it with all of its records where it returned `LXMF_OK`, and else with
the first ones. Where every operation keeps what is in the store, they are there when it is closed
and opened again. -/
theorem survives_of_keeps {disk : ℕ → Outcome} (hdisk : ∀ n, disk n ≠ .unsynced) (crypto : Crypto)
    {start : Journal} {records : List Record} (h : start.Clean records)
    (operations : List Operation) :
    (∀ past operation rest, operations = past ++ operation :: rest →
      let j := final (step disk crypto) start past
      let r := j.perform disk crypto operation
      ∃ before after, j.messages = .ok before ∧ r.2.messages = .ok after ∧
        (operation = .compact → after = before) ∧ (operation ≠ .compact →
          (Store.plan crypto before operation).Ran .ok Record.apply r.1 before after)) ∧
      (Run.Each (step disk crypto) (Keeps disk crypto) start operations →
        ∀ past, past <+: operations → (final (step disk crypto) start past).reopened =
          (final (step disk crypto) start past).messages) := by
  have hsound (past : List Operation) : (final (step disk crypto) start past).Sound :=
    invariant (fun _ operation h _ => h.step disk crypto operation) h.sound (each_true past)
  refine ⟨fun past operation rest _ => ?_, ?_⟩
  · refine ⟨_, _, (hsound past).messages_eq, ((hsound past).step disk crypto operation).messages_eq, ?_⟩
    refine ⟨?_, perform_ran disk crypto (hsound past)⟩
    rintro rfl
    exact live_compact disk (hsound past)
  · rintro heach past ⟨rest, rfl⟩
    have hstep (j : Journal) (operation : Operation) (h : j.Sound ∧ j.Survives)
        (hkeeps : Keeps disk crypto j operation) : (j.step disk crypto operation).Sound ∧
          (j.step disk crypto operation).Survives :=
      ⟨h.1.step disk crypto operation, h.2.step hdisk h.1 hkeeps⟩
    exact (invariant hstep ⟨h.sound, h.inOrder.reopened_eq⟩ (each_append.mp heach).1).2

/-- The first appends end as a list says, and the others succeed. -/
def outcomes (list : List Outcome) : ℕ → Outcome := fun n => list.getD n .whole

/-- A put, one that fails, a removal of a message that is not there, a compaction and another put:
the first and the last message are there when the store is opened again. -/
theorem compacted_put_survives :
    let j := final (step (outcomes [.whole, .torn 20]) plainCrypto) empty
      [plainPut 0, plainPut 1, .remove (Octets.ofList 32 [9]), .compact, plainPut 2]
    j.reopened = j.messages ∧ j.messages = .ok [Store.plainMessage 0 0, Store.plainMessage 2 2] := by
  have hdisk (n : ℕ) : outcomes [.whole, .torn 20] n ≠ .unsynced := by
    rcases n with _ | _ | n
    · decide
    · decide
    · exact Outcome.noConfusion
  refine ⟨(survives_of_keeps hdisk plainCrypto clean_empty _).2 ?_ _ prefix_rfl, by decide +kernel⟩
  exact ⟨.inr (.inl (by decide)), .inr (.inl (by decide +kernel)), .inr (.inr (by decide +kernel)),
    .inl rfl, .inr (.inl (by decide +kernel)), trivial⟩

/-- A put fails and the next one returns `LXMF_OK`. Opened again, the store is empty; and where five
bytes were left of the first put, it is not opened. -/
theorem acknowledged_put_lost : (let disk := outcomes [.torn 20]
     ((final (step disk plainCrypto) empty (plainPuts 1)).perform disk plainCrypto
        (plainPut 1)).1 = .ok ∧
      (final (step disk plainCrypto) empty (plainPuts 2)).live = [Store.plainMessage 1 1] ∧
      (final (step disk plainCrypto) empty (plainPuts 2)).reopened = .ok []) ∧
    let disk := outcomes [.torn 5]
    ((final (step disk plainCrypto) empty (plainPuts 1)).perform disk plainCrypto
        (plainPut 1)).1 = .ok ∧
      (final (step disk plainCrypto) empty (plainPuts 2)).reopened = .error .format := by
  decide +kernel

end Journal

end Reticulum.Lxmf
