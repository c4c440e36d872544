import Reticulum.Base.Run
import Reticulum.Lxmf.Journal

/-!
# Reading the journal back

The live index of a store and what `scan` makes of its file. An entry of the index points at a
record of its message wherever the file is only appended to (`Entry.Points`), so the messages that
are read are those that the acknowledged records make (`Journal.Sound`). In a file of whole records
the scan repeats the changes of the index one by one (`scanTail_records`).

`replay_correct` puts this together for runs whose appends all succeed.
-/

namespace Reticulum.Lxmf

open List Bytes Octets

/-! ## Scanning -/

variable {good : ℕ} {bytes : List UInt8} {index : List Entry}

/-- A record that was found takes up the bytes before the rest. -/
theorem length_of_readPiece {type : ℕ} {payload rest : List UInt8}
    (h : readPiece good bytes = .record type payload rest) :
    bytes.length = headerSize + payload.length + rest.length := by
  unfold readPiece at h
  dsimp only at h
  split_ifs at h with _ hheader _ _ _ hshort _
  · obtain ⟨-, rfl, rfl⟩ := Piece.record.inj h
    rw [slice, length_take, length_drop, length_drop]
    omega

/-- The rounds of a scan do not count as long as there are more of them than bytes. -/
theorem scanFrom_congr {rounds rounds' : ℕ} (h : bytes.length < rounds)
    (h' : bytes.length < rounds') :
    scanFrom rounds good index bytes = scanFrom rounds' good index bytes := by
  induction rounds generalizing rounds' good index bytes with
  | zero => omega
  | succ rounds ih =>
    cases rounds' with
    | zero => omega
    | succ rounds' =>
      unfold scanFrom
      cases hpiece : readPiece good bytes with
      | done | recover | format => rfl
      | record type payload rest =>
        have hlength := length_of_readPiece hpiece
        have hsize : headerSize = 16 := rfl
        dsimp only
        cases decodeChange type payload with
        | none => rfl
        | some change =>
          dsimp only
          cases change.apply good index with
          | recover | bounds => rfl
          | index index => exact ih (by omega) (by omega)

/-- A scan that goes on with an index at an offset. -/
def scanTail (good : ℕ) (index : List Entry) (bytes : List UInt8) :
    Except Status (List Entry × ℕ) :=
  scanFrom (bytes.length + 1) good index bytes

/-- One round of a scan. -/
theorem scanTail_record {type : ℕ} {payload rest : List UInt8} {change : Change}
    (hpiece : readPiece good bytes = .record type payload rest)
    (hchange : decodeChange type payload = some change) :
    scanTail good index bytes = match change.apply good index with
      | .recover => .ok (index, good)
      | .bounds => .error .bounds
      | .index index => scanTail (good + headerSize + payload.length) index rest := by
  have hlength := length_of_readPiece hpiece
  have hsize : headerSize = 16 := rfl
  unfold scanTail
  rw [scanFrom, hpiece]
  dsimp only
  rw [hchange]
  dsimp only
  cases change.apply good index with
  | recover | bounds => rfl
  | index index => exact scanFrom_congr (by omega) (by omega)

/-- A scan that finds nothing more. -/
theorem scanTail_stop (h : readPiece good bytes = .done ∨ readPiece good bytes = .recover) :
    scanTail good index bytes = .ok (index, good) := by
  unfold scanTail
  rw [scanFrom]
  rcases h with h | h <;> rw [h]

theorem readPiece_nil (good : ℕ) : readPiece good [] = .done := rfl

/-- A record whose change the index can take. -/
def Record.FitsAt (index : List Entry) : Record → Prop
  | .put m => Entry.find index m.message_id = none ∧ index.length < maxMessages
  | .replace m => (Entry.find index m.message_id).isSome
  | _ => True

/-- A record that fits is applied. -/
theorem Record.apply_change {record : Record} (h : record.FitsAt index) (offset : ℕ) :
    record.change.apply offset index = .index (record.applyAt offset index) := by
  cases record with
  | put m =>
    obtain ⟨hnew, hroom⟩ := h
    have hnew : Entry.find index m.putHead.id = none := hnew
    simp only [Record.change, Change.apply, hnew, Bool.false_eq_true, if_false,
      if_neg (Nat.not_le.mpr hroom)]
    rfl
  | replace m =>
    obtain ⟨e, he⟩ := Option.isSome_iff_exists.mp h
    have he : Entry.find index m.putHead.id = some e := he
    simp only [Record.change, Change.apply, he]
    rfl
  | status id value | signature id value | remove id | delivery id value => rfl

/-- The index that records make, the first one at the offset. -/
def replay : ℕ → List Entry → List Record → List Entry
  | _, index, [] => index
  | offset, index, record :: records =>
    replay (offset + record.encode.length) (record.applyAt offset index) records

/-- The records fit one after the other. -/
def FitAt : ℕ → List Entry → List Record → Prop
  | _, _, [] => True
  | offset, index, record :: records =>
    record.Sized ∧ record.FitsAt index ∧
      FitAt (offset + record.encode.length) (record.applyAt offset index) records

/-- The bytes of records. -/
def encodeAll (records : List Record) : List UInt8 := records.flatMap Record.encode

@[simp]
theorem encodeAll_cons (record : Record) (records : List Record) :
    encodeAll (record :: records) = record.encode ++ encodeAll records := flatMap_cons

@[simp]
theorem encodeAll_append (xs ys : List Record) :
    encodeAll (xs ++ ys) = encodeAll xs ++ encodeAll ys := flatMap_append

/-- Whole records at the front of what is scanned are applied, and the scan goes on behind them. -/
theorem scanTail_records {records : List Record} (hfit : FitAt good index records)
    (hgood : good + (encodeAll records).length ≤ maxFileSize) (rest : List UInt8) :
    scanTail good index (encodeAll records ++ rest) =
      scanTail (good + (encodeAll records).length) (replay good index records) rest := by
  induction records generalizing good index with
  | nil => rfl
  | cons record records ih =>
    obtain ⟨hsized, hfits, hrest⟩ := hfit
    rw [encodeAll_cons, length_append] at hgood
    rw [encodeAll_cons, append_assoc,
      scanTail_record (readPiece_encode hsized (by omega) _) (decodeChange_record hsized),
      Record.apply_change hfits]
    dsimp only
    rw [Nat.add_assoc, ← length_frame, ← Record.encode, ih hrest (by omega), replay,
      length_append, Nat.add_assoc]

theorem replay_append (offset : ℕ) (index : List Entry) (xs ys : List Record) :
    replay offset index (xs ++ ys) =
      replay (offset + (encodeAll xs).length) (replay offset index xs) ys := by
  induction xs generalizing offset index with
  | nil => rfl
  | cons x xs ih =>
    rw [cons_append, replay, ih, replay, encodeAll_cons, length_append, Nat.add_assoc]

/-! ## What an entry points at -/

/-- What is read of the payload of a put, with anything behind it. -/
theorem put_body (m : StoreMessage) (rest : List UInt8) :
    let bytes := encodePut m ++ rest
    ofList 32 bytes = m.message_id ∧ ofList 16 (bytes.drop 32) = m.destination ∧
      ofList 16 (bytes.drop 48) = m.source ∧ ofList 8 (bytes.drop 64) = m.timestamp ∧
      bytes.drop put5Fixed = m.content ++ (m.packed ++ rest) := by
  have hdelivery := length_encodeDelivery m.delivery
  simp only [encodePut, put5Fixed, append_assoc]
  refine ⟨by simp, ?_, ?_, ?_, ?_⟩
  all_goals
    simp (disch := simp [hdelivery]) only [drop_append_right, length_eq,
      length_beEncode, hdelivery, Nat.reduceSub, drop_zero, ofList_append]

/-- The entry of a message, whose last put or replacement stands in the file where the entry
says. -/
def Entry.Points (file : List UInt8) (e : Entry) (m : StoreMessage) : Prop :=
  ∃ type m₀ before after, file = before ++ (frame type (encodePut m₀) ++ after) ∧
    before.length = e.offset ∧ e.id = m₀.message_id ∧ e.source = m₀.source ∧
    e.fixed = put5Fixed ∧ e.content_len = m₀.content.length ∧ e.packed_len = m₀.packed.length ∧
    m = { m₀ with status := e.status, signature_state := e.signature, delivery := e.delivery }

namespace Entry.Points

variable {file : List UInt8} {e : Entry} {m : StoreMessage}

variable (h : e.Points file m)
include h

/-- Bytes behind the file do not move what an entry points at. -/
theorem append (more : List UInt8) : e.Points (file ++ more) m := by
  obtain ⟨type, m₀, before, after, rfl, hrest⟩ := h
  exact ⟨type, m₀, before, after ++ more, by simp, hrest⟩

/-- The body of the record behind its header. -/
theorem drop_eq : ∃ m₀ after, file.drop (e.offset + headerSize) =
    encodePut m₀ ++ after ∧ e.fixed = put5Fixed ∧ e.content_len = m₀.content.length ∧
    e.packed_len = m₀.packed.length ∧
    m = { m₀ with status := e.status, signature_state := e.signature, delivery := e.delivery } := by
  obtain ⟨type, m₀, before, after, rfl, hbefore, -, -, hfixed, hcontent, hpacked, hm⟩ := h
  refine ⟨m₀, after, ?_, hfixed, hcontent, hpacked, hm⟩
  rw [drop_append_right (by omega),
    show e.offset + headerSize - before.length = headerSize by omega]
  have hmagic : recordMagic.length = 4 := rfl
  simp only [frame, append_assoc, headerSize]
  simp (disch := simp [hmagic]) only [drop_append_right, length_beEncode, hmagic,
    Nat.reduceSub, drop_zero]

/-- The message that an entry points at is read. -/
theorem read_eq : e.read file = .ok { m with packed := [] } := by
  obtain ⟨m₀, after, hdrop, hfixed, hcontent, hpacked, rfl⟩ := h.drop_eq
  obtain ⟨hid, hdestination, hsource, htimestamp, hbody⟩ := put_body m₀ after
  have hlength := congrArg List.length hdrop
  rw [length_drop, length_append, length_encodePut] at hlength
  have hpos : put5Fixed = 142 := rfl
  have hslice : slice file (e.offset + headerSize + e.fixed) e.content_len = m₀.content := by
    rw [slice, ← drop_drop, hdrop, hfixed, hbody, hcontent]
    exact take_left' rfl
  have hat (k : ℕ) : file.drop (e.offset + headerSize + k) = (encodePut m₀ ++ after).drop k := by
    rw [← drop_drop, hdrop]
  unfold Entry.read
  rw [if_neg (by omega), hslice, hat 32, hat 48, hat 64, hdrop, hid, hdestination, hsource,
    htimestamp]

/-- The packed bytes of the message that an entry points at are read, where it has some. -/
theorem message_eq : e.message file = .ok m := by
  unfold Entry.message
  rw [h.read_eq]
  obtain ⟨m₀, after, hdrop, hfixed, hcontent, hpacked, rfl⟩ := h.drop_eq
  obtain ⟨-, -, -, -, hbody⟩ := put_body m₀ after
  have hlength := congrArg List.length hdrop
  rw [length_drop, length_append, length_encodePut] at hlength
  split_ifs with hnone
  · rw [hpacked, length_eq_zero_iff] at hnone
    rw [hnone]
  · have hslice : slice file (e.offset + headerSize + e.fixed + e.content_len) e.packed_len =
        m₀.packed := by
      rw [slice, ← drop_drop, ← drop_drop, hdrop, hfixed, hbody, hcontent, hpacked, drop_left' rfl]
      exact take_left' rfl
    unfold Entry.readPacked
    rw [if_neg hnone, if_neg (by omega), hslice]
    rfl

/-- What the index knows of a message is what the message says. -/
theorem id_eq : e.id = m.message_id := by
  obtain ⟨_, m₀, _, _, _, _, hid, -, -, -, -, rfl⟩ := h
  exact hid

theorem source_eq : e.source = m.source := by
  obtain ⟨_, m₀, _, _, _, _, -, hsource, -, -, -, rfl⟩ := h
  exact hsource

end Entry.Points

/-- The messages that entries point at are read. -/
theorem messages_of_points {file : List UInt8} {live : List StoreMessage}
    (h : List.Forall₂ (Entry.Points file) index live) : Entry.messages file index = .ok live := by
  induction h with
  | nil => rfl
  | cons hpoints _ ih =>
    rw [Entry.messages, hpoints.message_eq, ih]
    rfl

/-! ## The index and the messages -/

section Related

variable {file : List UInt8} {index : List Entry} {live : Index}

section

variable (h : List.Forall₂ (Entry.Points file) index live)
include h

/-- The entry of an id is that of the message of the id. -/
theorem find_points (id : Octets 32) : Entry.find index id = none ∧ live.find id = none ∨
      ∃ e m, Entry.find index id = some e ∧ live.find id = some m ∧ e.Points file m := by
  induction h with
  | nil => exact .inl ⟨rfl, rfl⟩
  | @cons e m index live hpoints _ ih =>
    unfold Entry.find Index.find at ih ⊢
    rw [List.find?_cons, List.find?_cons, hpoints.id_eq]
    by_cases hid : m.message_id = id
    · rw [decide_eq_true hid]
      exact .inr ⟨e, m, rfl, rfl, hpoints⟩
    · rw [decide_eq_false hid]
      exact ih

/-- Changes of the entry and of the message of an id. -/
theorem modify_points {file' : List UInt8}
    {id : Octets 32} {f : Entry → Entry} {g : StoreMessage → StoreMessage}
    (hkeep : ∀ e m, Entry.Points file e m → Entry.Points file' e m)
    (hchange : ∀ m ∈ (live : List StoreMessage), ∀ e, Entry.Points file e m →
      m.message_id = id → (f e).Points file' (g m)) :
    List.Forall₂ (Entry.Points file') (Entry.modify index id f) (live.modify id g) := by
  induction h with
  | nil => exact .nil
  | @cons e m index live hpoints _ ih =>
    rw [forall_mem_cons] at hchange
    refine .cons ?_ (ih hchange.2)
    dsimp only
    rw [hpoints.id_eq]
    split
    · exact hchange.1 e hpoints (by assumption)
    · exact hkeep e m hpoints

/-- Dropping the entry and the message of an id. -/
theorem drop_points (id : Octets 32) :
    List.Forall₂ (Entry.Points file) (Entry.drop index id) (live.drop id) := by
  induction h with
  | nil => exact .nil
  | @cons e m index live hpoints _ ih =>
    unfold Entry.drop Index.drop at ih ⊢
    rw [filter_cons, filter_cons, hpoints.id_eq]
    split
    · exact .cons hpoints ih
    · exact ih

end

end Related

/-- A record that a store with the messages can write. -/
structure Record.Writable (live : Index) (record : Record) : Prop where
  sized : record.Sized
  fits : record.Fits live
  /-- A replacement is of a message of the same source. -/
  source : ∀ m, record = .replace m → ∀ x ∈ (live : List StoreMessage),
    x.message_id = m.message_id → x.source = m.source

/-- A record at the end of the file changes the index as it changes the messages. -/
theorem applyAt_points {file : List UInt8} {live : Index}
    (h : List.Forall₂ (Entry.Points file) index live) {record : Record}
    (hrecord : record.Writable live) :
    List.Forall₂ (Entry.Points (file ++ record.encode)) (record.applyAt file.length index)
      (record.apply live) := by
  have hkeep : ∀ e m, Entry.Points file e m → e.Points (file ++ record.encode) m :=
    fun e m hpoints => hpoints.append _
  cases record with
  | put m => exact rel_append (h.imp hkeep) (.cons
      ⟨10, m, file, [], by rw [append_nil]; rfl, rfl, rfl, rfl, rfl, rfl, rfl, rfl⟩ .nil)
  | replace m =>
    refine modify_points h hkeep fun x hx e hpoints hid => ?_
    refine ⟨11, m, file, [], by rw [append_nil]; rfl, rfl, hpoints.id_eq.trans hid, ?_, rfl,
      rfl, rfl, rfl⟩
    exact hpoints.source_eq.trans (hrecord.source m rfl x hx hid)
  | remove id => exact drop_points (h.imp hkeep) id
  | status | signature | delivery =>
    -- The entry has these fields itself, over those of the message that it points at.
    refine modify_points h hkeep fun m _ e hpoints _ => ?_
    obtain ⟨type, m₀, before, after, hfile, hbefore, hid, hsource, hfixed, hcontent, hpacked, rfl⟩ :=
      hkeep e m hpoints
    exact ⟨type, m₀, before, after, hfile, hbefore, hid, hsource, hfixed, hcontent, hpacked, rfl⟩

end Reticulum.Lxmf
