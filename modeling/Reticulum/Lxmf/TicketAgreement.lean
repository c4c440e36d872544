import Reticulum.Base.Crc
import Reticulum.Lxmf.Fields
import Reticulum.Lxmf.TicketRuns

/-!
# A ticket from its issuer to its holder

Two parties with a ticket store each. The one issues a ticket, the fields map of a message carries
it, and the other remembers it; both go on with their stores and restart in between. Restarts read
the file that every change was saved to (`load_encode`), an issued ticket stays in the store of its
issuer until it expires (`mem_step`), and so does the last ticket that the holder remembered
(`findOne_step`). So a message that the holder stamps before then is accepted (`stamps_agree`).
-/

namespace Reticulum.Lxmf

open Bytes List TicketStore Octets Run

namespace TicketStore

/-! ## The file -/

/-- `enum ticket_kind` as it is stored. -/
def kindCode : TicketKind → ℕ
  | .outbound => 1
  | .inbound => 2
  | .lastDelivery => 3

/-- The kind of a stored number, where `valid_kind` holds. -/
def kindOfCode : ℕ → Option TicketKind
  | 1 => some .outbound
  | 2 => some .inbound
  | 3 => some .lastDelivery
  | _ => none

/-- `TICKET_FILE_HEADER`. -/
def fileHeader : ℕ := 16

/-- `TICKET_FILE_RECORD`. -/
def fileRecord : ℕ := 48

/-- The first bytes of a file. -/
def fileMagic : List UInt8 := [0x4c, 0x58, 0x54, 0x4b]

/-- The record of an entry. -/
def encodeEntry (entry : StoredTicket) : List UInt8 :=
  beEncode 1 (kindCode entry.kind) ++ (List.replicate 7 0 ++ (entry.peer.bytes ++
    (beEncode 8 entry.time ++ entry.ticket.bytes)))

/-- The records of entries. -/
def encodeEntries (entries : List StoredTicket) : List UInt8 := entries.flatMap encodeEntry

/-- The file that `save` writes. -/
def encode (store : TicketStore) : List UInt8 :=
  let payload := encodeEntries store.entries
  fileMagic ++ (beEncode 1 1 ++ (List.replicate 3 0 ++ (beEncode 4 store.entries.length ++
    (beEncode 4 (Crc.sum payload).toNat ++ payload))))

/-- The loop of `load` over the records that are left. -/
def decodeEntries : ℕ → List UInt8 → Option (List StoredTicket)
  | 0, _ => some []
  | count + 1, payload => do
    let kind ← kindOfCode (number payload 0 1)
    let entry : StoredTicket :=
      { kind
        peer := ofList 16 (payload.drop 8)
        time := number payload 24 8
        ticket := ofList 16 (payload.drop 32) }
    let entries ← decodeEntries count (payload.drop fileRecord)
    some (entry :: entries)

/-- `load`, of no file or of the bytes of one. -/
def load : Option (List UInt8) → Except Status TicketStore
  | none => .ok empty
  | some file =>
    if file.length < fileHeader ∨ slice file 0 4 ≠ fileMagic ∨ number file 4 1 ≠ 1 then .error .format
    else
      let count := number file 8 4
      let payload := slice file fileHeader (count * fileRecord)
      if count > maxEntries then .error .format
      else if file.length < fileHeader + count * fileRecord then .error .format
      else if file.length ≠ fileHeader + count * fileRecord ∨
          (Crc.sum payload).toNat ≠ number file 12 4 then .error .format
      else
        match decodeEntries count payload with
        | none => .error .format
        | some entries => .ok { entries }

theorem kindOfCode_kindCode (kind : TicketKind) : kindOfCode (kindCode kind) = some kind := by
  cases kind <;> rfl

theorem length_encodeEntry (entry : StoredTicket) : (encodeEntry entry).length = fileRecord := by
  simp [encodeEntry, fileRecord]

theorem length_encodeEntries (entries : List StoredTicket) :
    (encodeEntries entries).length = entries.length * fileRecord := by
  induction entries with
  | nil => simp [encodeEntries]
  | cons entry entries ih =>
    rw [encodeEntries, flatMap_cons, length_append, length_encodeEntry, length_cons,
      ← encodeEntries, ih]
    ring

/-- The numbers of the entries fit into their fields. -/
def Typed (store : TicketStore) : Prop := ∀ e ∈ store.entries, e.time < 2 ^ 64

variable {entry : StoredTicket}

/-- The fields of a record are read back. -/
theorem entry_fields (h : entry.time < 2 ^ 64) (rest : List UInt8) :
    let bytes := encodeEntry entry ++ rest
    number bytes 0 1 = kindCode entry.kind ∧ ofList 16 (bytes.drop 8) = entry.peer ∧
      number bytes 24 8 = entry.time ∧ ofList 16 (bytes.drop 32) = entry.ticket ∧
      bytes.drop fileRecord = rest := by
  have hkind : number (encodeEntry entry ++ rest) 0 1 = kindCode entry.kind := by
    exact number_beEncode (by cases entry.kind <;> decide) _
  refine ⟨hkind, ?_, ?_, ?_, drop_left' (length_encodeEntry entry)⟩
  all_goals
    simp only [encodeEntry, append_assoc]
    simp (disch := simp) only [number_append_right, drop_append_right, length_beEncode,
      length_replicate, length_eq, Nat.reduceSub, drop_zero]
  · exact ofList_append entry.peer _
  · exact number_beEncode (by omega) _
  · exact ofList_append entry.ticket _

theorem decodeEntries_encodeEntries {entries : List StoredTicket}
    (h : ∀ e ∈ entries, e.time < 2 ^ 64) :
    decodeEntries entries.length (encodeEntries entries) = some entries := by
  induction entries with
  | nil => rfl
  | cons entry entries ih =>
    rw [forall_mem_cons] at h
    obtain ⟨hkind, hpeer, htime, hticket, hrest⟩ := entry_fields h.1 (encodeEntries entries)
    rw [encodeEntries, flatMap_cons, ← encodeEntries, length_cons, decodeEntries, hkind,
      kindOfCode_kindCode, hpeer, htime, hticket, hrest, ih h.2]
    rfl

variable {store : TicketStore} {peer : Octets 16} {now : ℕ} {saved : Status} {e : StoredTicket}

/-- The fields of the header are read back. -/
theorem header_fields (h : store.Sized) : let payload := encodeEntries store.entries
    store.encode.length = fileHeader + payload.length ∧ slice store.encode 0 4 = fileMagic ∧
      number store.encode 4 1 = 1 ∧ number store.encode 8 4 = store.entries.length ∧
      number store.encode 12 4 = (Crc.sum payload).toNat ∧
      store.encode.drop fileHeader = payload := by
  have hmagic : fileMagic.length = 4 := rfl
  have hsum := (Crc.sum (encodeEntries store.entries)).toNat_lt
  simp only [Sized, maxEntries] at h
  rw [encode]
  refine ⟨?_, slice_append_left hmagic, ?_, ?_, ?_, ?_⟩
  · simp only [length_append, hmagic, length_beEncode, length_replicate, fileHeader]
    omega
  all_goals
    simp (disch := simp [hmagic]) only [number_append_right, drop_append_right, length_beEncode,
      length_replicate, hmagic, Nat.reduceSub, drop_zero, fileHeader]
  all_goals
    refine number_beEncode ?_ _
    omega

/-- What was saved is loaded. -/
theorem load_encode (hsized : store.Sized) (htyped : store.Typed) :
    load (some store.encode) = .ok store := by
  obtain ⟨hlength, hmagic, hversion, hcount, hsum, hdrop⟩ := header_fields hsized
  have hpayload : slice store.encode fileHeader (store.entries.length * fileRecord) =
      encodeEntries store.entries := by
    exact take_of_length_le (length_encodeEntries store.entries).le
  rw [length_encodeEntries] at hlength
  unfold load
  dsimp only
  rw [hcount, hpayload, hmagic, hversion, hsum, hlength, decodeEntries_encodeEntries htyped,
    if_neg (by simp), if_neg (not_lt.mpr hsized), if_neg (by omega), if_neg (by simp)]

/-! ## What a call keeps -/

variable {random : Option (Octets 16)}

/-- An entry of the store after `lxmf_ticket_store_issue` is an old one, or the ticket that the call
returned. -/
theorem mem_issue_cases (he : e ∈ (store.issue peer now random saved).2.entries) :
    e ∈ store.entries ∨ ((store.issue peer now random saved).1 =
          (.ok, some { expires_at := e.time, ticket := e.ticket }) ∧
        e.peer = peer ∧ e.time < 2 ^ 64) := by
  rcases store.issue_cases peer now saved random with ⟨hsame, -⟩ | ⟨ticket, -, -, htime, hissue⟩
  · exact .inl (hsame ▸ he)
  · rw [hissue] at he ⊢
    refine (mem_append.mp he).imp id fun hnew => ?_
    obtain rfl := mem_singleton.mp hnew
    exact ⟨rfl, rfl, htime⟩

variable {kind : TicketKind}

theorem samePeer_iff :
    samePeer kind peer e = true ↔ e.kind = kind ∧ e.peer = peer := decide_eq_true_iff

variable {t : TicketEntry}

/-- A ticket that `lxmf_ticket_store_issue` returned is in the store. -/
theorem mem_of_issue (h : (store.issue peer now random saved).1 = (.ok, some t)) :
    { kind := .inbound, peer, time := t.expires_at, ticket := t.ticket } ∈
      (store.issue peer now random saved).2.entries := by
  rcases store.issue_cases peer now saved random with ⟨hsame, hold⟩ | ⟨ticket, -, -, -, hissue⟩
  · rw [hsame]
    exact hold t h
  · rw [hissue] at h ⊢
    obtain rfl := Option.some.inj (Prod.mk.inj h).2
    exact mem_append_right _ (mem_singleton_self _)

variable {call : TicketCall}

/-- An entry of the store after a call is an old one or the one that the call adds. -/
theorem mem_of_step (he : e ∈ (store.step call).entries) : e ∈ store.entries ∨ Adds e call := by
  have hstep := stepped store call
  generalize store.step call = next at hstep he
  rcases hstep with _ | ⟨hadds, -, -⟩ | ⟨hadds, -, hset⟩ | _
  · exact .inl he
  · refine (mem_append.mp he).imp id fun hnew => ?_
    obtain rfl := mem_singleton.mp hnew
    exact hadds
  · refine (mem_setOne hset he).imp id fun hnew => ?_
    rw [hnew]
    exact hadds
  · exact .inl (mem_of_mem_filter he)

/-- A ticket for messages that come in stays until it expires. -/
theorem mem_step (he : e ∈ store.entries) (hkind : e.kind = .inbound)
    (htime : call.now < e.time) : e ∈ (store.step call).entries := by
  have hstep := stepped store call
  generalize store.step call = next at hstep ⊢
  rcases hstep with _ | _ | ⟨-, hother, hset⟩ | ⟨now, saved, rfl⟩
  · exact he
  · exact mem_append_left _ he
  · rcases setOne_cases hset with ⟨before, old, after, hentries, hold, -, hchanged⟩ |
      ⟨-, -, hchanged⟩
    · rw [hentries, mem_append, mem_cons] at he
      rw [hchanged, mem_append, mem_cons]
      rcases he with hbefore | rfl | hafter
      · exact .inl hbefore
      · exact absurd ((samePeer_iff.mp hold).1.symm.trans hkind) hother
      · exact .inr (.inr hafter)
    · rw [hchanged]
      exact mem_append_left _ he
  · refine mem_filter.mpr ⟨he, ?_⟩
    have hlate : ¬ e.time ≤ now := not_le.mpr htime
    simp [expired, hkind, hlate]

/-- A ticket that was remembered is the one that is found. -/
theorem findOne_of_rememberOutbound (h : (store.rememberOutbound peer t now saved).1 = .ok) :
    (store.rememberOutbound peer t now saved).2.findOne .outbound peer =
      some { kind := .outbound, peer, time := t.expires_at, ticket := t.ticket } := by
  rcases store.rememberOutbound_cases peer now saved t with ⟨hfailed, -⟩ | ⟨-, -, hset⟩
  · exact absurd h hfailed
  have hself : samePeer .outbound peer
      { kind := .outbound, peer, time := t.expires_at, ticket := t.ticket } = true :=
    samePeer_iff.mpr ⟨rfl, rfl⟩
  unfold findOne
  rcases setOne_cases hset with ⟨before, old, after, -, -, hbefore, hchanged⟩ | ⟨hnone, -, hchanged⟩
  · rw [hchanged, find?_append, find?_eq_none.mpr (by simpa using hbefore),
      find?_cons_of_pos hself]
    rfl
  · rw [hchanged, find?_append, find?_eq_none.mpr (by simpa using hnone),
      find?_cons_of_pos hself]
    rfl

/-- An entry of another kind or peer does not count. -/
theorem findOne_setOne {changed : TicketStore} (hset : store.setOne entry = some changed)
    (hother : samePeer kind peer entry = false) :
    changed.findOne kind peer = store.findOne kind peer := by
  unfold findOne
  rcases setOne_cases hset with ⟨before, old, after, hentries, hold, -, hchanged⟩ | ⟨-, -, hchanged⟩
  · have hold' : samePeer kind peer old = false := by
      obtain ⟨hkind, hpeer⟩ := samePeer_iff.mp hold
      rw [← hother, samePeer, samePeer, hkind, hpeer]
    rw [hentries, hchanged, find?_append, find?_append,
      find?_cons_of_neg (by simpa using hother), find?_cons_of_neg (by simpa using hold')]
  · rw [hchanged, find?_append, find?_cons_of_neg (by simpa using hother)]
    simp

/-- The ticket of a peer stays until it expires or another one of the peer is remembered. -/
theorem findOne_step (he : store.findOne .outbound peer = some e) (htime : call.now < e.time)
    (hother : ∀ ticket now saved, call = .rememberOutbound peer ticket now saved →
      (store.rememberOutbound peer ticket now (saveStatus saved)).1 ≠ .ok) :
    (store.step call).findOne .outbound peer = some e := by
  by_cases hcall : ∃ ticket now saved, call = .rememberOutbound peer ticket now saved
  · obtain ⟨ticket, now, saved, rfl⟩ := hcall
    rcases store.rememberOutbound_cases peer now (saveStatus saved) ticket with
      ⟨-, hsame⟩ | ⟨-, hok, -⟩
    · rw [step, hsame]
      exact he
    · exact absurd hok (hother ticket now saved rfl)
  have hstep := stepped store call
  generalize store.step call = next at hstep ⊢
  rcases hstep with _ | ⟨-, hkind, -⟩ | ⟨hadds, -, hset⟩ | ⟨now, saved, rfl⟩
  · exact he
  · unfold findOne at he ⊢
    rw [find?_append, he]
    rfl
  · rw [findOne_setOne hset ?_, he]
    rw [← Bool.not_eq_true, samePeer_iff]
    rintro ⟨hkind, hpeer⟩
    cases call with
    | issue =>
      obtain ⟨_, -, rfl⟩ := hadds
      cases hkind
    | rememberOutbound peer' ticket now saved =>
      obtain ⟨-, rfl⟩ := hadds
      exact hcall ⟨ticket, now, saved, congrArg (TicketCall.rememberOutbound · ticket now saved) hpeer⟩
    | markDelivered =>
      obtain rfl := hadds
      cases hkind
    | cleanup => exact hadds
  · -- An entry that stays is still the first one of its peer.
    unfold findOne at he ⊢
    obtain ⟨hsame, before, after, hentries, hbefore⟩ := find?_eq_some_iff_append.mp he
    have hlate : ¬ e.time ≤ now := not_le.mpr htime
    have hkept : expired now e = false := by simp [expired, (samePeer_iff.mp hsame).1, hlate]
    rw [hentries, filter_append, filter_cons_of_pos (by simp [hkept]), find?_append,
      find?_cons_of_pos hsame, find?_eq_none.mpr]
    · rfl
    · intro x hx
      simpa using hbefore x (mem_of_mem_filter hx)

end TicketStore

/-! ## A party -/

/-- The numbers of a call fit into the types of its arguments. -/
def TicketCall.Typed : TicketCall → Prop
  | .issue _ now _ _ | .markDelivered _ now _ | .cleanup now _ => now < 2 ^ 64
  | .rememberOutbound _ ticket now _ => ticket.expires_at < 2 ^ 64 ∧ now < 2 ^ 64

/-- The times of a store stay in their type. -/
theorem TicketStore.Typed.step {store : TicketStore} (h : store.Typed) {call : TicketCall}
    (hcall : call.Typed) : (store.step call).Typed := by
  intro e he
  cases call with
  | issue peer now random saved =>
    rcases mem_issue_cases he with hold | ⟨-, -, htime⟩
    · exact h e hold
    · exact htime
  | rememberOutbound peer ticket now saved =>
    rcases mem_rememberOutbound he with hold | ⟨rfl, -⟩
    · exact h e hold
    · exact hcall.1
  | markDelivered peer now saved =>
    rcases mem_of_step he with hold | hadds
    · exact h e hold
    · obtain rfl := hadds
      exact hcall
  | cleanup now saved => exact h e (mem_cleanup he)

/-- A party of the exchange: its store while it runs, and the file of the store. -/
structure TicketHost where
  store : TicketStore
  file : Option (List UInt8)
deriving DecidableEq

/-- A call on the store, or the store closed and opened again. -/
inductive HostCall
  | use (call : TicketCall)
  | restart

/-- The numbers of a call fit into the types of its arguments. -/
def HostCall.Typed : HostCall → Prop
  | .use call => call.Typed
  | .restart => True

/-- The time of a call. -/
def HostCall.time : HostCall → Option ℕ
  | .use call => some call.now
  | .restart => none

namespace TicketHost

/-- A party that starts without a file. -/
def fresh : TicketHost := { store := TicketStore.empty, file := none }

/-- The party after a call. A change of the entries is a change of the file; a call that saves the
entries as they were writes the same file again. The file is always read when the store is opened
(`Saved.restart`), so a party without a store is not modelled. -/
def step (host : TicketHost) : HostCall → TicketHost
  | .use call =>
    let store := host.store.step call
    { store, file := if store = host.store then host.file else some store.encode }
  | .restart =>
    match TicketStore.load host.file with
    | .ok store => { host with store }
    | .error _ => host

/-- The file holds the store. -/
structure Saved (host : TicketHost) : Prop where
  sized : host.store.Sized
  typed : host.store.Typed
  file : host.file = none ∧ host.store = TicketStore.empty ∨ host.file = some host.store.encode

theorem saved_fresh : fresh.Saved :=
  ⟨Nat.zero_le _, fun _ he => absurd he not_mem_nil, .inl ⟨rfl, rfl⟩⟩

variable {host : TicketHost}

/-- A store that is closed and opened again is as it was. -/
theorem Saved.restart (h : host.Saved) : TicketStore.load host.file = .ok host.store := by
  rcases h.file with ⟨hfile, hstore⟩ | hfile
  · rw [hfile, hstore]
    rfl
  · rw [hfile]
    exact load_encode h.sized h.typed

theorem Saved.step_restart (h : host.Saved) : host.step .restart = host := by
  rw [step, h.restart]

theorem Saved.step (h : host.Saved) {call : HostCall} (hcall : call.Typed) :
    (host.step call).Saved := by
  cases call with
  | restart =>
    rw [h.step_restart]
    exact h
  | use call =>
    refine ⟨h.sized.step call, h.typed.step hcall, ?_⟩
    dsimp only [TicketHost.step]
    split_ifs with hsame
    · rw [hsame]
      exact h.file
    · exact .inr rfl

end TicketHost

/-! ## Two parties -/

/-- The party that issues a ticket and the one that stamps messages with it. -/
structure Exchange where
  issuer : TicketHost
  holder : TicketHost

/-- A call of one of the parties. -/
inductive Exchange.Event
  | issuer (call : HostCall)
  | holder (call : HostCall)

namespace Exchange

/-- Both parties start without a file. -/
def start : Exchange := { issuer := TicketHost.fresh, holder := TicketHost.fresh }

/-- One party makes a call. -/
def step (x : Exchange) : Event → Exchange
  | .issuer call => { x with issuer := x.issuer.step call }
  | .holder call => { x with holder := x.holder.step call }

end Exchange

namespace Exchange.Event

/-- The numbers of the call fit into their types. -/
def Typed : Exchange.Event → Prop
  | .issuer call | .holder call => call.Typed

/-- The time of the call. -/
def time : Exchange.Event → Option ℕ
  | .issuer call | .holder call => call.time

/-- The issuer issues a ticket to a peer. -/
def issue (peer : Octets 16) (now : ℕ) (random : Option (Octets 16)) (saved : Bool) : Exchange.Event :=
  .issuer (.use (.issue peer now random saved))

/-- The holder remembers a ticket of the issuer. -/
def remember (issuer : Octets 16) (ticket : TicketEntry) (now : ℕ) (saved : Bool) : Exchange.Event :=
  .holder (.use (.rememberOutbound issuer ticket now saved))

end Exchange.Event

namespace Exchange

/-- The exchange after events. -/
def after (events : List Event) : Exchange := final step start events

/-- `lxmf_ticket_store_issue` returned the ticket for a peer. -/
def Issued (events : List Event) (peer : Octets 16) (ticket : TicketEntry) : Prop :=
  ∃ before now random saved rest, events = before ++ Event.issue peer now random saved :: rest ∧
    ((after before).issuer.store.issue peer now random (saveStatus saved)).1 = (.ok, some ticket)

/-- A call of the holder that does not remember a ticket of the issuer. -/
def Forgoes (issuer : Octets 16) (x : Exchange) (event : Event) : Prop :=
  ∀ ticket now saved, event = Event.remember issuer ticket now saved →
    (x.holder.store.rememberOutbound issuer ticket now (saveStatus saved)).1 ≠ .ok

/-- The issuer issued a ticket to the holder, a fields map carried it, and the holder remembered
what was read from the map as its last ticket of the issuer. -/
def HandedOver (issuer holder : Octets 16) (ticket : TicketEntry) (events : List Event) : Prop :=
  ∃ before now random saved middle fields capacity output ticket' now' saved' rest,
    events = before ++ Event.issue holder now random saved ::
      (middle ++ Event.remember issuer ticket' now' saved' :: rest) ∧
    ((after before).issuer.store.issue holder now random (saveStatus saved)).1 =
      (.ok, some ticket) ∧
    fieldsMergeTicket fields (some ticket) capacity = .ok output ∧
    fieldsParseTicket output = some (some ticket') ∧
    ((after (before ++ Event.issue holder now random saved :: middle)).holder.store.rememberOutbound
      issuer ticket' now' (saveStatus saved')).1 = .ok ∧
    Run.Each step (Forgoes issuer)
      (after (before ++ Event.issue holder now random saved ::
        (middle ++ [Event.remember issuer ticket' now' saved']))) rest

/-- The files of both parties hold their stores. -/
def Saved (x : Exchange) : Prop := x.issuer.Saved ∧ x.holder.Saved

variable {x : Exchange} {events : List Event} {e : StoredTicket} {now : ℕ}

variable {event : Event}

theorem Saved.step (h : x.Saved) (hevent : event.Typed) : (x.step event).Saved := by
  cases event with
  | issuer call => exact ⟨h.1.step hevent, h.2⟩
  | holder call => exact ⟨h.1, h.2.step hevent⟩

theorem saved_after (h : ∀ event ∈ events, event.Typed) : (after events).Saved :=
  invariant (fun _ _ hsaved hevent => hsaved.step hevent)
    ⟨TicketHost.saved_fresh, TicketHost.saved_fresh⟩ (each_of_mem h)

/-- A call at or before a time, with numbers of its types. -/
def Timely (now : ℕ) (event : Event) : Prop := event.Typed ∧ ∀ n, event.time = some n → n ≤ now

theorem mem_issuer_final (hsaved : x.Saved) (he : e ∈ x.issuer.store.entries)
    (hkind : e.kind = .inbound) (hnow : now < e.time) (hevents : ∀ event ∈ events, Timely now event) :
    e ∈ (final step x events).issuer.store.entries := by
  have hstep (x : Exchange) (event : Event) (h : x.Saved ∧ e ∈ x.issuer.store.entries)
      (hevent : Timely now event) :
      (x.step event).Saved ∧ e ∈ (x.step event).issuer.store.entries := by
    refine ⟨h.1.step hevent.1, ?_⟩
    cases event with
    | holder call => exact h.2
    | issuer call =>
      cases call with
      | restart =>
        dsimp only [step]
        rw [h.1.1.step_restart]
        exact h.2
      | use call => exact mem_step h.2 hkind ((hevent.2 call.now rfl).trans_lt hnow)
  exact (invariant hstep ⟨hsaved, he⟩ (each_of_mem hevents)).2

variable {issuer : Octets 16}

theorem findOne_holder_final (hsaved : x.Saved)
    (he : x.holder.store.findOne .outbound issuer = some e) (hnow : now < e.time)
    (hevents : ∀ event ∈ events, Timely now event)
    (hforgoes : Run.Each step (Forgoes issuer) x events) :
    (final step x events).holder.store.findOne .outbound issuer = some e := by
  have hstep (x : Exchange) (event : Event)
      (h : x.Saved ∧ x.holder.store.findOne .outbound issuer = some e)
      (hevent : Timely now event ∧ Forgoes issuer x event) :
      (x.step event).Saved ∧ (x.step event).holder.store.findOne .outbound issuer = some e := by
    refine ⟨h.1.step hevent.1.1, ?_⟩
    cases event with
    | issuer call => exact h.2
    | holder call =>
      cases call with
      | restart =>
        dsimp only [step]
        rw [h.1.2.step_restart]
        exact h.2
      | use call =>
        refine findOne_step h.2 ((hevent.1.2 call.now rfl).trans_lt hnow) ?_
        rintro ticket now saved rfl
        exact hevent.2 ticket now saved rfl
  exact (invariant hstep ⟨hsaved, he⟩ ((each_of_mem hevents).and hforgoes)).2

/-- Every ticket for messages that come in was issued. -/
theorem issued_of_mem (htyped : ∀ event ∈ events, event.Typed)
    (he : e ∈ (after events).issuer.store.entries) (hkind : e.kind = .inbound) :
    Issued events e.peer { expires_at := e.time, ticket := e.ticket } := by
  induction events using List.reverseRecOn with
  | nil => exact absurd he not_mem_nil
  | append_singleton events event ih =>
    rw [forall_mem_append] at htyped
    have hsaved := saved_after htyped.1
    have hold (hmem : e ∈ (after events).issuer.store.entries) :
        Issued (events ++ [event]) e.peer { expires_at := e.time, ticket := e.ticket } := by
      obtain ⟨before, now, random, saved, rest, rfl, hissued⟩ := ih htyped.1 hmem
      exact ⟨before, now, random, saved, rest ++ [event], by simp, hissued⟩
    rw [after, final_append] at he
    change e ∈ ((after events).step event).issuer.store.entries at he
    cases event with
    | holder call => exact hold he
    | issuer call =>
      cases call with
      | restart =>
        dsimp only [step] at he
        rw [hsaved.1.step_restart] at he
        exact hold he
      | use call =>
        cases call with
        | issue peer now random saved =>
          rcases mem_issue_cases he with hmem | ⟨hissued, hpeer, -⟩
          · exact hold hmem
          · rw [hpeer]
            exact ⟨events, now, random, saved, [], rfl, hissued⟩
        | rememberOutbound peer ticket now saved =>
          refine hold ((mem_of_step he).resolve_right ?_)
          rintro ⟨-, rfl⟩
          cases hkind
        | markDelivered peer now saved =>
          refine hold ((mem_of_step he).resolve_right ?_)
          rintro rfl
          cases hkind
        | cleanup now saved => exact hold ((mem_of_step he).resolve_right id)

/-- A ticket that was handed over is with both parties until it expires. -/
theorem HandedOver.held {holder : Octets 16} {ticket : TicketEntry}
    (h : HandedOver issuer holder ticket events) (hevents : ∀ event ∈ events, Timely now event)
    (hnow : now < ticket.expires_at) :
    { kind := .inbound, peer := holder, time := ticket.expires_at, ticket := ticket.ticket } ∈
        (after events).issuer.store.entries ∧
      (after events).holder.store.findOne .outbound issuer =
        some { kind := .outbound, peer := issuer, time := ticket.expires_at
               ticket := ticket.ticket } := by
  obtain ⟨before, issued_at, random, saved, middle, fields, capacity, output, ticket', remembered_at,
    saved', rest, hsplit, hissued, hmerged, hparsed, hremembered, hforgoes⟩ := h
  -- The run from the issue on, and the run from the moment on when the holder remembered.
  have hissue : events = (before ++ [Event.issue holder issued_at random saved]) ++
      (middle ++ .remember issuer ticket' remembered_at saved' :: rest) := by
    rw [hsplit, append_assoc]
    rfl
  have hremember : events = (before ++ .issue holder issued_at random saved ::
      (middle ++ [Event.remember issuer ticket' remembered_at saved'])) ++ rest := by
    rw [hsplit]
    simp
  have hsaved (past : List Event) (hpast : past ⊆ events) : (after past).Saved :=
    saved_after fun event hevent => (hevents event (hpast hevent)).1
  have hmem : { kind := .inbound, peer := holder, time := ticket.expires_at
                ticket := ticket.ticket } ∈
      (after (before ++ [Event.issue holder issued_at random saved])).issuer.store.entries := by
    rw [after, final_append]
    exact mem_of_issue hissued
  have hsaved₁ := hsaved (before ++ [Event.issue holder issued_at random saved])
    (hissue ▸ subset_append_left _ _)
  have hticket : ticket' = ticket := by
    have hmerge := fieldsParseTicket_of_merge (hsaved₁.1.typed _ hmem) hmerged
    exact Option.some.inj (Option.some.inj (hparsed.symm.trans hmerge))
  subst hticket
  have hfind : (after (before ++ .issue holder issued_at random saved ::
      (middle ++ [Event.remember issuer ticket' remembered_at saved']))).holder.store.findOne
        .outbound issuer = some { kind := .outbound, peer := issuer, time := ticket'.expires_at
                                  ticket := ticket'.ticket } := by
    rw [← cons_append, ← append_assoc, after, final_append]
    exact findOne_of_rememberOutbound hremembered
  constructor
  · rw [hissue] at hevents ⊢
    rw [after, final_append]
    exact mem_issuer_final hsaved₁ hmem rfl hnow
      fun event hevent => hevents event (mem_append_right _ hevent)
  · have hsaved₂ := hsaved _ (hremember ▸ subset_append_left _ _)
    rw [hremember] at hevents ⊢
    rw [after, final_append]
    exact findOne_holder_final hsaved₂ hfind hnow
      (fun event hevent => hevents event (mem_append_right _ hevent)) hforgoes

/-- Two parties, with calls in every order at times that do not go back. A ticket that the issuer
issued to the holder and that the holder remembered as the last one of the issuer, read from the
fields map that carried it, stamps every message before it expires, and the issuer accepts the
stamp. A stamp that the issuer accepts is that of an unexpired ticket that it issued to the peer. -/
theorem stamps_agree (crypto : Crypto) (events : List Event)
    (htyped : ∀ event ∈ events, event.Typed) : (∀ issuer holder ticket now message_id,
      (events.filterMap Event.time ++ [now]).Pairwise (· ≤ ·) →
      HandedOver issuer holder ticket events → now < ticket.expires_at →
      ∃ stamp, (after events).holder.store.stampOutbound crypto issuer now message_id = some stamp ∧
        (after events).issuer.store.validateInbound crypto holder now message_id stamp.bytes =
          .ok) ∧ ∀ peer now message_id stamp,
      (after events).issuer.store.validateInbound crypto peer now message_id stamp = .ok →
      ∃ ticket, Issued events peer ticket ∧ now < ticket.expires_at ∧
        stamp = (ticketStamp crypto ticket.ticket message_id).bytes := by
  constructor
  · intro issuer holder ticket now message_id htimes hhanded hnow
    -- Times that do not go back are all at or before the last one.
    have htimely : ∀ event ∈ events, Timely now event := by
      intro event hevent
      obtain ⟨-, -, hle⟩ := pairwise_append.mp htimes
      exact ⟨htyped event hevent, fun n hn =>
        hle n (mem_filterMap.mpr ⟨event, hevent, hn⟩) now (mem_singleton_self now)⟩
    obtain ⟨hissuer, hholder⟩ := hhanded.held htimely hnow
    refine ⟨ticketStamp crypto ticket.ticket message_id, ?_, ?_⟩
    · unfold TicketStore.stampOutbound TicketStore.getOutbound
      rw [hholder]
      dsimp only
      rw [if_neg (not_le.mpr hnow)]
      rfl
    · unfold TicketStore.validateInbound
      rw [if_pos]
      refine any_eq_true.mpr ⟨_, hissuer, ?_⟩
      simp [TicketStore.samePeer, hnow]
  · intro peer now message_id stamp haccepted
    unfold TicketStore.validateInbound at haccepted
    split at haccepted
    · rename_i hany
      obtain ⟨e, he, hmatch⟩ := any_eq_true.mp hany
      obtain ⟨hsame, htime, hstamp⟩ := of_decide_eq_true hmatch
      obtain ⟨hkind, rfl⟩ := samePeer_iff.mp hsame
      exact ⟨_, issued_of_mem htyped he hkind, htime, hstamp⟩
    · cases haccepted

/-- A ticket that expires 21 days after the time 100. -/
def plainTicket : TicketEntry := { expires_at := 1814500, ticket := zero 16 }

/-- A ticket is issued and remembered, and both parties restart. -/
def handover : List Event :=
  [Event.issue (zero 16) 100 (some (zero 16)) true, .issuer .restart,
    Event.remember (zero 16) plainTicket 200 true, .holder (.use (.cleanup 300 true)),
    .holder .restart]

/-- The ticket is handed over, and a stamp of it is accepted at the time 400. -/
theorem handover_agrees : HandedOver (zero 16) (zero 16) plainTicket handover ∧
      ∃ stamp, (after handover).holder.store.stampOutbound
          ⟨ofList 32, fun _ _ _ => true⟩ (zero 16) 400 (zero 32) = some stamp ∧
        (after handover).issuer.store.validateInbound ⟨ofList 32, fun _ _ _ => true⟩
          (zero 16) 400 (zero 32) stamp.bytes = .ok := by
  have htyped : ∀ event ∈ handover, event.Typed := by
    simp [handover, Event.issue, Event.remember, Event.Typed, HostCall.Typed, TicketCall.Typed,
      plainTicket]
  have hhanded : HandedOver (zero 16) (zero 16) plainTicket handover := by
    refine ⟨[], 100, some (zero 16), true, [.issuer .restart], [], 64,
      [0x81, 0x0c, 0x92, 0xce, 0, 0x1b, 0xaf, 0xe4, 0xc4, 0x10] ++ List.replicate 16 0, plainTicket,
      200, true, [.holder (.use (.cleanup 300 true)), .holder .restart], rfl, ?_, ?_, ?_, ?_, ?_⟩
    · decide +kernel
    · decide +kernel
    · decide +kernel
    · decide +kernel
    · refine ⟨fun ticket now saved h => ?_, fun ticket now saved h => ?_, trivial⟩ <;> cases h
  refine ⟨hhanded, (stamps_agree _ handover htyped).1 _ _ plainTicket 400 _ ?_ hhanded ?_⟩
  · decide
  · decide

end Exchange

end Reticulum.Lxmf
