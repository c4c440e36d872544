import Reticulum.Lxmf.Message

/-!
# Tickets

The ticket store of `src/lxmf/tickets.c`. A ticket is a secret that lets its holder stamp messages
for the peer that issued it without proof of work. The store holds the tickets that peers issued to
the local identity (outbound), the ones that it issued to peers (inbound), and when it last
delivered one to a peer.

Every change is saved before it counts: `saved` is what `save` returns for the change that a call
makes, and a change that is not saved is taken back.
-/

namespace Reticulum.Lxmf

open List

/-- `enum ticket_kind`. -/
inductive TicketKind
  | outbound
  | inbound
  | lastDelivery
deriving DecidableEq, Repr

/-- `stored_ticket_t`. -/
structure StoredTicket where
  kind : TicketKind
  peer : Octets 16
  time : ℕ
  ticket : Octets 16
deriving DecidableEq

/-- `lxmf_ticket_store_t`, its entries in order. -/
structure TicketStore where
  entries : List StoredTicket
deriving DecidableEq

namespace TicketStore

/-- `LXMF_TICKET_STORE_MAX_ENTRIES`. -/
def maxEntries : ℕ := 1024

/-- `LXMF_TICKET_EXPIRY_SECONDS`. -/
def expirySeconds : ℕ := 21 * 24 * 60 * 60

/-- `LXMF_TICKET_GRACE_SECONDS`. -/
def graceSeconds : ℕ := 5 * 24 * 60 * 60

/-- `LXMF_TICKET_RENEW_SECONDS`. -/
def renewSeconds : ℕ := 14 * 24 * 60 * 60

/-- `LXMF_TICKET_INTERVAL_SECONDS`. -/
def intervalSeconds : ℕ := 24 * 60 * 60

section

variable (store : TicketStore) (peer : Octets 16) (now : ℕ)

/-- `same_peer`. -/
def samePeer (kind : TicketKind) (peer : Octets 16) (entry : StoredTicket) : Bool :=
  entry.kind = kind ∧ entry.peer = peer

/-- `find_one`. -/
def findOne (kind : TicketKind) (peer : Octets 16) : Option StoredTicket :=
  store.entries.find? (samePeer kind peer)

/-- The first entry of a kind and a peer replaced, or a new entry at the end where there is none and
room for one. -/
def setOne (entry : StoredTicket) : Option TicketStore :=
  match store.entries.findIdx? (samePeer entry.kind entry.peer) with
  | some i => some { entries := store.entries.set i entry }
  | none =>
    if store.entries.length = maxEntries then none
    else some { entries := store.entries ++ [entry] }

/-- A change that is saved or taken back. -/
def commit (changed : TicketStore) (saved : Status) : Status × TicketStore :=
  if saved = .ok then (.ok, changed) else (saved, store)

/-- `lxmf_ticket_store_remember_outbound`. -/
def rememberOutbound (ticket : TicketEntry) (now : ℕ) (saved : Status) : Status × TicketStore :=
  if ticket.expires_at ≤ now then (.argument, store)
  else
    match store.setOne
        { kind := .outbound, peer, time := ticket.expires_at, ticket := ticket.ticket } with
    | none => (.bounds, store)
    | some changed => store.commit changed saved

/-- `lxmf_ticket_store_mark_delivered`. -/
def markDelivered (saved : Status) : Status × TicketStore :=
  match store.setOne { kind := .lastDelivery, peer, time := now, ticket := Octets.zero 16 } with
  | none => (.bounds, store)
  | some changed => store.commit changed saved

/-- `lxmf_ticket_store_get_outbound`. -/
def getOutbound : Option TicketEntry :=
  match store.findOne .outbound peer with
  | none => none
  | some entry =>
    if entry.time ≤ now then none else some { expires_at := entry.time, ticket := entry.ticket }

/-- `lxmf_ticket_store_stamp_outbound`, which is `LXMF_ERR_PENDING` where it gives nothing. -/
def stampOutbound (crypto : Crypto) (store : TicketStore) (peer : Octets 16) (now : ℕ)
    (message_id : Octets 32) : Option (Octets 16) :=
  (store.getOutbound peer now).map fun ticket => ticketStamp crypto ticket.ticket message_id

/-- `lxmf_ticket_store_validate_inbound`. -/
def validateInbound (crypto : Crypto) (store : TicketStore) (peer : Octets 16) (now : ℕ)
    (message_id : Octets 32) (stamp : List UInt8) : Status :=
  if store.entries.any fun entry =>
      samePeer .inbound peer entry ∧ now < entry.time ∧
        stamp = (ticketStamp crypto entry.ticket message_id).bytes then .ok
  else .format

/-- Whether `lxmf_ticket_store_issue` finds that a ticket was delivered to the peer a short time
ago. -/
def recentlyDelivered : Bool :=
  match store.findOne .lastDelivery peer with
  | none => false
  | some last => now < last.time ∨ now - last.time < intervalSeconds

/-- `lxmf_ticket_store_issue`, given the random bytes of a new ticket. -/
def issue (random : Option (Octets 16))
    (saved : Status) : (Status × Option TicketEntry) × TicketStore :=
  if store.recentlyDelivered peer now then ((.pending, none), store)
  else
    match store.entries.find? fun entry =>
        samePeer .inbound peer entry ∧ now < entry.time ∧ renewSeconds < entry.time - now with
    | some entry =>
      ((.ok, some { expires_at := entry.time, ticket := entry.ticket }), store)
    | none =>
      if store.entries.length = maxEntries ∨ 2 ^ 64 - 1 - now < expirySeconds then
        ((.bounds, none), store)
      else
        match random with
        | none => ((.crypto, none), store)
        | some ticket =>
          let entry : StoredTicket := { kind := .inbound, peer, time := now + expirySeconds, ticket }
          if saved = .ok then
            ((.ok, some { expires_at := entry.time, ticket }),
              { entries := store.entries ++ [entry] })
          else ((saved, none), store)

/-- An entry that `lxmf_ticket_store_cleanup` removes. -/
def expired (entry : StoredTicket) : Bool :=
  match entry.kind with
  | .outbound => entry.time ≤ now
  | .inbound => entry.time ≤ now ∧ graceSeconds < now - entry.time
  | .lastDelivery => false

/-- `lxmf_ticket_store_cleanup`. -/
def cleanup (saved : Status) : Status × TicketStore :=
  if store.entries.any (expired now) then
    store.commit { entries := store.entries.filter fun entry => !expired now entry } saved
  else (.ok, store)

end

/-! ## What a change adds -/

/-- An entry of the store after one was set is an old one or the one set. -/
theorem mem_setOne {store changed : TicketStore} {entry e : StoredTicket}
    (h : store.setOne entry = some changed) (he : e ∈ changed.entries) :
    e ∈ store.entries ∨ e = entry := by
  unfold setOne at h
  split at h
  · cases h
    exact mem_or_eq_of_mem_set he
  · split at h
    · cases h
    · cases h
      simpa using he

section Cases

variable (store : TicketStore) (peer : Octets 16) (now : ℕ) (saved : Status)

/-- What `lxmf_ticket_store_remember_outbound` can do. -/
theorem rememberOutbound_cases (ticket : TicketEntry) :
    let r := store.rememberOutbound peer ticket now saved
    (r.1 ≠ .ok ∧
      r.2 = store) ∨
    (now < ticket.expires_at ∧ r.1 = .ok ∧
      store.setOne { kind := .outbound, peer, time := ticket.expires_at, ticket := ticket.ticket } =
        some r.2) := by
  unfold rememberOutbound commit
  split
  · exact .inl ⟨nofun, rfl⟩
  rename_i hfresh
  split
  · exact .inl ⟨nofun, rfl⟩
  rename_i changed hset
  split
  · exact .inr ⟨not_le.mp hfresh, rfl, hset⟩
  · exact .inl ⟨‹_›, rfl⟩

/-- What `lxmf_ticket_store_issue` can do: nothing, where a ticket that it returns is in the store,
or a new ticket behind the others. -/
theorem issue_cases (random : Option (Octets 16)) : ((store.issue peer now random saved).2 = store ∧
      ∀ t, (store.issue peer now random saved).1 = (.ok, some t) →
        { kind := .inbound, peer, time := t.expires_at, ticket := t.ticket } ∈ store.entries) ∨
    ∃ ticket, random = some ticket ∧ store.entries.length ≠ maxEntries ∧
      now + expirySeconds < 2 ^ 64 ∧
      store.issue peer now random saved = ((.ok, some ⟨now + expirySeconds, ticket⟩), ⟨store.entries ++
        [{ kind := .inbound, peer, time := now + expirySeconds, ticket }]⟩) := by
  unfold issue
  split
  · exact .inl ⟨rfl, nofun⟩
  split
  · rename_i entry hfind
    refine .inl ⟨rfl, fun t ht => ?_⟩
    obtain rfl := Option.some.inj (Prod.mk.inj ht).2
    have hsame := find?_some hfind
    obtain ⟨hkind, hpeer⟩ := of_decide_eq_true (of_decide_eq_true hsame).1
    rw [← hkind, ← hpeer]
    exact mem_of_find?_eq_some hfind
  split
  · exact .inl ⟨rfl, nofun⟩
  rename_i hbounds
  rw [not_or] at hbounds
  cases random with
  | none => exact .inl ⟨rfl, nofun⟩
  | some ticket =>
    split_ifs with hsaved
    · have hlate := hbounds.2
      unfold expirySeconds at hlate ⊢
      exact .inr ⟨ticket, rfl, hbounds.1, by omega, rfl⟩
    · exact .inl ⟨rfl, fun t ht => absurd (Prod.mk.inj ht).1 hsaved⟩

end Cases

/-- An entry of the store after a ticket was remembered is an old one, or the ticket, and then the
call succeeded. -/
theorem mem_rememberOutbound {store : TicketStore} {peer : Octets 16} {ticket : TicketEntry}
    {now : ℕ} {saved : Status} {e : StoredTicket}
    (he : e ∈ (store.rememberOutbound peer ticket now saved).2.entries) : e ∈ store.entries ∨
      (e = { kind := .outbound, peer, time := ticket.expires_at, ticket := ticket.ticket } ∧
        (store.rememberOutbound peer ticket now saved).1 = .ok) := by
  rcases store.rememberOutbound_cases peer now saved ticket with ⟨-, hsame⟩ | ⟨-, hok, hset⟩
  · exact .inl (hsame ▸ he)
  · exact (mem_setOne hset he).imp id fun h => ⟨h, hok⟩

/-- Clearing expired tickets adds none. -/
theorem mem_cleanup {store : TicketStore} {now : ℕ} {saved : Status} {e : StoredTicket}
    (he : e ∈ (store.cleanup now saved).2.entries) : e ∈ store.entries := by
  unfold cleanup commit at he
  split at he
  · split at he
    · exact mem_of_mem_filter he
    · exact he
  · exact he

end TicketStore

end Reticulum.Lxmf
