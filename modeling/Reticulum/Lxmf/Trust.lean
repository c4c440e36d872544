import Reticulum.Lxmf.Admission
import Reticulum.Base.Run
import Reticulum.Base.Log

/-!
# What the receiving half records

Whatever the router is given, it records only what it checked. `only_authentic_recorded` is the
result: in every run, a message that the router stores as verified, or verifies later, has bytes of
that id which are addressed to the local destination and carry a signature of the identity of its
source; no message and no ticket of a source is recorded unless the block policy admitted the source
in that reception; a ticket of a peer comes from a message that this peer signed; and the message
callback comes once for a message as long as that message is not removed.
-/

namespace Reticulum.Lxmf

open List Index Option

variable {p : Provider} {config : Config} {env : Environment}

/-! ## What is recorded -/

/-- Whether the message callback was made for an id and no message of it was removed since. -/
def calledBack (id : Octets 32) (log : List Observation) : Bool :=
  log.foldl (fun called x => match x with
    | .message m => called || m.message_id = id
    | .wrote (.remove other) => called && other ≠ id
    | _ => called) false

/-- Observations that are neither callbacks of the id nor removals leave it as it was. -/
theorem calledBack_concat (id : Octets 32) (log : List Observation) (x : Observation) :
    calledBack id (log ++ [x]) = match x with
      | .message m => calledBack id log || m.message_id = id
      | .wrote (.remove other) => calledBack id log && other ≠ id
      | _ => calledBack id log := by
  rw [calledBack, foldl_append, foldl_cons, foldl_nil]
  rfl

/-- An observation that records nothing. -/
def Observation.Silent : Observation → Prop
  | .event _ | .signature _ _ | .answered _ | .repeated _ | .proved _ | .policy _ _ => True
  | _ => False

theorem Observation.Plain.silent {x : Observation} (hx : x.Plain) : x.Silent := by
  cases x with
  | event | signature | proved | policy => trivial
  | _ => exact hx.elim

section Trusted

variable (p config env)

-- What the identities signed.
variable (signed : Identity → List UInt8 → Prop)

/-- The resolver gave an identity for the source of the message whose signature the message carries,
and which signed it. -/
def SignedBySource (asked : ℕ) (m : Message) (payload : List UInt8) : Prop :=
  ∃ n < asked, ∃ identity, env.resolve n m.source = some identity ∧
    identityVerify p.toCrypto identity (preimage m payload m.message_id) m.signature = true ∧
    signed identity (preimage m payload m.message_id)

/-- The retained bytes are a message of the id and the source of the entry, for the local
destination and with a signature of its source. -/
def Authentic (asked : ℕ) (e : StoreMessage) : Prop :=
  ∃ m payload, Addressed p config e m payload ∧ SignedBySource p env signed asked m payload

/-- What must have happened before something is recorded. -/
def Recorded (asked : ℕ) (before : List Observation) : Observation → Prop
  | .wrote (.put e) =>
    lastPolicy before = some (e.source, false) ∧
      (e.signature_state = .verified → Authentic p config env signed asked e)
  | .learned peer ticket =>
    lastPolicy before = some (peer, false) ∧
      ∃ packed m payload, unpackPayload p.toCrypto packed = .ok (m, payload) ∧
        m.destination = config.local_destination ∧ m.source = peer ∧
        fieldsParseTicket m.fields_msgpack = some (some ticket) ∧
        SignedBySource p env signed asked m payload
  | .message e => calledBack e.message_id before = false
  | _ => True

/-- An entry of the start that the router wrote nothing about. -/
def Untouched (s₀ : Core) (log : List Observation) (e : StoreMessage) : Prop :=
  e ∈ (s₀.store.index : List StoreMessage) ∧
    ∀ record, .wrote record ∈ log → record.message_id ≠ e.message_id

/-- What holds in every state of a run from a state. -/
structure Trusted (s₀ s : Core) : Prop where
  distinct : s.store.index.Distinct
  /-- A message that the router stored as verified or verified later is authentic. -/
  verified : ∀ e ∈ (s.store.index : List StoreMessage), e.signature_state = .verified →
    Untouched s₀ s.log e ∨ Authentic p config env signed s.asked e
  /-- A message that waits for its signer is addressed to the local destination. -/
  waiting : ∀ e ∈ (s.store.index : List StoreMessage), e.signature_state ≠ .verified →
    ∃ m payload, Addressed p config e m payload
  /-- A ticket of a peer was there at the start or was learned. -/
  tickets : ∀ tickets ∈ s.tickets, ∀ e ∈ tickets.entries, e.kind = .outbound →
    (∃ tickets₀ ∈ s₀.tickets, e ∈ tickets₀.entries) ∨
      .learned e.peer { expires_at := e.time, ticket := e.ticket } ∈ s.log
  recorded : Log.Always (Recorded p config env signed s.asked) s.log
  /-- The messages that were called back and not removed are there. -/
  called : ∀ id, calledBack id s.log = true → (s.store.index.find id).isSome

variable {p config env signed}

variable {asked : ℕ} {m : Message} {payload : List UInt8} {e : StoreMessage} {s₀ s s' : Core}

theorem SignedBySource.mono {asked' : ℕ} (h : SignedBySource p env signed asked m payload)
    (hle : asked ≤ asked') : SignedBySource p env signed asked' m payload := by
  obtain ⟨n, hn, rest⟩ := h
  exact ⟨n, hn.trans_le hle, rest⟩

theorem Authentic.mono {asked' : ℕ} (h : Authentic p config env signed asked e)
    (hle : asked ≤ asked') : Authentic p config env signed asked' e := by
  obtain ⟨m, payload, haddressed, hsigned⟩ := h
  exact ⟨m, payload, haddressed, hsigned.mono hle⟩

theorem Recorded.mono {asked' : ℕ} (hle : asked ≤ asked') (before : List Observation)
    (x : Observation) (h : Recorded p config env signed asked before x) :
    Recorded p config env signed asked' before x := by
  cases x with
  | wrote record =>
    cases record with
    | put e => exact ⟨h.1, fun hverified => (h.2 hverified).mono hle⟩
    | _ => trivial
  | learned peer ticket =>
    obtain ⟨hpolicy, packed, m, payload, hunpacked, hdestination, hsource, hticket, hsigned⟩ := h
    exact ⟨hpolicy, packed, m, payload, hunpacked, hdestination, hsource, hticket, hsigned.mono hle⟩
  | message e => exact h
  | _ => trivial

/-- A signature that was checked was made, as signatures cannot be forged. -/
theorem signedBySource_of_verifiedBy (hsigned : ∀ identity message signature,
      identityVerify p.toCrypto identity message signature = true → signed identity message)
    (h : VerifiedBy p env asked m payload) : SignedBySource p env signed asked m payload := by
  obtain ⟨n, hn, identity, hresolve, hverify⟩ := h
  exact ⟨n, hn, identity, hresolve, hverify, hsigned identity _ _ hverify⟩

/-- An entry stays untouched when nothing is written about it. -/
theorem Untouched.append {log xs : List Observation} (h : Untouched s₀ log e)
    (hxs : ∀ record, .wrote record ∈ xs → record.message_id ≠ e.message_id) :
    Untouched s₀ (log ++ xs) e :=
  ⟨h.1, fun record hrecord => (mem_append.mp hrecord).elim (h.2 record) (hxs record)⟩

section

variable (h : Trusted p config env signed s₀ s)
include h

theorem Trusted.told {x : Observation} (hx : x.Silent) :
    Trusted p config env signed s₀ (s.observe x) where
  distinct := h.distinct
  verified := fun e he hstate => (h.verified e he hstate).imp
    (·.append fun record hrecord => by
      rw [← mem_singleton.mp hrecord] at hx
      exact hx.elim) id
  waiting := h.waiting
  tickets := fun tickets htickets e he hkind =>
    (h.tickets tickets htickets e he hkind).imp id (mem_append_left _)
  recorded := by
    refine Log.always_concat h.recorded ?_
    cases x with
    | event | signature | answered | repeated | proved | policy => trivial
    | _ => exact hx.elim
  called := by
    intro id hcalled
    rw [show (s.observe x).log = s.log ++ [x] from rfl, calledBack_concat] at hcalled
    refine h.called id ?_
    cases x with
    | event | signature | answered | repeated | proved | policy => exact hcalled
    | _ => exact hx.elim

/-- A message that is removed may be called back again. -/
theorem Trusted.removed (removed : Octets 32)
    (hindex : s'.store.index = s.store.index.drop removed) (htickets : s'.tickets = s.tickets)
    (hlog : s'.log = s.log ++ [.wrote (.remove removed)]) (hasked : s'.asked = s.asked) :
    Trusted p config env signed s₀ s' where
  distinct := hindex ▸ h.distinct.drop removed
  verified := by
    rw [hindex, hasked, hlog]
    intro e he hstate
    obtain ⟨hold, hne⟩ := mem_filter.mp he
    refine (h.verified e hold hstate).imp (·.append fun record hrecord => ?_) id
    obtain rfl : record = .remove removed := by simpa using hrecord
    exact (of_decide_eq_true hne).symm
  waiting := by
    rw [hindex]
    exact fun e he => h.waiting e (mem_of_mem_filter he)
  tickets := by
    rw [htickets, hlog]
    exact fun tickets htickets e he hkind =>
      (h.tickets tickets htickets e he hkind).imp id (mem_append_left _)
  recorded := by
    rw [hlog, hasked]
    exact Log.always_concat h.recorded trivial
  called := by
    rw [hlog, hindex]
    intro other hcalled
    rw [calledBack_concat, Bool.and_eq_true, decide_eq_true_eq] at hcalled
    rw [find_drop_of_ne hcalled.2]
    exact h.called other hcalled.1

/-- A new message is admitted by the policy, and it is called back for the first time. -/
theorem Trusted.inserted (haddressed : Addressed p config e m payload)
    (hverified : e.signature_state = .verified → SignedBySource p env signed s.asked m payload)
    (hpolicy : lastPolicy s.log = some (e.source, false))
    (hnew : s.store.index.find e.message_id = none) (hindex : s'.store.index = s.store.index ++ [e])
    (htickets : s'.tickets = s.tickets) (hlog : s'.log = s.log ++ [.wrote (.put e), .message e])
    (hasked : s'.asked = s.asked) : Trusted p config env signed s₀ s' where
  distinct := hindex ▸ h.distinct.append hnew
  verified := by
    rw [hindex, hasked, hlog]
    intro x hx hstate
    rcases mem_append.mp hx with hx | hx
    · refine (h.verified x hx hstate).imp (·.append fun record hrecord => ?_) id
      obtain rfl : record = .put e := by simpa using hrecord
      rw [Index.find, List.find?_eq_none] at hnew
      exact fun heq => hnew x hx (decide_eq_true heq.symm)
    · obtain rfl := mem_singleton.mp hx
      exact .inr ⟨m, payload, haddressed, hverified hstate⟩
  waiting := by
    rw [hindex]
    intro x hx hstate
    rcases mem_append.mp hx with hx | hx
    · exact h.waiting x hx hstate
    · obtain rfl := mem_singleton.mp hx
      exact ⟨m, payload, haddressed⟩
  tickets := by
    rw [htickets, hlog]
    exact fun tickets htickets e he hkind =>
      (h.tickets tickets htickets e he hkind).imp id (mem_append_left _)
  recorded := by
    rw [hlog, hasked, append_cons]
    refine Log.always_concat (Log.always_concat h.recorded ?_) ?_
    · exact ⟨hpolicy, fun hstate => ⟨m, payload, haddressed, hverified hstate⟩⟩
    · -- What was called back is in the index, and the message is not.
      show calledBack e.message_id (s.log ++ [.wrote (.put e)]) = false
      rw [calledBack_concat, ← Bool.not_eq_true]
      intro hcalled
      have hold := h.called e.message_id hcalled
      rw [hnew] at hold
      cases hold
  called := by
    rw [hlog, hindex]
    intro id hcalled
    rw [append_cons, calledBack_concat, calledBack_concat, Bool.or_eq_true,
      decide_eq_true_eq] at hcalled
    rw [find_append]
    rcases hcalled with hcalled | hid
    · rw [isSome_or, h.called id hcalled, Bool.true_or]
    · rw [if_pos hid, isSome_or, isSome_some, Bool.or_true]

/-- A message that waited for its signer is authentic when it is verified. -/
theorem Trusted.promoted (hkept : Kept s e)
    (hunpacked : unpackPayload p.toCrypto e.packed = .ok (m, payload))
    (hverified : SignedBySource p env signed s.asked m payload)
    (hindex : s'.store.index = s.store.index.modify e.message_id fun e =>
      { e with signature_state := .verified }) (htickets : s'.tickets = s.tickets)
    (hlog : s'.log = s.log ++ [.wrote (.signature e.message_id .verified)])
    (hasked : s'.asked = s.asked) : Trusted p config env signed s₀ s' := by
  -- An entry of the new index is the message, or an entry of the old index.
  have hentry : ∀ x ∈ (s'.store.index : List StoreMessage),
      x = { e with signature_state := .verified } ∨
        x ∈ (s.store.index : List StoreMessage) ∧ x.message_id ≠ e.message_id := by
    rw [hindex]
    intro x hx
    obtain ⟨y, hy, rfl⟩ := mem_map.mp hx
    split_ifs with hid
    · have hsame := (find_of_mem h.distinct hy).symm.trans (hid ▸ hkept.1)
      exact .inl (by rw [some.inj hsame])
    · exact .inr ⟨hy, hid⟩
  obtain ⟨m', payload', haddressed⟩ := h.waiting e (mem_of_find hkept.1) hkept.2
  obtain ⟨rfl, rfl⟩ := Prod.mk.inj (Except.ok.inj (haddressed.unpacked.symm.trans hunpacked))
  refine ⟨hindex ▸ h.distinct.modify _ fun _ => rfl, ?_, ?_, ?_, ?_, ?_⟩
  · rw [hasked, hlog]
    intro x hx hstate
    rcases hentry x hx with rfl | ⟨hx, hne⟩
    · exact .inr ⟨m', payload', { haddressed with }, hverified⟩
    · refine (h.verified x hx hstate).imp (·.append fun record hrecord => ?_) id
      obtain rfl : record = .signature e.message_id .verified := by simpa using hrecord
      exact hne.symm
  · intro x hx hstate
    rcases hentry x hx with rfl | ⟨hx, -⟩
    · exact absurd rfl hstate
    · exact h.waiting x hx hstate
  · rw [htickets, hlog]
    exact fun tickets htickets e he hkind =>
      (h.tickets tickets htickets e he hkind).imp id (mem_append_left _)
  · rw [hlog, hasked]
    exact Log.always_concat h.recorded trivial
  · rw [hlog, hindex]
    intro id hcalled
    rw [calledBack_concat] at hcalled
    rw [isSome_find_modify]
    · exact h.called id hcalled
    · exact fun _ => rfl

/-- A ticket is learned from a message that its peer signed for the local destination. -/
theorem Trusted.learned {packed : List UInt8}
    {ticket : TicketEntry} (hunpacked : unpackPayload p.toCrypto packed = .ok (m, payload))
    (hdestination : m.destination = config.local_destination ∨ ∃ e, Kept s e ∧ e.packed = packed)
    (hverified : SignedBySource p env signed s.asked m payload)
    (hticket : fieldsParseTicket m.fields_msgpack = some (some ticket))
    (hpolicy : lastPolicy s.log = some (m.source, false)) (hindex : s'.store.index = s.store.index)
    (htickets : ∀ tickets' ∈ s'.tickets, ∃ tickets ∈ s.tickets, ∀ e ∈ tickets'.entries,
      e ∈ tickets.entries ∨
        e = { kind := .outbound, peer := m.source, time := ticket.expires_at,
              ticket := ticket.ticket }) (hlog : s'.log = s.log ++ [.learned m.source ticket])
    (hasked : s.asked ≤ s'.asked) :
    Trusted p config env signed s₀ s' where
  distinct := hindex ▸ h.distinct
  verified := by
    rw [hindex, hlog]
    exact fun e he hstate => (h.verified e he hstate).imp
      (·.append fun record hrecord => by simp at hrecord) (·.mono hasked)
  waiting := by
    rw [hindex]
    exact h.waiting
  tickets := by
    rw [hlog]
    intro tickets' htickets' e he hkind
    obtain ⟨tickets, hold, hentries⟩ := htickets tickets' htickets'
    rcases hentries e he with he | rfl
    · exact (h.tickets tickets hold e he hkind).imp id (mem_append_left _)
    · exact .inr (mem_append_right _ (mem_singleton.mpr rfl))
  recorded := by
    have hlocal : m.destination = config.local_destination := by
      rcases hdestination with hlocal | ⟨e, hkept, rfl⟩
      · exact hlocal
      · obtain ⟨m', payload', haddressed⟩ := h.waiting e (mem_of_find hkept.1) hkept.2
        obtain ⟨rfl, -⟩ := Prod.mk.inj (Except.ok.inj (haddressed.unpacked.symm.trans hunpacked))
        exact haddressed.destination
    rw [hlog]
    exact Log.always_concat (h.recorded.mono (.mono hasked))
      ⟨hpolicy, packed, m, payload, hunpacked, hlocal, rfl, hticket, hverified.mono hasked⟩
  called := by
    rw [hlog, hindex]
    intro id hcalled
    rw [calledBack_concat] at hcalled
    exact h.called id hcalled

/-- Tickets that are issued to peers, and tickets that are cleared, concern no ticket of a peer. -/
theorem Trusted.aged (hindex : s'.store.index = s.store.index)
    (htickets : ∀ tickets' ∈ s'.tickets, ∃ tickets ∈ s.tickets, ∀ e ∈ tickets'.entries,
      e.kind = .outbound → e ∈ tickets.entries) (hlog : s'.log = s.log)
    (hasked : s.asked ≤ s'.asked) : Trusted p config env signed s₀ s' where
  distinct := hindex ▸ h.distinct
  verified := by
    rw [hindex, hlog]
    exact fun e he hstate => (h.verified e he hstate).imp id (·.mono hasked)
  waiting := by
    rw [hindex]
    exact h.waiting
  tickets := by
    rw [hlog]
    intro tickets' htickets' e he hkind
    obtain ⟨tickets, hold, hentries⟩ := htickets tickets' htickets'
    exact h.tickets tickets hold e (hentries e he hkind) hkind
  recorded := by
    rw [hlog]
    exact h.recorded.mono (.mono hasked)
  called := by
    rw [hlog, hindex]
    exact h.called

/-- Where the index, the tickets and the log are what they were, so is the trust. -/
theorem Trusted.quiet (hindex : s'.store.index = s.store.index) (htickets : s'.tickets = s.tickets)
    (hlog : s'.log = s.log) (hasked : s.asked ≤ s'.asked) : Trusted p config env signed s₀ s' :=
  h.aged hindex (fun tickets hmem => ⟨tickets, htickets ▸ hmem, fun _ he _ => he⟩) hlog hasked

end

section

variable (hsigned : ∀ identity message signature,
      identityVerify p.toCrypto identity message signature = true → signed identity message)
include hsigned

/-- Every move keeps the trust. -/
theorem Trusted.move (h : Trusted p config env signed s₀ s) (hmove : Move p config env s s') :
    Trusted p config env signed s₀ s' := by
  cases hmove with
  | quiet hindex htickets hlog hasked => exact h.quiet hindex htickets hlog hasked
  | told x hx => exact h.told hx.silent
  | answered packed => exact h.told trivial
  | removed id hindex htickets hlog hasked => exact h.removed id hindex htickets hlog hasked
  | inserted e m payload haddressed _ hverified hpolicy _ hnew hindex htickets hlog hasked =>
    exact h.inserted haddressed (fun hstate => signedBySource_of_verifiedBy hsigned
      (hverified hstate)) hpolicy hnew hindex htickets hlog hasked
  | promoted e m payload hkept hunpacked hid hverified hindex htickets hlog hasked =>
    exact h.promoted hkept hunpacked (signedBySource_of_verifiedBy hsigned hverified) hindex
      htickets hlog hasked
  | learned packed m payload ticket hunpacked hdestination hverified hticket hpolicy hindex
      htickets hlog hasked =>
    exact h.learned hunpacked hdestination (signedBySource_of_verifiedBy hsigned hverified) hticket
      hpolicy hindex htickets hlog hasked
  | aged hindex htickets hlog hasked => exact h.aged hindex htickets hlog hasked

/-- A sequence of moves keeps the trust. -/
theorem Trusted.moves (h : Trusted p config env signed s₀ s) (hmoves : Moves p config env s s') :
    Trusted p config env signed s₀ s' := by
  induction hmoves with
  | refl => exact h
  | tail _ hmove ih => exact ih.move hsigned hmove

/-- Every call keeps the trust. -/
theorem Trusted.step {s : Inbox} (h : Trusted p config env signed s₀ s.toCore) (call : Inbox.Call) :
    Trusted p config env signed s₀ (s.step p config env call).toCore := by
  cases hrepeated : s.repeated p call with
  | none => exact h.moves hsigned (moves_step h.distinct hrepeated)
  | some t =>
    rw [step_of_repeated hrepeated]
    exact h.told trivial

end

/-- In every run of the receiving half, a message that the router stores as verified or verifies
later is authentic; what it records was admitted by the block policy right before; a ticket of a
peer was learned from a message that the peer signed for the local destination; and the message
callback is made once for an id unless a message of that id was removed in between. -/
theorem only_authentic_recorded (hsigned : ∀ identity message signature,
      identityVerify p.toCrypto identity message signature = true → signed identity message)
    {s : Inbox} (hlog : s.log = []) (hdistinct : s.store.index.Distinct)
    (hwaiting : ∀ e ∈ (s.store.index : List StoreMessage), e.signature_state ≠ .verified →
      ∃ m payload, Addressed p config e m payload) (calls : List Inbox.Call) :
    Trusted p config env signed s.toCore (Run.final (Inbox.step p config env) s calls).toCore := by
  have hstart : Trusted p config env signed s.toCore s.toCore :=
    { distinct := hdistinct
      verified := fun e he _ => Or.inl ⟨he, fun record hrecord => by
        rw [hlog] at hrecord
        exact absurd hrecord not_mem_nil⟩
      waiting := hwaiting
      tickets := fun tickets htickets e he _ => Or.inl ⟨tickets, htickets, he⟩
      recorded := hlog ▸ Log.always_nil _
      called := fun id hcalled => by
        rw [hlog] at hcalled
        cases hcalled }
  have hcall : ∀ (s' : Inbox) (call : Inbox.Call), Trusted p config env signed s.toCore s'.toCore →
      True → Trusted p config env signed s.toCore (s'.step p config env call).toCore :=
    fun s' call h _ => h.step hsigned call
  exact Run.invariant hcall hstart (Run.each_true calls)

end Trusted

/-- A message that comes over a link before its signer is known is stored, and it is verified when
the signer is known. -/
theorem only_authentic_recorded_late :
    (Run.final (Inbox.step plainProvider plainConfig (plainEnvironment 2)) plainInbox
        [.linkPacket 0 (plainPacked plainSignature)]).store.index.map StoreMessage.signature_state =
      [.unverified] ∧
    (Run.final (Inbox.step plainProvider plainConfig (plainEnvironment 2)) plainInbox
        [.linkPacket 0 (plainPacked plainSignature), .verify none]).store.index.map
          StoreMessage.signature_state = [.verified] ∧
    Trusted plainProvider plainConfig (plainEnvironment 2) (fun identity message => ∃ signature,
        identityVerify plainProvider.toCrypto identity message signature = true) plainInbox.toCore
      (Run.final (Inbox.step plainProvider plainConfig (plainEnvironment 2)) plainInbox
        [.linkPacket 0 (plainPacked plainSignature), .verify none]).toCore :=
  ⟨by decide +kernel, by decide +kernel,
    only_authentic_recorded (s := plainInbox) (fun _ _ signature h => ⟨signature, h⟩) rfl
      nodup_nil (fun _ he => absurd he not_mem_nil) _⟩

end Reticulum.Lxmf
