import Reticulum.Lxmf.Plans
import Reticulum.Lxmf.Receive

/-!
# What the receiving half can do

`Move` says what the receiving half of the router can do to the store, the tickets and the log, one
change at a time and with what was checked for it: the bytes, the signature and the answer of the
block policy. Every function of the receiving half is a sequence of moves, so a property of all runs
is a property that every move keeps.
-/

namespace Reticulum.Lxmf

open List Nat Prod

/-! ## What is checked -/

/-- The answer of the block policy to the reception that goes on: the last one, if no callback
behind it ended a reception. -/
def lastPolicy (log : List Observation) : Option (Octets 16 × Bool) :=
  log.foldl (fun last x => match x with
    | .policy source blocked => some (source, blocked)
    | .message _ | .signature _ _ | .event _ | .answered _ => none
    | _ => last) none

/-- An observation that neither is an answer of the block policy nor ends a reception. -/
def Observation.NoPolicy : Observation → Prop
  | .policy _ _ | .message _ | .signature _ _ | .event _ | .answered _ => False
  | _ => True

/-- Other observations leave the last answer what it was. -/
theorem lastPolicy_append {log xs : List Observation} (h : ∀ x ∈ xs, x.NoPolicy) :
    lastPolicy (log ++ xs) = lastPolicy log := by
  induction xs using List.reverseRecOn with
  | nil => rw [append_nil]
  | append_singleton xs x ih =>
    rw [forall_mem_append, forall_mem_singleton] at h
    rw [← ih h.1, ← append_assoc, lastPolicy, foldl_append, foldl_cons, foldl_nil]
    cases x with
    | policy | message | signature | event | answered => exact absurd h.2 id
    | _ => rfl

variable (p : Provider) (config : Config) (env : Environment)

/-- The identity that the resolver gave for the source of a message, at one of the questions asked
so far, signed the message. -/
def VerifiedBy (asked : ℕ) (m : Message) (payload : List UInt8) : Prop :=
  ∃ n < asked, ∃ identity, env.resolve n m.source = some identity ∧
    identityVerify p.toCrypto identity (preimage m payload m.message_id) m.signature = true

/-- The bytes kept of a message are a message of the same id and source, for the local
destination. -/
structure Addressed (e : StoreMessage) (m : Message) (payload : List UInt8) : Prop where
  unpacked : unpackPayload p.toCrypto e.packed = .ok (m, payload)
  message_id : m.message_id = e.message_id
  destination : m.destination = config.local_destination
  source : m.source = e.source

variable {p config env}

variable {m : Message} {payload packed : List UInt8} {s s' : Core} {e : StoreMessage}

/-- A signature stays checked as more questions are asked. -/
theorem VerifiedBy.mono {asked asked' : ℕ} (h : VerifiedBy p env asked m payload)
    (hle : asked ≤ asked') : VerifiedBy p env asked' m payload := by
  obtain ⟨n, hn, rest⟩ := h
  exact ⟨n, hn.trans_le hle, rest⟩

/-- What unpacking with the verifier says, by the answer of the resolver. -/
theorem unpackVerified_of_unpackPayload (env : Environment) (n : ℕ)
    (hunpacked : unpackPayload p.toCrypto packed = .ok (m, payload)) :
    unpackVerified p.toCrypto (env.resolve n) packed = match env.resolve n m.source with
      | none => .ok (m, .unknownSigner)
      | some identity =>
        if identityVerify p.toCrypto identity (preimage m payload m.message_id) m.signature then
          .ok (m, .ok) else .error .signature := by
  unfold unpackVerified identityVerifier
  rw [hunpacked]
  dsimp only
  cases env.resolve n m.source with
  | none => rfl
  | some identity =>
    dsimp only
    cases identityVerify p.toCrypto identity (preimage m payload m.message_id) m.signature with
    | true => rfl
    | false => rfl

/-- What an unpacking with the verifier checked. -/
theorem of_unpackVerified {n : ℕ} {signer : Status}
    (h : unpackVerified p.toCrypto (env.resolve n) packed = .ok (m, signer)) :
    ∃ payload, unpackPayload p.toCrypto packed = .ok (m, payload) ∧
      ((signer = .unknownSigner ∧ env.resolve n m.source = none) ∨
        (signer = .ok ∧ ∃ identity, env.resolve n m.source = some identity ∧
          identityVerify p.toCrypto identity (preimage m payload m.message_id) m.signature =
            true)) := by
  cases hunpack : unpackPayload p.toCrypto packed with
  | error status =>
    rw [unpackVerified, hunpack] at h
    cases h
  | ok result =>
    obtain ⟨m', payload⟩ := result
    rw [unpackVerified_of_unpackPayload env n hunpack] at h
    cases hresolve : env.resolve n m'.source with
    | none =>
      rw [hresolve] at h
      cases h
      exact ⟨payload, rfl, .inl ⟨rfl, hresolve⟩⟩
    | some identity =>
      rw [hresolve] at h
      dsimp only at h
      split at h
      · rename_i hverify
        cases h
        exact ⟨payload, rfl, .inr ⟨rfl, identity, hresolve, hverify⟩⟩
      · cases h

/-! ## The moves -/

/-- An observation that neither records nor answers anything. -/
def Observation.Plain : Observation → Prop
  | .event _ | .signature _ _ | .proved _ | .policy _ _ => True
  | _ => False

/-- A message that is stored and not verified. -/
def Kept (s : Core) (e : StoreMessage) : Prop :=
  s.store.index.find e.message_id = some e ∧ e.signature_state ≠ .verified

variable (p config env)

/-- One change that the receiving half can make. -/
inductive Move : Core → Core → Prop
  /-- Questions are asked. -/
  | quiet {s s' : Core} (hindex : s'.store.index = s.store.index) (htickets : s'.tickets = s.tickets)
      (hlog : s'.log = s.log) (hasked : s.asked ≤ s'.asked) : Move s s'
  /-- The application is told something. -/
  | told {s : Core} (x : Observation) (hx : x.Plain) : Move s (s.observe x)
  /-- Bytes are answered for that are a stored message. -/
  | answered {s : Core} (packed : List UInt8)
      (hstored : ∀ m payload, unpackPayload p.toCrypto packed = .ok (m, payload) →
        (s.store.index.find m.message_id).isSome) : Move s (s.observe (.answered packed))
  /-- A message is removed. -/
  | removed {s s' : Core} (id : Octets 32) (hindex : s'.store.index = s.store.index.drop id)
      (htickets : s'.tickets = s.tickets) (hlog : s'.log = s.log ++ [.wrote (.remove id)])
      (hasked : s'.asked = s.asked) : Move s s'
  /-- A new message is stored, and the application is called back. -/
  | inserted {s s' : Core} (e : StoreMessage) (m : Message) (payload : List UInt8)
      (haddressed : Addressed p config e m payload)
      (hsize : e.packed ≠ [] ∧ e.packed.length ≤ config.inboundMessageLimit)
      (hverified : e.signature_state = .verified → VerifiedBy p env s.asked m payload)
      (hpolicy : lastPolicy s.log = some (e.source, false))
      (hadmitted : ∃ n, env.blocked n e.source = false)
      (hnew : s.store.index.find e.message_id = none)
      (hindex : s'.store.index = s.store.index ++ [e]) (htickets : s'.tickets = s.tickets)
      (hlog : s'.log = s.log ++ [.wrote (.put e), .message e]) (hasked : s'.asked = s.asked) :
      Move s s'
  /-- A message that was stored unverified is verified. -/
  | promoted {s s' : Core} (e : StoreMessage) (m : Message) (payload : List UInt8)
      (hkept : Kept s e) (hunpacked : unpackPayload p.toCrypto e.packed = .ok (m, payload))
      (hid : m.message_id = e.message_id) (hverified : VerifiedBy p env s.asked m payload)
      (hindex : s'.store.index = s.store.index.modify e.message_id fun e =>
        { e with signature_state := .verified })
      (htickets : s'.tickets = s.tickets)
      (hlog : s'.log = s.log ++ [.wrote (.signature e.message_id .verified)])
      (hasked : s'.asked = s.asked) : Move s s'
  /-- A ticket in the fields of a message is remembered, when the message is received or when one
  that was kept is verified. -/
  | learned {s s' : Core} (packed : List UInt8) (m : Message) (payload : List UInt8)
      (ticket : TicketEntry) (hunpacked : unpackPayload p.toCrypto packed = .ok (m, payload))
      (hdestination : m.destination = config.local_destination ∨
        ∃ e, Kept s e ∧ e.packed = packed)
      (hverified : VerifiedBy p env s.asked m payload)
      (hticket : fieldsParseTicket m.fields_msgpack = some (some ticket))
      (hpolicy : lastPolicy s.log = some (m.source, false))
      (hindex : s'.store.index = s.store.index)
      (htickets : ∀ tickets' ∈ s'.tickets, ∃ tickets ∈ s.tickets, ∀ e ∈ tickets'.entries,
        e ∈ tickets.entries ∨
          e = { kind := .outbound, peer := m.source, time := ticket.expires_at,
                ticket := ticket.ticket })
      (hlog : s'.log = s.log ++ [.learned m.source ticket]) (hasked : s.asked ≤ s'.asked) :
      Move s s'
  /-- The application issues tickets to peers or clears old ones. -/
  | aged {s s' : Core} (hindex : s'.store.index = s.store.index)
      (htickets : ∀ tickets' ∈ s'.tickets, ∃ tickets ∈ s.tickets, ∀ e ∈ tickets'.entries,
        e.kind = .outbound → e ∈ tickets.entries)
      (hlog : s'.log = s.log) (hasked : s.asked ≤ s'.asked) : Move s s'

/-- Any number of moves. -/
abbrev Moves : Core → Core → Prop := Relation.ReflTransGen (Move p config env)

variable {p config env}

/-- Questions are a move. -/
theorem Moves.of_quiet (hindex : s'.store.index = s.store.index) (htickets : s'.tickets = s.tickets)
    (hlog : s'.log = s.log) (hasked : s.asked ≤ s'.asked) :
    Moves p config env s s' := .single (.quiet hindex htickets hlog hasked)

theorem Moves.of_ask (s : Core) : Moves p config env s s.ask :=
  .of_quiet rfl rfl rfl (le_succ _)

theorem Moves.told (h : Moves p config env s s') (x : Observation) (hx : x.Plain) :
    Moves p config env s (s'.observe x) := h.tail (.told x hx)

/-! ## Operations on the store -/

/-- The log of an operation on the store holds the records that it put on disk. -/
theorem Core.write_of_extends {α : Type} {operation : Store → α × Store} {records : List Record}
    (h : s.store.Extends (operation s.store).2 records) : s.write operation =
      ((operation s.store).1,
        { s with store := (operation s.store).2, log := s.log ++ records.map .wrote }) := by
  have hnew : Core.newRecords s.store (operation s.store).2 = records := by
    rw [Core.newRecords, h.journal, drop_left]
  simp only [Core.write, hnew]

/-- Evictions are moves. -/
theorem moves_evictions (ids : List (Octets 32))
    (hindex : s'.store.index = (Store.evictions ids).foldl Record.apply s.store.index)
    (htickets : s'.tickets = s.tickets) (hlog : s'.log = s.log ++ (Store.evictions ids).map .wrote)
    (hasked : s'.asked = s.asked) : Moves p config env s s' := by
  induction ids generalizing s with
  | nil =>
    refine .of_quiet hindex htickets ?_ hasked.ge
    rw [hlog]
    exact append_nil s.log
  | cons id ids ih =>
    -- The state between the first eviction and the others.
    let s₁ : Core :=
      { s with
        store := { s.store with index := s.store.index.drop id }
        log := s.log ++ [.wrote (.remove id)] }
    have hfirst : Move p config env s s₁ := .removed id rfl rfl rfl rfl
    refine .head hfirst (ih (s := s₁) hindex htickets ?_ hasked)
    rw [hlog]
    exact (append_assoc s.log [.wrote (.remove id)] _).symm

/-- A message that every check admitted is stored by moves. -/
theorem moves_storeReceived {method : DeliveryMethod} (haddressed : Addressed p config e m payload)
    (hsize : e.packed ≠ [] ∧ e.packed.length ≤ config.inboundMessageLimit)
    (hverified : e.signature_state = .verified → VerifiedBy p env s.asked m payload)
    (hpolicy : lastPolicy s.log = some (e.source, false))
    (hadmitted : ∃ n, env.blocked n e.source = false) :
    Moves p config env s (s.storeReceived env e method).2 := by
  unfold Core.storeReceived
  have hspec := Store.put_spec env.disk s.store e
  rcases hput : s.store.put env.disk e with ⟨result, store⟩
  rw [hput] at hspec
  have hstore : (Store.put env.disk s.store e).2 = store := congrArg snd hput
  -- Where the message is stored, it may be answered for.
  have hanswers : ∀ store : Store, (store.index.find e.message_id).isSome → ∀ m' payload',
      unpackPayload p.toCrypto e.packed = .ok (m', payload') →
        (store.index.find m'.message_id).isSome := by
    intro store hstored m' payload' hunpacked
    obtain ⟨rfl, -⟩ := mk.inj (Except.ok.inj (haddressed.unpacked.symm.trans hunpacked))
    exact haddressed.message_id ▸ hstored
  cases hspec with
  | inserted ids hnew _ _ hextends =>
    rw [Core.write_of_extends (hstore ▸ hextends), hput]
    dsimp only
    rw [if_pos rfl]
    -- The evictions come first, then the message with its callback.
    let s₁ : Core :=
      { s with
        store := { s.store with
          index := (Store.evictions ids).foldl Record.apply s.store.index }
        log := s.log ++ (Store.evictions ids).map .wrote }
    have hevicted : Moves p config env s s₁ := moves_evictions ids rfl rfl rfl rfl
    have hpolicy₁ : lastPolicy s₁.log = some (e.source, false) := by
      refine (lastPolicy_append fun x hx => ?_).trans hpolicy
      obtain ⟨record, -, rfl⟩ := mem_map.mp hx
      trivial
    have hnew₁ : s₁.store.index.find e.message_id = none := Store.find_evictions_of_none ids hnew
    have hindex : store.index = s₁.store.index ++ [e] := by
      rw [hextends.index, foldl_append]
      rfl
    have hlog : s.log ++ (Store.evictions ids ++ [Record.put e]).map .wrote ++ [.message e] =
        s₁.log ++ [.wrote (.put e), .message e] := by
      simp [s₁]
    have hinserted : Move p config env s₁ (.observe { s with
        store, log := s.log ++ (Store.evictions ids ++ [Record.put e]).map .wrote } (.message e)) :=
      .inserted e m payload haddressed hsize hverified hpolicy₁ hadmitted hnew₁ hindex rfl hlog rfl
    refine .tail (Moves.told (hevicted.tail hinserted) (.event _) trivial) (.answered e.packed ?_)
    refine hanswers store ?_
    rw [hindex, Index.find_append, if_pos rfl, Option.isSome_or, Option.isSome_some, Bool.or_true]
  | present hold hextends =>
    rw [Core.write_of_extends (hstore ▸ hextends), hput]
    dsimp only
    rw [if_neg Bool.false_ne_true]
    have hquiet : Moves p config env s { s with store, log := s.log ++ [].map .wrote } :=
      .of_quiet hextends.index rfl (append_nil s.log) le_rfl
    refine .tail hquiet (.answered e.packed (hanswers store ?_))
    rw [hextends.index]
    exact hold
  | @refused status store ids hstatus hextends =>
    rw [Core.write_of_extends (hstore ▸ hextends), hput]
    cases status with
    | ok => exact absurd rfl hstatus
    | _ => exact moves_evictions ids hextends.index rfl rfl rfl

/-! ## Checks -/

theorem moves_sourceBlocked (s : Core) (source : Octets 16) :
    Moves p config env s (s.sourceBlocked env source).2 := (Moves.of_ask s).told _ trivial

variable (p config env) in
/-- The stamp check asks the clock at most. -/
theorem validateInboundStamp_frame (s : Core) (m : Message) :
    let r := s.validateInboundStamp p config env m
    r.2.store = s.store ∧ r.2.tickets = s.tickets ∧ r.2.log = s.log ∧ s.asked ≤ r.2.asked := by
  unfold Core.validateInboundStamp
  split
  · exact ⟨rfl, rfl, rfl, le_rfl⟩
  · split
    · exact ⟨rfl, rfl, rfl, le_rfl⟩
    · dsimp only
      split
      · unfold Core.validateTicketStamp
        split
        · exact ⟨rfl, rfl, rfl, le_rfl⟩
        · exact ⟨rfl, rfl, rfl, le_succ _⟩
      · split
        all_goals exact ⟨rfl, rfl, rfl, le_rfl⟩

theorem moves_validateInboundStamp (s : Core) (m : Message) :
    Moves p config env s (s.validateInboundStamp p config env m).2 := by
  obtain ⟨hstore, htickets, hlog, hasked⟩ := validateInboundStamp_frame p config env s m
  exact .of_quiet (congrArg Store.index hstore) htickets hlog hasked

variable (env) in
/-- The messages and the last answer of the policy stay what they were when a ticket is
remembered. -/
theorem rememberVerifiedTicket_frame (s : Core) (m : Message) :
    let r := s.rememberVerifiedTicket env m
    r.store = s.store ∧
      s.asked ≤ r.asked ∧
      lastPolicy r.log = lastPolicy s.log := by
  unfold Core.rememberVerifiedTicket
  split
  · unfold Core.rememberTicket Core.wallTime
    dsimp only
    have hasked : s.asked ≤ s.asked + 1 + 1 := (le_succ _).trans (le_succ _)
    split
    · exact ⟨rfl, le_succ _, rfl⟩
    · split
      · exact ⟨rfl, hasked, lastPolicy_append (by simp [Observation.NoPolicy])⟩
      · exact ⟨rfl, hasked, rfl⟩
  · exact ⟨rfl, le_rfl, rfl⟩

/-- A ticket is remembered by a move. -/
theorem moves_rememberVerifiedTicket
    (hunpacked : unpackPayload p.toCrypto packed = .ok (m, payload))
    (hdestination : m.destination = config.local_destination ∨ ∃ e, Kept s e ∧ e.packed = packed)
    (hverified : VerifiedBy p env s.asked m payload)
    (hpolicy : lastPolicy s.log = some (m.source, false)) :
    Moves p config env s (s.rememberVerifiedTicket env m) := by
  unfold Core.rememberVerifiedTicket
  split
  · rename_i tickets ticket htickets hticket
    unfold Core.rememberTicket Core.wallTime
    dsimp only
    split
    · exact .of_ask s
    · have hmem := fun e => @TicketStore.mem_rememberOutbound tickets m.source ticket
        (env.wall s.asked) (env.save s.ask.asked) e
      rcases hremember : tickets.rememberOutbound m.source ticket (env.wall s.asked)
          (env.save s.ask.asked) with ⟨status, tickets'⟩
      rw [hremember] at hmem
      have hasked : s.asked ≤ s.asked + 1 + 1 := (le_succ _).trans (le_succ _)
      by_cases hok : status = .ok
      · subst hok
        refine .single (.learned packed m payload ticket hunpacked hdestination hverified hticket
          hpolicy rfl ?_ rfl hasked)
        intro tickets'' htickets''
        cases htickets''
        exact ⟨tickets, htickets, fun e he => (hmem e he).imp id And.left⟩
      · -- A ticket that is not saved changes nothing.
        have hfailed : Moves p config env s { s.ask.ask with tickets := some tickets' } := by
          refine .single (.aged rfl ?_ rfl hasked)
          intro tickets'' htickets''
          cases htickets''
          exact ⟨tickets, htickets, fun e he _ => (hmem e he).resolve_right fun h => hok h.2⟩
        cases status with
        | ok => exact absurd rfl hok
        | _ => exact hfailed
  · exact .refl

/-! ## Receiving -/

theorem moves_admitRepresentation {method : DeliveryMethod} {exempt_stamp unverified : Bool}
    (hunpacked : unpackPayload p.toCrypto packed = .ok (m, payload))
    (hdestination : m.destination = config.local_destination)
    (hsize : packed ≠ [] ∧ packed.length ≤ config.inboundMessageLimit)
    (hverified : unverified = false → VerifiedBy p env s.asked m payload)
    (hpolicy : lastPolicy s.log = some (m.source, false))
    (hadmitted : ∃ n, env.blocked n m.source = false) : Moves p config env s
      (s.admitRepresentation p config env m packed method exempt_stamp unverified).2 := by
  unfold Core.admitRepresentation
  -- What the stamp check leaves.
  have hchecked : ∃ status s₁, (if exempt_stamp then (.ok, s)
      else s.validateInboundStamp p config env m) = (status, s₁) ∧ Moves p config env s s₁ ∧
      s.asked ≤ s₁.asked ∧ s₁.log = s.log := by
    cases exempt_stamp with
    | true => exact ⟨.ok, s, rfl, .refl, le_rfl, rfl⟩
    | false =>
      obtain ⟨-, -, hlog, hasked⟩ := validateInboundStamp_frame p config env s m
      exact ⟨_, _, rfl, moves_validateInboundStamp s m, hasked, hlog⟩
  obtain ⟨status, s₁, heq, hmoves, hasked, hlog⟩ := hchecked
  rw [heq]
  dsimp only
  have hpolicy₁ : lastPolicy s₁.log = some (m.source, false) := hlog ▸ hpolicy
  split
  · exact hmoves.told _ trivial
  · refine hmoves.trans ?_
    cases unverified with
    | true =>
      exact moves_storeReceived ⟨hunpacked, rfl, hdestination, rfl⟩ hsize
        (fun h => absurd h SignatureState.noConfusion) hpolicy₁ hadmitted
    | false =>
      have hverified₁ := (hverified rfl).mono hasked
      obtain ⟨-, hasked₂, hpolicy₂⟩ := rememberVerifiedTicket_frame env s₁ m
      refine .trans (moves_rememberVerifiedTicket hunpacked (.inl hdestination) hverified₁
        hpolicy₁) ?_
      exact moves_storeReceived ⟨hunpacked, rfl, hdestination, rfl⟩ hsize
        (fun _ => hverified₁.mono hasked₂) (hpolicy₂.trans hpolicy₁) hadmitted

/-- A representation is received by moves. -/
theorem moves_receiveRepresentation (s : Core) (packed : List UInt8) (method : DeliveryMethod)
    (exempt_stamp : Bool) :
    Moves p config env s (s.receiveRepresentation p config env packed method exempt_stamp).2 := by
  unfold Core.receiveRepresentation Core.unpackInbound
  split
  · exact .refl
  · rename_i hempty
    split_ifs with hlimit
    · exact .refl
    · rcases hunpack : unpackVerified p.toCrypto (env.resolve s.asked) packed with
        status | ⟨m, signer⟩
      · exact .of_ask s
      · obtain ⟨payload, hunpacked, hsigner⟩ := of_unpackVerified hunpack
        dsimp only
        split
        · exact .of_ask s
        · rename_i hdestination
          have hpolicy : Moves p config env s (s.ask.sourceBlocked env m.source).2 :=
            .trans (Moves.of_ask s) (moves_sourceBlocked s.ask m.source)
          split_ifs with hblocked
          · exact hpolicy.told _ trivial
          · rw [Bool.not_eq_true] at hblocked
            refine hpolicy.trans (moves_admitRepresentation hunpacked (not_not.mp hdestination)
              ⟨fun h => hempty (.inl h), not_lt.mp hlimit⟩ ?_ ?_ ⟨_, hblocked⟩)
            · intro hknown
              rcases hsigner with ⟨rfl, -⟩ | ⟨-, hverify⟩
              · exact absurd hknown (by decide)
              · exact ⟨s.asked, by simp only [Core.sourceBlocked, Core.ask, Core.observe]; omega,
                  hverify⟩
            · rw [← hblocked]
              simp [lastPolicy, Core.sourceBlocked, Core.observe]

/-! ## Late verification -/

variable (p config env)

/-- Moves that concern the message of one id. -/
def MovesAt (id : Octets 32) (s s' : Core) : Prop :=
  Moves p config env s s' ∧
    ∀ other, other ≠ id → s'.store.index.find other = s.store.index.find other

variable {p config env}

theorem MovesAt.of_store_eq {id : Octets 32} (h : Moves p config env s s')
    (hstore : s'.store = s.store) : MovesAt p config env id s s' :=
  ⟨h, fun _ _ => by rw [hstore]⟩

theorem MovesAt.trans {id : Octets 32} {s₁ s₂ s₃ : Core} (h₁ : MovesAt p config env id s₁ s₂)
    (h₂ : MovesAt p config env id s₂ s₃) : MovesAt p config env id s₁ s₃ :=
  ⟨.trans h₁.1 h₂.1, fun other hother => (h₂.2 other hother).trans (h₁.2 other hother)⟩

theorem MovesAt.told {id : Octets 32} (h : MovesAt p config env id s s') (x : Observation)
    (hx : x.Plain) : MovesAt p config env id s (s'.observe x) :=
  ⟨h.1.told x hx, h.2⟩

/-- A removal concerns the message that is removed. -/
theorem movesAt_remove (s : Core) (id : Octets 32) :
    MovesAt p config env id s (s.write (Store.remove env.disk · id)).2 := by
  rcases Store.remove_extends env.disk s.store id with hextends | hextends
  all_goals rw [Core.write_of_extends hextends]
  · refine ⟨.single (.removed id hextends.index rfl rfl rfl), fun other hother => ?_⟩
    rw [hextends.index]
    exact Index.find_drop_of_ne hother.symm
  · exact ⟨.of_quiet hextends.index rfl (append_nil s.log) le_rfl,
      fun other _ => congrArg (Index.find · other) hextends.index⟩

theorem movesAt_dropPending (s : Core) (id : Octets 32) (result : Status) :
    MovesAt p config env id s (s.dropPending env id result).2 := by
  have hremove := @movesAt_remove p config env s id
  unfold Core.dropPending
  rcases hwrite : s.write (Store.remove env.disk · id) with ⟨status, s₁⟩
  rw [hwrite] at hremove
  cases status with
  | ok => exact hremove.told (.event _) trivial
  | _ => exact hremove

/-- A retained message whose signature holds is marked as verified. -/
theorem movesAt_updateSignature (hkept : Kept s e)
    (hunpacked : unpackPayload p.toCrypto e.packed = .ok (m, payload))
    (hid : m.message_id = e.message_id) (hverified : VerifiedBy p env s.asked m payload) :
    MovesAt p config env e.message_id s
      (s.write (Store.updateSignature env.disk · e.message_id .verified)).2 := by
  rcases Store.updateSignature_extends env.disk s.store e.message_id .verified with
    hextends | hextends
  all_goals rw [Core.write_of_extends hextends]
  · refine ⟨.single (.promoted e m payload hkept hunpacked hid hverified hextends.index rfl rfl
      rfl), fun other hother => ?_⟩
    rw [hextends.index]
    exact Index.find_modify_of_ne (fun _ => rfl) hother.symm
  · exact ⟨.of_quiet hextends.index rfl (append_nil s.log) le_rfl,
      fun other _ => congrArg (Index.find · other) hextends.index⟩

/-- A retained message that failed a check is removed. -/
theorem movesAt_failPending (s : Core) (id : Octets 32) (status : Status) :
    MovesAt p config env id s (s.failPending env id status).2 := by
  have hremove := @movesAt_remove p config env s id
  unfold Core.failPending
  rcases hwrite : s.write (Store.remove env.disk · id) with ⟨result, s₁⟩
  rw [hwrite] at hremove
  cases result with
  | ok => exact (hremove.told (.signature _ _) trivial).told (.event _) trivial
  | _ => exact hremove

/-- A retained message that passed the checks is marked, after its ticket was remembered. -/
theorem movesAt_passPending (hkept : Kept s e)
    (hunpacked : unpackPayload p.toCrypto e.packed = .ok (m, payload))
    (hid : m.message_id = e.message_id) (hverified : VerifiedBy p env s.asked m payload)
    (hpolicy : lastPolicy s.log = some (m.source, false)) :
    MovesAt p config env e.message_id s (s.passPending env e.message_id m).2 := by
  obtain ⟨hstore, hasked, -⟩ := rememberVerifiedTicket_frame env s m
  have hticket : Moves p config env s (s.rememberVerifiedTicket env m) :=
    moves_rememberVerifiedTicket hunpacked (.inr ⟨e, hkept, rfl⟩) hverified hpolicy
  have hkept₁ : Kept (s.rememberVerifiedTicket env m) e := ⟨hstore ▸ hkept.1, hkept.2⟩
  have hmarked := (MovesAt.of_store_eq hticket hstore).trans
    (movesAt_updateSignature hkept₁ hunpacked hid (hverified.mono hasked))
  unfold Core.passPending
  dsimp only
  rcases hwrite : (s.rememberVerifiedTicket env m).write
      (Store.updateSignature env.disk · e.message_id .verified) with ⟨result, s₁⟩
  rw [hwrite] at hmarked
  cases result with
  | ok => exact hmarked.told (.signature _ _) trivial
  | _ => exact hmarked

/-- A retained message that was unpacked with its signature is settled by moves of its own. -/
theorem movesAt_settlePending {checked : Except Status Message} (hkept : Kept s e)
    (hchecked : ∀ m, checked = .ok m → ∃ payload,
      unpackPayload p.toCrypto e.packed = .ok (m, payload) ∧ m.message_id = e.message_id ∧
        VerifiedBy p env s.asked m payload ∧ lastPolicy s.log = some (m.source, false)) :
    MovesAt p config env e.message_id s (s.settlePending p config env e.message_id checked).2 := by
  unfold Core.settlePending
  cases checked with
  | error status => exact movesAt_failPending s e.message_id status
  | ok m =>
    obtain ⟨payload, hunpacked, hid, hverified, hpolicy⟩ := hchecked m rfl
    obtain ⟨hstore, -, hlog, hasked⟩ := validateInboundStamp_frame p config env s m
    have hstamped : MovesAt p config env e.message_id s (s.validateInboundStamp p config env m).2 :=
      .of_store_eq (moves_validateInboundStamp s m) hstore
    rcases hvalidate : s.validateInboundStamp p config env m with ⟨status, s₁⟩
    rw [hvalidate] at hstore hlog hasked hstamped
    dsimp only
    rw [hvalidate]
    cases status with
    | ok =>
      have hkept₁ : Kept s₁ e := ⟨hstore ▸ hkept.1, hkept.2⟩
      exact hstamped.trans (movesAt_passPending hkept₁ hunpacked hid (hverified.mono hasked)
        (hlog ▸ hpolicy))
    | _ => exact hstamped.trans (movesAt_failPending s₁ e.message_id _)

/-- One round of the late verification is moves of the message it is about. -/
theorem movesAt_verifyOne (hkept : Kept s e) :
    MovesAt p config env e.message_id s (s.verifyOne p config env e.message_id).2 := by
  unfold Core.verifyOne Store.readPacked
  rw [hkept.1]
  dsimp only
  split_ifs with hempty
  · exact .of_store_eq .refl rfl
  · dsimp only
    split
    · exact movesAt_dropPending s e.message_id _
    · have hask : MovesAt p config env e.message_id s s.ask := .of_store_eq (.of_ask s) rfl
      unfold Core.unpackInbound
      rcases hunpack : unpackVerified p.toCrypto (env.resolve s.asked) e.packed with
        status | ⟨m, signer⟩
      · exact hask.trans (movesAt_settlePending hkept nofun)
      · obtain ⟨payload, hunpacked, hsigner⟩ := of_unpackVerified hunpack
        dsimp only
        split
        · rename_i hid
          have hpolicy : MovesAt p config env e.message_id s (s.ask.sourceBlocked env m.source).2 :=
            hask.trans (.of_store_eq (moves_sourceBlocked s.ask m.source) rfl)
          split
          · exact hpolicy.trans (movesAt_dropPending _ _ _)
          · rename_i hblocked
            rw [Bool.not_eq_true] at hblocked
            split_ifs with hknown
            · exact hpolicy
            · refine hpolicy.trans (movesAt_settlePending hkept ?_)
              rintro _ ⟨⟩
              obtain ⟨-, hverify⟩ := hsigner.resolve_left fun h => hknown h.1
              refine ⟨payload, hunpacked, hid, ⟨s.asked, ?_, hverify⟩, ?_⟩
              · exact (lt_succ_self _).trans (lt_succ_self _)
              · rw [← hblocked]
                simp [lastPolicy, Core.sourceBlocked, Core.observe]
        · split
          · exact hask
          · exact hask.trans (movesAt_settlePending hkept nofun)

/-- The loop of the late verification, over different messages that are not verified. -/
theorem moves_verifyAll (pending : List StoreMessage) (hkept : ∀ e ∈ pending, Kept s e)
    (hdistinct : Index.Distinct pending) : Moves p config env s
      (s.verifyAll p config env (pending.map StoreMessage.message_id)).2 := by
  induction pending generalizing s with
  | nil => exact .refl
  | cons e pending ih =>
    rw [forall_mem_cons] at hkept
    rw [Index.Distinct, map_cons, nodup_cons] at hdistinct
    obtain ⟨hmoves, hframe⟩ := @movesAt_verifyOne p config env _ _ hkept.1
    rw [map_cons, Core.verifyAll]
    rcases hone : s.verifyOne p config env e.message_id with ⟨status, s₁⟩
    rw [hone] at hmoves hframe
    -- The messages of the later rounds are what they were.
    have hkept₁ : ∀ x ∈ pending, Kept s₁ x := by
      intro x hx
      have hne : x.message_id ≠ e.message_id := fun h => hdistinct.1 (h ▸ mem_map_of_mem hx)
      exact ⟨(hframe x.message_id hne).trans (hkept.2 x hx).1, (hkept.2 x hx).2⟩
    cases status with
    | ok => exact hmoves.trans (ih hkept₁ hdistinct.2)
    | _ => exact hmoves

/-- The messages that the late verification collects are different, and they are not verified. -/
theorem pending_spec (hdistinct : s.store.index.Distinct) (source : Option (Octets 16)) :
    (∀ e ∈ s.pending source, Kept s e) ∧ Index.Distinct (s.pending source) := by
  constructor
  · intro e he
    obtain ⟨hmem, hcollect⟩ := mem_filter.mp (mem_of_mem_take he)
    have hunverified : e.signature_state = .unverified := (of_decide_eq_true hcollect).1
    exact ⟨Index.find_of_mem hdistinct hmem, by rw [hunverified]; nofun⟩
  · exact hdistinct.sublist (((take_sublist _ _).trans filter_sublist).map _)

/-! ## The entry points -/

theorem moves_receivePacket (s : Core) (packet : List UInt8) :
    Moves p config env s (s.receivePacket p config env packet).2 := by
  have hratchets : Moves p config env s (s.privateRatchets env).2 := .of_ask s
  unfold Core.receivePacket
  split
  · exact .refl
  · rcases hask : s.privateRatchets env with ⟨status, s₁⟩
    rw [hask] at hratchets
    -- The bytes are decrypted and unpacked once before they are received.
    have hunpack : Moves p config env s (s₁.opportunisticUnpack p config env packet).2 := by
      refine hratchets.trans ?_
      unfold Core.opportunisticUnpack
      split
      · exact .refl
      · split
        · exact .refl
        · dsimp only
          split
          · rename_i heq
            obtain ⟨-, rfl⟩ := mk.inj heq
            exact Moves.of_ask s₁
          · rename_i heq
            obtain ⟨-, rfl⟩ := mk.inj heq
            split
            all_goals
              rename_i heq
              obtain ⟨-, rfl⟩ := mk.inj heq
              exact (Moves.of_ask s₁).trans (Moves.of_ask s₁.ask)
    cases status with
    | ok =>
      dsimp only
      rcases hresult : s₁.opportunisticUnpack p config env packet with ⟨failure | packed, s₂⟩
      · rw [hresult] at hunpack
        exact hunpack
      · rw [hresult] at hunpack
        exact hunpack.trans (moves_receiveRepresentation s₂ packed .opportunistic false)
    | _ => exact hratchets

theorem moves_directLinkPacketReceived (s : Core) (context : UInt8) (plaintext : List UInt8) :
    Moves p config env s (s.directLinkPacketReceived p config env context plaintext) := by
  have hreceive := @moves_receiveRepresentation p config env s plaintext .direct false
  unfold Core.directLinkPacketReceived
  split
  · exact .refl
  · rcases hresult : s.receiveRepresentation p config env plaintext .direct false with
      ⟨⟨status, inserted⟩, s₁⟩
    rw [hresult] at hreceive
    cases status with
    | ok => exact hreceive.told _ trivial
    | _ => exact hreceive

theorem moves_propagationSyncReceive (s : Inbox) (transient_id : Octets 32) (message : List UInt8) :
    Moves p config env s.toCore
      (s.propagationSyncReceive p config env transient_id message).2.toCore := by
  have hratchets : Moves p config env s.toCore (s.privateRatchets env).2 := .of_ask s.toCore
  unfold Inbox.propagationSyncReceive
  split
  · exact .refl
  · rcases hask : s.privateRatchets env with ⟨status, s₁⟩
    rw [hask] at hratchets
    cases status with
    | ok =>
      dsimp only
      have hdecrypt := hratchets.trans (Moves.of_ask s₁)
      split
      · rename_i heq
        obtain ⟨-, rfl⟩ := mk.inj heq
        exact hdecrypt
      · rename_i plaintext s₂ heq
        obtain ⟨-, rfl⟩ := mk.inj heq
        have hreceive := hdecrypt.trans (moves_receiveRepresentation s₁.ask
          (message.take 16 ++ plaintext) .propagated false)
        rcases hresult : s₁.ask.receiveRepresentation p config env (message.take 16 ++ plaintext)
          .propagated false with ⟨⟨status, inserted⟩, s₂⟩
        rw [hresult] at hreceive
        cases status with
        | ok => exact hreceive
        | _ => exact hreceive
    | _ => exact hratchets

/-- Remembering a paper message concerns nothing but the paper messages. -/
theorem rememberPaperTransient_toCore (s : Inbox) (t : PaperTransient) :
    (s.rememberPaperTransient t).toCore = s.toCore := by
  unfold Inbox.rememberPaperTransient
  split
  · rfl
  · rfl

/-- What is remembered of a paper message that was imported before. -/
def Inbox.repeatedPaper (p : Provider) (s : Inbox) (paper : List UInt8) : Option PaperTransient :=
  if paper.length ≤ 16 ∨ paper.length > paperMaxSize then none
  else s.paperTransientSeen (p.sha256 paper)

/-- What is remembered of the paper message that a call gives again. -/
def Inbox.repeated (p : Provider) (s : Inbox) : Inbox.Call → Option PaperTransient
  | .paper paper => s.repeatedPaper p paper
  | .uri uri =>
    match Inbox.uriDecode uri with
    | .error _ => none
    | .ok paper => s.repeatedPaper p paper
  | _ => none

theorem moves_receivePaper {s : Inbox} {paper : List UInt8}
    (hnew : s.repeatedPaper p paper = none) :
    Moves p config env s.toCore (s.receivePaper p config env paper).2.toCore := by
  have hratchets : Moves p config env s.toCore (s.privateRatchets env).2 := .of_ask s.toCore
  unfold Inbox.receivePaper
  unfold Inbox.repeatedPaper at hnew
  split_ifs with hlength
  · exact .refl
  · rw [if_neg hlength] at hnew
    dsimp only
    split
    · rename_i t ht
      rw [hnew] at ht
      cases ht
    · rcases hask : s.privateRatchets env with ⟨status, s₁⟩
      rw [hask] at hratchets
      have hunpack : Moves p config env s.toCore (Inbox.paperUnpack p config env s₁ paper).2 := by
        refine hratchets.trans ?_
        unfold Inbox.paperUnpack Core.decryptInbound
        split
        · exact .refl
        · split
          all_goals
            rename_i heq
            obtain ⟨-, rfl⟩ := mk.inj heq
            exact Moves.of_ask s₁
      cases status with
      | ok =>
        dsimp only
        rcases hresult : Inbox.paperUnpack p config env s₁ paper with
          ⟨failure | ⟨parsed, packed⟩, s₂⟩
        · rw [hresult] at hunpack
          exact hunpack
        · rw [hresult] at hunpack
          have hreceive := hunpack.trans (moves_receiveRepresentation s₂ packed .propagated true)
          dsimp only
          rcases hreceived : s₂.receiveRepresentation p config env packed .propagated true with
            ⟨⟨status, inserted⟩, s₃⟩
          rw [hreceived] at hreceive
          cases status with
          | ok =>
            rw [rememberPaperTransient_toCore]
            exact hreceive
          | _ => exact hreceive
      | _ => exact hratchets

theorem moves_issue (s : Core) (peer : Octets 16) (random : Option (Octets 16)) :
    Moves p config env s (Inbox.issue env s peer random) := by
  unfold Inbox.issue
  split
  · exact .refl
  · rename_i tickets htickets
    refine .single (.aged rfl ?_ rfl ((le_succ _).trans (le_succ _)))
    intro tickets' htickets'
    cases htickets'
    refine ⟨tickets, htickets, fun e he hkind => ?_⟩
    rcases tickets.issue_cases peer _ _ random with ⟨hsame, -⟩ | ⟨ticket, -, -, -, hissue⟩
    · exact hsame ▸ he
    · rw [hissue] at he
      refine (mem_append.mp he).resolve_right fun h => ?_
      rw [mem_singleton.mp h] at hkind
      cases hkind

theorem moves_cleanup (s : Core) : Moves p config env s (Inbox.cleanup env s) := by
  unfold Inbox.cleanup
  split
  · exact .refl
  · rename_i tickets htickets
    refine .single (.aged rfl ?_ rfl ((le_succ _).trans (le_succ _)))
    intro tickets' htickets'
    cases htickets'
    exact ⟨tickets, htickets, fun e he _ => TicketStore.mem_cleanup he⟩

/-- A call that gives no paper message again is moves. -/
theorem moves_step {s : Inbox} (hdistinct : s.store.index.Distinct) {call : Inbox.Call}
    (hnew : s.repeated p call = none) :
    Moves p config env s.toCore (s.step p config env call).toCore := by
  cases call with
  | packet packet => exact moves_receivePacket s.toCore packet
  | linkPacket context plaintext => exact moves_directLinkPacketReceived s.toCore context plaintext
  | resource status data =>
    show Moves p config env s.toCore (s.toCore.directResourceReceived p config env status data)
    unfold Core.directResourceReceived
    split
    · exact .refl
    · exact moves_receiveRepresentation s.toCore data .direct false
  | sync transient_id message => exact moves_propagationSyncReceive s transient_id message
  | paper paper => exact moves_receivePaper hnew
  | uri uri =>
    dsimp only [Inbox.step, Inbox.receiveUri]
    rw [Inbox.repeated] at hnew
    split
    · exact .refl
    · rename_i paper hdecode
      rw [hdecode] at hnew
      exact moves_receivePaper hnew
  | verify source =>
    obtain ⟨hkept, hpending⟩ := pending_spec hdistinct source
    exact moves_verifyAll _ hkept hpending
  | remove id => exact (movesAt_remove s.toCore id).1
  | issue peer random => exact moves_issue s.toCore peer random
  | cleanup => exact moves_cleanup s.toCore

/-- A paper message that is given again is answered without a look at the store. -/
theorem step_of_repeated {s : Inbox} {call : Inbox.Call} {t : PaperTransient}
    (h : s.repeated p call = some t) :
    s.step p config env call = { s with toCore := s.toCore.observe (.repeated t.packed) } := by
  have hpaper : ∀ paper, s.repeatedPaper p paper = some t → (s.receivePaper p config env paper).2 =
        { s with toCore := s.toCore.observe (.repeated t.packed) } := by
    intro paper hseen
    unfold Inbox.repeatedPaper at hseen
    split at hseen
    · cases hseen
    · rename_i hlength
      unfold Inbox.receivePaper
      rw [if_neg hlength]
      dsimp only
      rw [hseen]
  cases call with
  | paper paper => exact hpaper paper h
  | uri uri =>
    rw [Inbox.repeated] at h
    rw [Inbox.step, Inbox.receiveUri]
    cases hdecode : Inbox.uriDecode uri with
    | error status =>
      rw [hdecode] at h
      cases h
    | ok paper =>
      rw [hdecode] at h
      exact hpaper paper h
  | _ => cases h

end Reticulum.Lxmf
