import Reticulum.Lxmf.Admission
import Reticulum.Base.Run

/-!
# Messages that were accepted

A sender whose message was answered with `LXMF_OK` may forget it. `Account` keeps what is owed from
then on: the messages of which genuine bytes were answered for and which neither the application
removed nor a cap evicted since, and those of them that a late verification has seen with their
signer known. `Account.Honoured` says that the first are stored and the second are stored as
verified.

The router does not always honour the account. The late verification judges the copy that was
retained, which need not be the copy that was answered for, and it asks for a stamp again, without
the exemption of a paper message and at a later time. `honoured_iff` says exactly when the account
is honoured in every state of a run.
-/

namespace Reticulum.Lxmf

open List Option Index

/-- The id and the source of bytes that the source signed, given whose every source is. -/
def genuine (p : Provider) (owner : Octets 16 → Identity) (packed : List UInt8) :
    Option (Octets 32 × Octets 16) :=
  match unpackPayload p.toCrypto packed with
  | .error _ => none
  | .ok (m, payload) =>
    if identityVerify p.toCrypto (owner m.source) (preimage m payload m.message_id) m.signature then
      some (m.message_id, m.source)
    else none

/-! ## The account -/

/-- What the router owes. -/
structure Account where
  /-- The id and the source of each message that was answered for. -/
  owed : List (Octets 32 × Octets 16) := []
  /-- The messages that have to be verified. -/
  due : List (Octets 32) := []
deriving DecidableEq

/-- What an observation outside the late verification does to the account. A removal is one by the
application or an eviction there. -/
def Account.book (p : Provider) (owner : Octets 16 → Identity) (a : Account) :
    Observation → Account
  | .wrote (.remove id) =>
    { owed := a.owed.filter fun o => o.1 ≠ id, due := a.due.filter fun other => other ≠ id }
  | .answered packed | .repeated packed =>
    { a with owed := a.owed ++ (genuine p owner packed).toList }
  | _ => a

/-- What a late verification makes due: what is owed to sources that are known. -/
def Account.verifying (known : Octets 16 → Bool) (a : Account) : Account :=
  { a with due := a.due ++ (a.owed.filter fun o => known o.2).map Prod.fst }

/-- The messages owed are there, and those due are verified. -/
structure Account.Honoured (a : Account) (index : Index) : Prop where
  owed : ∀ o ∈ a.owed, (index.find o.1).isSome
  due : ∀ id ∈ a.due, ∃ e, index.find id = some e ∧ e.signature_state = .verified

/-- The receiving half with its account. -/
structure Ledger where
  inbox : Inbox
  account : Account
deriving DecidableEq

/-- Whether the signer of a source is known when the next question is asked. -/
def Core.known (env : Environment) (s : Core) (source : Octets 16) : Bool :=
  (env.resolve s.asked source).isSome

/-- One call, with what it does to the account. -/
def Ledger.step (p : Provider) (config : Config) (env : Environment) (owner : Octets 16 → Identity)
    (l : Ledger) (call : Inbox.Call) : Ledger :=
  let inbox := l.inbox.step p config env call
  match call with
  | .verify _ => { inbox, account := l.account.verifying (l.inbox.known env) }
  | _ =>
    { inbox
      account := (inbox.log.drop l.inbox.log.length).foldl (Account.book p owner) l.account }

/-! ## Moves and the account -/

section Moves

variable {p : Provider} {config : Config} {env : Environment} {owner : Octets 16 → Identity}

variable {packed : List UInt8}

variable {a : Account} {index : Index}

section

variable (h : a.Honoured index)
include h

/-- A message that is answered for may be owed when it is there. -/
theorem Account.Honoured.answer
    (hstored : ∀ o, genuine p owner packed = some o → (index.find o.1).isSome) :
    Account.Honoured { a with owed := a.owed ++ (genuine p owner packed).toList } index where
  owed := fun o ho =>
    (mem_append.mp ho).elim (h.owed o) fun ho => hstored o (mem_toList.mp ho)
  due := h.due

/-- A removal takes the message off the account. -/
theorem Account.Honoured.remove (id : Octets 32) :
    (a.book p owner (.wrote (.remove id))).Honoured (index.drop id) where
  owed := fun o ho => by
    obtain ⟨ho, hne⟩ := mem_filter.mp ho
    rw [find_drop_of_ne (of_decide_eq_true hne).symm]
    exact h.owed o ho
  due := fun other hother => by
    obtain ⟨hother, hne⟩ := mem_filter.mp hother
    rw [find_drop_of_ne (of_decide_eq_true hne).symm]
    exact h.due other hother

/-- A new message leaves the others where they are. -/
theorem Account.Honoured.insert (e : StoreMessage) : a.Honoured (index ++ [e]) where
  owed := fun o ho => by
    rw [find_append, isSome_or, h.owed o ho, Bool.true_or]
  due := fun id hid => by
    obtain ⟨e', he', hstate⟩ := h.due id hid
    exact ⟨e', by rw [find_append, he', some_or], hstate⟩

/-- A message that is verified stays where it is. -/
theorem Account.Honoured.promote (id : Octets 32) :
    a.Honoured (index.modify id fun e => { e with signature_state := .verified }) where
  owed := fun o ho => by
    rw [isSome_find_modify]
    · exact h.owed o ho
    · exact fun _ => rfl
  due := fun other hother => by
    obtain ⟨e', he', hstate⟩ := h.due other hother
    by_cases hid : id = other
    · subst hid
      refine ⟨{ e' with signature_state := .verified }, ?_, rfl⟩
      rw [find_modify, he']
      · rfl
      · exact fun _ => rfl
    · refine ⟨e', ?_, hstate⟩
      rw [find_modify_of_ne _ hid]
      · exact he'
      · exact fun _ => rfl

end

variable {s s' : Core}

/-- Every move keeps the account honoured. -/
theorem Account.Honoured.move (h : a.Honoured s.store.index) (hmove : Move p config env s s') :
    ∃ xs, s'.log = s.log ++ xs ∧ (xs.foldl (Account.book p owner) a).Honoured s'.store.index := by
  cases hmove with
  | quiet hindex _ hlog _ => exact ⟨[], by rw [hlog, append_nil], hindex ▸ h⟩
  | told x hx =>
    refine ⟨[x], rfl, ?_⟩
    cases x with
    | event | signature | proved | policy => exact h
    | _ => exact hx.elim
  | answered packed hstored =>
    refine ⟨[.answered packed], rfl, h.answer fun o ho => ?_⟩
    unfold genuine at ho
    cases hunpack : unpackPayload p.toCrypto packed with
    | error status =>
      rw [hunpack] at ho
      cases ho
    | ok result =>
      rw [hunpack] at ho
      dsimp only at ho
      split at ho
      · cases ho
        exact hstored _ _ hunpack
      · cases ho
  | removed id hindex _ hlog _ =>
    have hremoved : (a.book p owner (.wrote (.remove id))).Honoured (s.store.index.drop id) :=
      h.remove id
    exact ⟨[.wrote (.remove id)], hlog, hindex ▸ hremoved⟩
  | inserted e _ _ _ _ _ _ _ _ hindex _ hlog _ => exact ⟨[_, _], hlog, hindex ▸ h.insert e⟩
  | promoted e _ _ _ _ _ _ hindex _ hlog _ =>
    exact ⟨[_], hlog, hindex ▸ h.promote e.message_id⟩
  | learned _ _ _ _ _ _ _ _ _ hindex _ hlog _ => exact ⟨[_], hlog, hindex ▸ h⟩
  | aged hindex _ hlog _ => exact ⟨[], by rw [hlog, append_nil], hindex ▸ h⟩

/-- A sequence of moves keeps the account honoured. -/
theorem Account.Honoured.moves (h : a.Honoured s.store.index) (hmoves : Moves p config env s s') :
    ((s'.log.drop s.log.length).foldl (Account.book p owner) a).Honoured s'.store.index := by
  have hgrown : ∃ xs, s'.log = s.log ++ xs ∧
      (xs.foldl (.book p owner) a).Honoured s'.store.index := by
    induction hmoves with
    | refl => exact ⟨[], (append_nil s.log).symm, h⟩
    | tail _ hmove ih =>
      obtain ⟨xs, hlog, hxs⟩ := ih
      obtain ⟨ys, hlog', hys⟩ := hxs.move hmove
      refine ⟨xs ++ ys, by rw [hlog', hlog, append_assoc], ?_⟩
      rw [foldl_append]
      exact hys
  obtain ⟨xs, hlog, hxs⟩ := hgrown
  rw [hlog, drop_left]
  exact hxs

end Moves

/-! ## What is retained -/

/-- What the router knows of the messages that it retains until their signer is known. -/
structure Retaining (p : Provider) (config : Config) (blocked : Octets 16 → Bool) (index : Index) :
    Prop where
  distinct : index.Distinct
  waiting : ∀ e ∈ (index : List StoreMessage), e.signature_state ≠ .verified →
    e.packed ≠ [] ∧ e.packed.length ≤ config.inboundMessageLimit ∧ blocked e.source = false ∧
      ∃ m payload, Addressed p config e m payload

section Retaining

variable {p : Provider} {config : Config} {env : Environment} {blocked : Octets 16 → Bool}

variable {s s' : Core}

section

variable (hblocked : ∀ n, env.blocked n = blocked)
include hblocked

/-- Every move keeps what is known of the messages that are retained, with a fixed block list. -/
theorem Retaining.move
    (h : Retaining p config blocked s.store.index) (hmove : Move p config env s s') :
    Retaining p config blocked s'.store.index := by
  cases hmove with
  | quiet hindex | learned _ _ _ _ _ _ _ _ _ hindex | aged hindex =>
    rw [hindex]
    exact h
  | told | answered => exact h
  | removed id hindex =>
    rw [hindex]
    exact ⟨h.distinct.drop id, fun e he => h.waiting e (mem_of_mem_filter he)⟩
  | inserted e m payload haddressed hsize _ _ hadmitted hnew hindex =>
    rw [hindex]
    refine ⟨h.distinct.append hnew, fun x hx hstate => ?_⟩
    rcases mem_append.mp hx with hx | hx
    · exact h.waiting x hx hstate
    · obtain rfl := mem_singleton.mp hx
      obtain ⟨n, hn⟩ := hadmitted
      exact ⟨hsize.1, hsize.2, hblocked n ▸ hn, m, payload, haddressed⟩
  | promoted e _ _ _ _ _ _ hindex =>
    rw [hindex]
    refine ⟨h.distinct.modify e.message_id fun _ => rfl, fun x hx hstate => ?_⟩
    obtain ⟨y, hy, rfl⟩ := mem_map.mp hx
    split_ifs at hstate with hid
    · exact absurd rfl hstate
    · rw [if_neg hid]
      exact h.waiting y hy hstate

/-- Sequences of moves keep it, too. -/
theorem Retaining.moves
    (h : Retaining p config blocked s.store.index) (hmoves : Moves p config env s s') :
    Retaining p config blocked s'.store.index := by
  induction hmoves with
  | refl => exact h
  | tail _ hmove ih => exact ih.move hblocked hmove

/-- Every call keeps what is known of the messages that are retained. -/
theorem Retaining.step {s : Inbox}
    (h : Retaining p config blocked s.store.index) (call : Inbox.Call) :
    Retaining p config blocked (s.step p config env call).store.index := by
  cases hrepeated : s.repeated p call with
  | none => exact h.moves hblocked (moves_step h.distinct hrepeated)
  | some t =>
    rw [step_of_repeated hrepeated]
    exact h

end

end Retaining

/-! ## The late verification -/

section Verification

variable (p : Provider) (config : Config) (env : Environment) (owner : Octets 16 → Identity)

/-- What the stamp check of the late verification says of the copy that was retained. -/
def Core.lateStamp (s : Core) (e : StoreMessage) : Status :=
  match unpackPayload p.toCrypto e.packed with
  | .error status => status
  | .ok (m, _) => ((s.ask.sourceBlocked env m.source).2.validateInboundStamp p config env m).1

/-- The copy that was retained passes the late verification. -/
def Core.Passes (s : Core) (e : StoreMessage) : Prop :=
  (genuine p owner e.packed).isSome ∧ s.lateStamp p config env e = .ok

instance (s : Core) (e : StoreMessage) : Decidable (s.Passes p config env owner e) :=
  inferInstanceAs (Decidable (_ ∧ _))

/-- What a round of the late verification makes of a message that was retained. -/
def Core.settled (s : Core) (e : StoreMessage) : Option StoreMessage :=
  if ¬ s.known env e.source then some e
  else if s.Passes p config env owner e then some { e with signature_state := .verified }
  else none

/-- The state in which the late verification comes to an id of its list. -/
def Core.turn (s : Core) (ids : List (Octets 32)) (id : Octets 32) : Core :=
  (s.verifyAll p config env (ids.takeWhile fun other => other ≠ id)).2

variable {p config env owner}

variable {s : Core} {e : StoreMessage} {id : Octets 32}

/-- With a disk that works, a message that failed a check is gone. -/
theorem failPending_of_disk (hdisk : ∀ n, env.disk n = .ok) (hfind : s.store.index.find id = some e)
    (status : Status) : (s.failPending env id status).1 = .ok ∧
      (s.failPending env id status).2.store.index.find id = none := by
  unfold Core.failPending Core.write Store.remove Store.removeAt Store.append
  dsimp only
  rw [hfind]
  rw [if_pos (hdisk _)]
  exact ⟨rfl, find_drop _ id⟩

/-- With a disk that works, a message that passed the checks is marked. -/
theorem passPending_of_disk (hdisk : ∀ n, env.disk n = .ok) (hfind : s.store.index.find id = some e)
    (hstate : e.signature_state ≠ .verified) (m : Message) : (s.passPending env id m).1 = .ok ∧
      (s.passPending env id m).2.store.index.find id =
        some { e with signature_state := .verified } := by
  obtain ⟨hstore, -, -⟩ := rememberVerifiedTicket_frame env s m
  unfold Core.passPending Core.write Store.updateSignature Store.update Store.append
  dsimp only
  rw [hstore, hfind]
  dsimp only
  rw [if_neg (by simpa using hstate), if_pos (hdisk _)]
  refine ⟨rfl, ?_⟩
  show (Index.modify s.store.index id _).find id = _
  rw [find_modify, hfind]
  · rfl
  · exact fun _ => rfl

variable {blocked : Octets 16 → Bool}

variable (hdisk : ∀ n, env.disk n = .ok) (hblocked : ∀ n, env.blocked n = blocked)
  (howner : ∀ n source identity, env.resolve n source = some identity → identity = owner source)
  (hretaining : Retaining p config blocked s.store.index)
include hdisk hblocked howner hretaining

/-- What a round of the late verification does to the message that it is about. -/
theorem verifyOne_settled (hkept : Kept s e) : (s.verifyOne p config env e.message_id).1 = .ok ∧
      (s.verifyOne p config env e.message_id).2.store.index.find e.message_id =
        s.settled p config env owner e := by
  obtain ⟨hempty, hlimit, hadmitted, m, payload, haddressed⟩ :=
    hretaining.waiting e (mem_of_find hkept.1) hkept.2
  have hadmit : (s.ask.sourceBlocked env m.source).1 = false := by
    show env.blocked _ m.source = false
    rw [hblocked, haddressed.source, hadmitted]
  have hread : s.store.readPacked e.message_id = .ok e.packed := by
    rw [Store.readPacked, hkept.1]
    exact if_neg hempty
  have hunpack := unpackVerified_of_unpackPayload env s.asked haddressed.unpacked
  unfold Core.verifyOne Core.unpackInbound
  rw [hread]
  dsimp only
  rw [if_neg (Nat.not_lt.mpr hlimit), hunpack]
  cases hresolve : env.resolve s.asked m.source with
  | none =>
    -- The signer is not known, and the message stays.
    have hunknown : s.settled p config env owner e = some e := by
      rw [Core.settled, Core.known, ← haddressed.source, hresolve]
      rfl
    rw [hunknown]
    dsimp only
    rw [if_pos haddressed.message_id, hadmit]
    exact ⟨rfl, hkept.1⟩
  | some identity =>
    obtain rfl := howner _ _ _ hresolve
    have hgenuine : genuine p owner e.packed = if identityVerify p.toCrypto (owner m.source)
        (preimage m payload m.message_id) m.signature then some (m.message_id, m.source)
        else none := by rw [genuine, haddressed.unpacked]
    have hknown : s.known env e.source = true := by
      rw [Core.known, ← haddressed.source, hresolve]
      rfl
    have hsettled : s.settled p config env owner e =
        if s.Passes p config env owner e then some { e with signature_state := .verified }
        else none := by
      rw [Core.settled, hknown]
      rfl
    rw [hsettled]
    dsimp only
    cases hverify : identityVerify p.toCrypto (owner m.source) (preimage m payload m.message_id)
        m.signature with
    | false =>
      -- The copy is not genuine, and it is removed.
      have hfails : ¬ s.Passes p config env owner e := by
        rw [Core.Passes, hgenuine, hverify]
        exact fun h => absurd h.1 Bool.false_ne_true
      rw [if_neg hfails]
      exact failPending_of_disk (s := s.ask) hdisk hkept.1 _
    | true =>
      -- The copy is genuine, and its stamp decides.
      have hstamp : s.Passes p config env owner e ↔
          ((s.ask.sourceBlocked env m.source).2.validateInboundStamp p config env m).1 = .ok := by
        rw [Core.Passes, hgenuine, hverify, Core.lateStamp, haddressed.unpacked]
        exact and_iff_right rfl
      obtain ⟨hstore, -, -, -⟩ := validateInboundStamp_frame p config env
        (s.ask.sourceBlocked env m.source).2 m
      rw [if_pos rfl]
      dsimp only
      rw [if_pos haddressed.message_id, hadmit, Core.settlePending]
      rcases hvalidate :
          (s.ask.sourceBlocked env m.source).2.validateInboundStamp p config env m with ⟨status, s₁⟩
      rw [hvalidate] at hstore hstamp
      have hfind : s₁.store.index.find e.message_id = some e := by
        rw [hstore]
        exact hkept.1
      cases status with
      | ok =>
        rw [if_pos (hstamp.mpr rfl)]
        exact passPending_of_disk hdisk hfind hkept.2 m
      | _ =>
        rw [if_neg (fun h => absurd (hstamp.mp h) nofun)]
        exact failPending_of_disk hdisk hfind _

/-- The loop of the late verification, message by message: each that it is about is settled at its
turn, and the others stay what they are. -/
theorem verifyAll_settled (pending : List StoreMessage) (hkept : ∀ e ∈ pending, Kept s e)
    (hdistinct : Index.Distinct pending) :
    let ids := pending.map StoreMessage.message_id
    let s' := (s.verifyAll p config env ids).2
    (∀ e ∈ pending, s'.store.index.find e.message_id =
        (s.turn p config env ids e.message_id).settled p config env owner e) ∧
      ∀ id ∉ ids, s'.store.index.find id = s.store.index.find id := by
  induction pending generalizing s with
  | nil => exact ⟨fun e he => absurd he not_mem_nil, fun id _ => rfl⟩
  | cons e₀ pending ih =>
    rw [forall_mem_cons] at hkept
    rw [Index.Distinct, map_cons, nodup_cons] at hdistinct
    have hround : MovesAt p config env e₀.message_id s
        (s.verifyOne p config env e₀.message_id).2 := movesAt_verifyOne hkept.1
    obtain ⟨hstatus, hsettled⟩ := verifyOne_settled hdisk hblocked howner hretaining hkept.1
    rcases hone : s.verifyOne p config env e₀.message_id with ⟨status, s₁⟩
    rw [hone] at hround hstatus hsettled
    obtain rfl : status = .ok := hstatus
    -- The messages of the later rounds are what they were.
    have hkept₁ : ∀ x ∈ pending, Kept s₁ x := by
      intro x hx
      have hne : x.message_id ≠ e₀.message_id := fun h => hdistinct.1 (h ▸ mem_map_of_mem hx)
      exact ⟨(hround.2 x.message_id hne).trans (hkept.2 x hx).1, (hkept.2 x hx).2⟩
    obtain ⟨hlater, hframe⟩ := ih (hretaining.moves hblocked hround.1) hkept₁ hdistinct.2
    have hfirst : ∀ ids, s.verifyAll p config env (e₀.message_id :: ids) =
        s₁.verifyAll p config env ids := by
      intro ids
      rw [Core.verifyAll, hone]
    dsimp only
    rw [map_cons, hfirst]
    constructor
    · intro e he
      rcases mem_cons.mp he with rfl | he
      · rw [hframe _ hdistinct.1, Core.turn, takeWhile_cons, if_neg (by simp)]
        exact hsettled
      · have hne : e₀.message_id ≠ e.message_id := fun h => hdistinct.1 (h ▸ mem_map_of_mem he)
        rw [Core.turn, takeWhile_cons, if_pos (by simpa using hne), hfirst]
        exact hlater e he
    · intro id hid
      rw [mem_cons, not_or] at hid
      rw [hframe id hid.2]
      exact hround.2 id hid.1

end Verification

/-! ## When the account is honoured -/

section Honoured

variable (p : Provider) (config : Config) (env : Environment) (owner : Octets 16 → Identity)

/-- The condition on a call. A late verification that comes to a message owed finds its signer known
and passes the copy that was retained, or finds it unknown as it was when the call began; and a
message owed that it does not come to has no known signer. A paper message that is given again is
still there. -/
def Ledger.Safe (l : Ledger) : Inbox.Call → Prop
  | .verify source =>
    let ids := (l.inbox.pending source).map StoreMessage.message_id
    ∀ o ∈ l.account.owed, ∀ e ∈ l.inbox.store.index.find o.1,
      e.signature_state ≠ .verified →
        if e ∈ l.inbox.pending source ∧ (l.inbox.turn p config env ids o.1).known env e.source then
          (l.inbox.turn p config env ids o.1).Passes p config env owner e
        else ¬ l.inbox.known env o.2
  | call =>
    ∀ t ∈ l.inbox.repeated p call, ∀ o ∈ genuine p owner t.packed,
      (l.inbox.store.index.find o.1).isSome

/-- The account is honoured. -/
def Ledger.Honoured (l : Ledger) : Prop := l.account.Honoured l.inbox.store.index

variable {p config env owner}

variable {l : Ledger}

/-- A call other than a late verification honours the account, if a paper message that it gives
again is still there. -/
theorem honoured_step_iff (hdistinct : l.inbox.store.index.Distinct)
    (h : l.Honoured) {call : Inbox.Call} (hcall : ∀ source, call ≠ .verify source) :
    (l.step p config env owner call).Honoured ↔ l.Safe p config env owner call := by
  have hstep : l.step p config env owner call =
      { inbox := l.inbox.step p config env call
        account := ((l.inbox.step p config env call).log.drop l.inbox.log.length).foldl
          (.book p owner) l.account } := by
    cases call with
    | verify source => exact absurd rfl (hcall source)
    | _ => rfl
  have hsafe : l.Safe p config env owner call ↔
      ∀ t, l.inbox.repeated p call = some t → ∀ o, genuine p owner t.packed = some o →
        (l.inbox.store.index.find o.1).isSome := by
    cases call with
    | verify source => exact absurd rfl (hcall source)
    | _ => rfl
  rw [hstep, hsafe]
  cases hrepeated : l.inbox.repeated p call with
  | none =>
    refine iff_of_true ?_ nofun
    exact .moves h (moves_step hdistinct hrepeated)
  | some t =>
    rw [step_of_repeated hrepeated]
    have hlog : (l.inbox.log ++ [Observation.repeated t.packed]).drop l.inbox.log.length =
        [.repeated t.packed] := drop_left
    unfold Ledger.Honoured Core.observe
    rw [hlog]
    constructor
    · rintro hhonoured _ ⟨⟩ o ho
      exact hhonoured.owed o (mem_append_right _ (mem_toList.mpr ho))
    · exact fun hstored => .answer h (hstored t rfl)

/-- What has to be found of a message owed after a late verification. -/
def Served (found : Option StoreMessage) (known : Bool) : Prop :=
  found.isSome ∧ (known → ∃ e, found = some e ∧ e.signature_state = .verified)

/-- A message that was not verified is served when its copy passes, if the late verification comes
to it and finds its signer known, and otherwise when its signer was not known. -/
theorem served_settled_iff {s : Core} {e : StoreMessage} {known : Bool} {collected : Prop}
    [Decidable collected] (hstate : e.signature_state ≠ .verified) :
    Served (if collected then s.settled p config env owner e else some e) known ↔
      if collected ∧ s.known env e.source then s.Passes p config env owner e else ¬ known := by
  -- Where nothing happens to the message, it is served when nothing is due.
  have hleft : Served (some e) known ↔ ¬ known := by
    refine ⟨fun hserved hknown => ?_, fun hknown => ⟨rfl, fun h => absurd h hknown⟩⟩
    obtain ⟨x, hx, hverified⟩ := hserved.2 hknown
    exact hstate (some.inj hx ▸ hverified)
  by_cases hcollected : collected
  · rw [if_pos hcollected, Core.settled]
    by_cases hknown : s.known env e.source
    · have hboth : collected ∧ s.known env e.source := ⟨hcollected, hknown⟩
      split_ifs with hpasses
      · exact iff_of_true ⟨rfl, fun _ => ⟨_, rfl, rfl⟩⟩ hpasses
      · exact iff_of_false (fun hserved => absurd hserved.1 Bool.false_ne_true) hpasses
    · have hboth : ¬ (collected ∧ s.known env e.source) := fun h => hknown h.2
      rw [if_pos hknown, if_neg hboth]
      exact hleft
  · have hboth : ¬ (collected ∧ s.known env e.source) := fun h => hcollected h.1
    rw [if_neg hcollected, if_neg hboth]
    exact hleft

/-- A late verification honours the account when what it settles of it passes. -/
theorem honoured_verify_iff (hdisk : ∀ n, env.disk n = .ok) {blocked : Octets 16 → Bool}
    (hblocked : ∀ n, env.blocked n = blocked)
    (howner : ∀ n source identity, env.resolve n source = some identity → identity = owner source)
    (hretaining : Retaining p config blocked l.inbox.store.index) (h : l.Honoured)
    (source : Option (Octets 16)) : (l.step p config env owner (.verify source)).Honoured ↔
      l.Safe p config env owner (.verify source) := by
  obtain ⟨hkept, hdistinct⟩ := pending_spec hretaining.distinct source
  obtain ⟨hsettled, hframe⟩ := verifyAll_settled hdisk hblocked howner hretaining
    (l.inbox.pending source) hkept hdistinct
  -- What becomes of an entry of the index.
  have hfind : ∀ e, l.inbox.store.index.find e.message_id = some e →
      (l.inbox.verifyPending p config env source).2.store.index.find e.message_id =
        if e ∈ l.inbox.pending source then
          (l.inbox.turn p config env ((l.inbox.pending source).map StoreMessage.message_id)
            e.message_id).settled p config env owner e
        else some e := by
    intro e he
    split_ifs with hmem
    · exact hsettled e hmem
    · refine (hframe e.message_id fun hid => hmem ?_).trans he
      obtain ⟨x, hx, hxid⟩ := mem_map.mp hid
      have hsame := (hkept x hx).1
      rw [hxid, he] at hsame
      exact some.inj hsame ▸ hx
  -- A verified message is not collected, and it stays what it is.
  have hverified : ∀ e, l.inbox.store.index.find e.message_id = some e →
      e.signature_state = .verified →
      (l.inbox.verifyPending p config env source).2.store.index.find e.message_id = some e :=
    fun e he hstate => (hfind e he).trans (if_neg fun hmem => (hkept e hmem).2 hstate)
  have hsteps : (l.step p config env owner (.verify source)).Honoured ↔ ∀ o ∈ l.account.owed, Served
        ((l.inbox.verifyPending p config env source).2.store.index.find o.1)
        (l.inbox.known env o.2) := by
    constructor
    · intro hafter o ho
      refine ⟨hafter.owed o ho, fun hknown => hafter.due o.1 ?_⟩
      exact mem_append_right _ (mem_map_of_mem (mem_filter.mpr ⟨ho, hknown⟩))
    · refine fun hserved => ⟨fun o ho => (hserved o ho).1, fun id hid => ?_⟩
      rcases mem_append.mp hid with hid | hid
      · obtain ⟨e, he, hstate⟩ := h.due id hid
        obtain rfl := message_id_of_find he
        exact ⟨e, hverified e he hstate, hstate⟩
      · obtain ⟨o, ho, rfl⟩ := mem_map.mp hid
        obtain ⟨ho, hknown⟩ := mem_filter.mp ho
        exact (hserved o ho).2 hknown
  rw [hsteps]
  refine forall₂_congr fun o ho => ?_
  obtain ⟨e, he⟩ := isSome_iff_exists.mp (h.owed o ho)
  have hid := message_id_of_find he
  rw [← hid] at he ⊢
  by_cases hstate : e.signature_state = .verified
  · rw [hverified e he hstate]
    refine iff_of_true ⟨rfl, fun _ => ⟨e, rfl, hstate⟩⟩ fun x hx hnot => ?_
    exact absurd (some.inj (he.symm.trans hx) ▸ hstate) hnot
  · rw [hfind e he]
    refine .trans ?_ ⟨fun hsafe x hx _ => some.inj (he.symm.trans hx) ▸ hsafe,
      fun hsafe => hsafe e he hstate⟩
    exact served_settled_iff hstate

/-- With store writes that succeed, a fixed block list and a resolver that gives nobody's identity
for another's, what is owed is kept in every state of a run exactly when each call is safe: a late
verification that finds the signer of a message owed known has retained a genuine copy of it whose
stamp passes then, and finds no signer unknown that was known when it began; and a paper message
that is given again is still stored. -/
theorem honoured_iff (hdisk : ∀ n, env.disk n = .ok) {blocked : Octets 16 → Bool}
    (hblocked : ∀ n, env.blocked n = blocked)
    (howner : ∀ n source identity, env.resolve n source = some identity → identity = owner source)
    {s : Inbox} (hretaining : Retaining p config blocked s.store.index) (calls : List Inbox.Call) :
    (∀ past, past <+: calls →
        (Run.final (Ledger.step p config env owner) { inbox := s, account := {} } past).Honoured) ↔
      Run.Each (Ledger.step p config env owner) (Ledger.Safe p config env owner)
        { inbox := s, account := {} } calls := by
  have hkeeps : ∀ (l : Ledger) call, Retaining p config blocked l.inbox.store.index →
      Retaining p config blocked (l.step p config env owner call).inbox.store.index := by
    intro l call hl
    have hinbox : (l.step p config env owner call).inbox = l.inbox.step p config env call := by
      cases call with
      | _ => rfl
    rw [hinbox]
    exact hl.step hblocked call
  have hcall : ∀ (l : Ledger) call, Retaining p config blocked l.inbox.store.index → l.Honoured →
      ((l.step p config env owner call).Honoured ↔ l.Safe p config env owner call) := by
    intro l call hl h
    by_cases hverify : ∃ source, call = .verify source
    · obtain ⟨source, rfl⟩ := hverify
      exact honoured_verify_iff hdisk hblocked howner hl h source
    · exact honoured_step_iff hl.distinct h fun source hsource => hverify ⟨source, hsource⟩
  have hstart : Ledger.Honoured { inbox := s, account := {} } :=
    ⟨fun o ho => absurd ho not_mem_nil, fun id hid => absurd hid not_mem_nil⟩
  exact Run.forall_prefix_iff hkeeps hcall calls hretaining hstart

end Honoured

theorem plainEnvironment_owner (n : ℕ) (source : Octets 16) (identity : Identity)
    (h : (plainEnvironment 2).resolve n source = some identity) : identity = plainPeer := by
  simp only [plainEnvironment] at h
  split at h
  · exact (some.inj h).symm
  · cases h

/-- A message that waits for its signer is verified when the signer is known, and what is owed of it
is kept. -/
theorem honoured_iff_late :
    (Run.final (Ledger.step plainProvider plainConfig (plainEnvironment 2) fun _ => plainPeer)
        { inbox := plainInbox, account := {} }
        [.linkPacket 0 (plainPacked plainSignature), .verify none]).account.due.length = 1 ∧
      (Run.final (Ledger.step plainProvider plainConfig (plainEnvironment 2) fun _ => plainPeer)
        { inbox := plainInbox, account := {} }
        [.linkPacket 0 (plainPacked plainSignature), .verify none]).Honoured := by
  refine ⟨by decide +kernel, ?_⟩
  have hsafe : Ledger.Safe plainProvider plainConfig (plainEnvironment 2) (fun _ => plainPeer)
      (Ledger.step plainProvider plainConfig (plainEnvironment 2) (fun _ => plainPeer)
        { inbox := plainInbox, account := {} } (.linkPacket 0 (plainPacked plainSignature)))
      (.verify none) := by
    unfold Ledger.Safe
    decide +kernel
  have hempty : Retaining plainProvider plainConfig (fun _ => false) plainInbox.store.index :=
    ⟨nodup_nil, fun e he => absurd he not_mem_nil⟩
  have hiff := honoured_iff (fun _ => rfl) (fun _ => rfl) plainEnvironment_owner hempty
    [.linkPacket 0 (plainPacked plainSignature), .verify none]
  refine hiff.mpr ⟨?_, ?_, trivial⟩ _ prefix_rfl
  · exact fun t ht => absurd ht (not_mem_none t)
  · assumption

/-- A router that asks for a stamp takes a paper message without one, as paper messages are exempt.
When the signer of the message is known, the late verification asks for the stamp and removes the
message. -/
theorem accepted_paper_lost :
    let l := Run.final (Ledger.step plainProvider { plainConfig with inbound_stamp_cost := 1 }
        (plainEnvironment 4) fun _ => plainPeer) { inbox := plainInbox, account := {} }
      [.paper (plainPacked plainSignature), .verify none]
    (genuine plainProvider (fun _ => plainPeer) (plainPacked plainSignature)).isSome ∧
      .answered (plainPacked plainSignature) ∈ l.inbox.log ∧ l.account.owed.length = 1 ∧
      l.inbox.store.index = [] := by
  decide +kernel

end Reticulum.Lxmf
