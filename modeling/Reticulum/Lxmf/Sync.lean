import Reticulum.Base.Log
import Reticulum.Base.Run
import Reticulum.Link.Model
import Reticulum.Lxmf.Propagation
import Reticulum.Status

/-!
# Fetching messages from a propagation node

`src/lxmf/propagation_session.c`. A session asks the node for the ids of the messages that it keeps,
downloads them in batches, hands each message to the application, and acknowledges the ones that the
application stored, which the node then deletes. Responses come from the runtime between the calls
of the application; each call and each response is one step.

What a session did since it was started is in its log. `Session.Sound` says for every state where
the session is in its list, what it has and what it logged. The rules of the log follow from it for
every run (`sync_correct`).
-/

namespace Reticulum.Lxmf.Propagation

open List hiding get
open Nat Octets

/-- `PN_BATCH`. -/
def batchSize : ℕ := 8

/-- `lxmf_pn_session_state_t`. -/
inductive SessionState
  | idle
  | path
  | link
  | list
  | download
  | ack
  | upload
  | complete
  | failed
  | cancelled
deriving DecidableEq, Repr

/-- `terminal`. -/
def SessionState.terminal : SessionState → Bool
  | .idle | .complete | .failed | .cancelled => true
  | _ => false

/-- `lxmf_pn_session_progress_t`. -/
structure Progress where
  state : SessionState
  error : Reticulum.Status
  remote_error : UInt8
  available : ℕ
  received : ℕ
  acknowledged : ℕ
  transferred_parts : ℕ
  total_parts : ℕ
deriving DecidableEq

/-- The part of `lxmf_pn_session_options_t` that the session reads. Times are in units of the clock,
and `limit_kb` is `max_response_size / 1000.0`. -/
structure SessionOptions where
  timeout : ℕ
  limit_kb : Octets 8
  retain_on_node : Bool
  message_callback : Bool
deriving DecidableEq

/-- What a session did. -/
inductive Observation
  /-- A request was handed to the link. -/
  | requested (get : GetRequest)
  /-- The node answered with a list of ids. -/
  | listed (ids : List (Octets 32))
  /-- The application was given a message, and returned this. -/
  | delivered (id : Octets 32) (message : List UInt8) (stored : Bool)
deriving DecidableEq

/-- `lxmf_pn_session_t`. `ids` are the first `available` ones of the source's array, `haves` the
first `have_count` ones; `request` says of a request whether it was answered. The log is of what
happened since the session was started. -/
structure Session where
  progress : Progress
  request : Option Bool
  ids : List (Octets 32)
  haves : List (Octets 32)
  offset : ℕ
  batch : ℕ
  deadline : ℕ
  uploading : Bool
  response_ready : Bool
  log : List Observation
deriving DecidableEq

namespace Session

/-- Progress of nothing. -/
def noProgress : Progress where
  state := .idle
  error := .ok
  remote_error := 0
  available := 0
  received := 0
  acknowledged := 0
  transferred_parts := 0
  total_parts := 0

/-- `lxmf_pn_session_create`. -/
def create : Session where
  progress := noProgress
  request := none
  ids := []
  haves := []
  offset := 0
  batch := 0
  deadline := 0
  uploading := false
  response_ready := false
  log := []

section

variable (options : SessionOptions) (net : Network) (crypto : Crypto) (s : Session) (now : ℕ)

/-- `transition`. -/
def transition (state : SessionState) (error : Reticulum.Status) : Session :=
  { s with progress := { s.progress with state, error } }

/-- `cleanup`. -/
def cleanup : Session := { s with request := none }

/-- `start`, of a session that is not running. -/
def start : Session :=
  transition
    { s with
      progress := noProgress
      request := none
      ids := []
      haves := []
      offset := 0
      batch := 0
      response_ready := false
      deadline := now + options.timeout
      log := [] }
    .path .ok

/-- `lxmf_pn_session_sync`. -/
def sync : Reticulum.Status × Session :=
  if ¬ options.message_callback then (.invalidArgument, s)
  else if ¬ s.progress.state.terminal then (.invalidState, s)
  else (.ok, { start options s now with uploading := false })

/-- `lxmf_pn_session_upload`, given whether the messages can be encoded. -/
def upload (encoded : Bool) : Reticulum.Status × Session :=
  if ¬ s.progress.state.terminal then (.invalidState, s)
  else if ¬ encoded then (.invalidArgument, s)
  else (.ok, { start options s now with uploading := true })

/-! ## Responses -/

/-- The ids of the batch that was asked for. -/
def wanted : List (Octets 32) := (s.ids.drop s.offset).take s.batch

/-- The answer to the request for the list. -/
def onList (items : List (List UInt8)) : Session :=
  let ids := items.map (ofList 32)
  if ¬ ids.Nodup then s.transition .failed .invalidArgument
  else
    { s with
      ids
      progress := { s.progress with available := ids.length }
      response_ready := true
      log := s.log ++ [.listed ids] }

/-- The loop that validates a batch of messages, with the digests of those before. `hashed` says of
which messages `rns_sha256` succeeds. -/
def validate (crypto : Crypto) (hashed : List UInt8 → Bool) (wanted : List (Octets 32)) :
    List (List UInt8) → List (Octets 32) → Except Reticulum.Status (List (Octets 32))
  | [], hashes => .ok hashes
  | item :: items, hashes =>
    if ¬ hashed item then .error .crypto
    else if crypto.sha256 item ∉ wanted ∨ crypto.sha256 item ∈ hashes then .error .invalidArgument
    else validate crypto hashed wanted items (hashes ++ [crypto.sha256 item])

/-- One message for the application. -/
def deliver (stored : Octets 32 → List UInt8 → Bool) (s : Session)
    (message : Octets 32 × List UInt8) : Session :=
  let s := { s with log := s.log ++ [.delivered message.1 message.2 (stored message.1 message.2)] }
  if stored message.1 message.2 then
    { s with haves := s.haves ++ [message.1]
             progress := { s.progress with received := s.progress.received + 1 } }
  else s

/-- The answer to the request for messages. -/
def onDownload (hashed : List UInt8 → Bool)
    (stored : Octets 32 → List UInt8 → Bool) (s : Session) (items : List (List UInt8)) : Session :=
  if items.length > s.batch then s.transition .failed .invalidArgument
  else
    match validate crypto hashed s.wanted items [] with
    | .error status => s.transition .failed status
    | .ok hashes =>
      { (hashes.zip items).foldl (deliver stored) { s with haves := [] } with response_ready := true }

/-- The answer to an acknowledgement. -/
def onAck (items : List (List UInt8)) : Session :=
  if items ≠ [] then s.transition .failed .invalidArgument
  else
    { s with
      progress := { s.progress with acknowledged := s.progress.acknowledged + s.haves.length }
      response_ready := true }

/-- How a request ends: with bytes, or with an error. -/
inductive Answer
  | complete (data : List UInt8)
  | failed (status : Reticulum.Status)

/-- `response`. -/
def response (hashed : List UInt8 → Bool)
    (stored : Octets 32 → List UInt8 → Bool) (s : Session) : Answer → Session
  | .failed status => s.transition .failed status
  | .complete data =>
    match getResponseDecode data (s.progress.state = .list) with
    | .error _ => s.transition .failed .invalidArgument
    | .ok .nil => s.transition .failed .invalidState
    | .ok (.error error) =>
      transition { s with progress := { s.progress with remote_error := error } } .failed .invalidState
    | .ok (.items items) =>
      match s.progress.state with
      | .list => s.onList items
      | .download => s.onDownload crypto hashed stored items
      | .ack => s.onAck items
      | _ => { s with response_ready := true }

/-! ## Polling -/

/-- What a poll is told by the runtime. -/
structure Network where
  path_known : Bool
  link_open : Reticulum.Status
  link_state : LinkState
  identify : Reticulum.Status
  request : Reticulum.Status
  send_resource : Reticulum.Status
  resource_complete : Bool
  resource_rejected : Bool
  sent_parts : ℕ
  total_parts : ℕ

/-- The request of a state, for the batch that begins at the offset. -/
def getRequest (state : SessionState) : GetRequest where
  wants := if state = .download then some s.wanted else none
  haves := if state = .ack then some s.haves else none
  limit_kb := if state = .download then some options.limit_kb else none

/-- `send_get`. -/
def sendGet (state : SessionState) (now : ℕ) : Reticulum.Status × Session :=
  let s := if state = .download then
      { s with batch := min (s.progress.available - s.offset) batchSize }
    else s
  let get := s.getRequest options state
  match getRequestEncode get 640 with
  | .error _ => (.overflow, s)
  | .ok _ =>
    let s := { s.transition state .ok with
      deadline := now + options.timeout, log := s.log ++ [.requested get] }
    (net.request, if net.request = .ok then { s with request := some false } else s)

/-- A poll of a session whose link is open and which uploads. -/
def pollUpload : Reticulum.Status × Session :=
  let previous := s.progress.transferred_parts
  let s := { s with progress := { s.progress with
    transferred_parts := net.sent_parts, total_parts := net.total_parts } }
  if net.resource_complete then (.ok, s.transition .complete .ok)
  else if net.resource_rejected then (.invalidState, s)
  else if previous ≠ net.sent_parts then (.ok, s.transition .upload .ok)
  else (.ok, s)

/-- A poll of a session whose request was answered. -/
def pollReady : Reticulum.Status × Session :=
  let s := { s with response_ready := false, request := none }
  if s.progress.state = .download ∧ 0 < s.haves.length ∧ ¬ options.retain_on_node then
    s.sendGet options net .ack now
  else
    let s := if s.progress.state ≠ .list then { s with offset := s.offset + s.batch } else s
    if s.progress.available ≤ s.offset then (.ok, s.transition .complete .ok)
    else s.sendGet options net .download now

/-- The part of a poll that may fail. -/
def pollStep : Reticulum.Status × Session :=
  if s.deadline ≤ now then (.timeout, s)
  else if s.progress.state = .path then
    if net.link_open = .ok then
      (.ok, { s.transition .link .ok with deadline := now + options.timeout })
    else (net.link_open, s)
  else if net.link_state = .closed then (.invalidState, s)
  else if s.progress.state = .link ∧ net.link_state = .active then
    if net.identify ≠ .ok then (net.identify, s)
    else if s.uploading then
      if net.send_resource = .ok then
        (.ok, { s.transition .upload .ok with deadline := now + options.timeout })
      else (net.send_resource, s)
    else s.sendGet options net .list now
  else if s.progress.state = .upload then s.pollUpload net
  else if s.response_ready then s.pollReady options net now
  else (.ok, s)

/-- `lxmf_pn_session_poll`. -/
def poll : Reticulum.Status × Session :=
  if s.progress.state.terminal then (.ok, s.cleanup)
  else if now < s.deadline ∧ s.progress.state = .path ∧ ¬ net.path_known then (.ok, s)
  else
    let (status, s) := s.pollStep options net now
    let s := if status ≠ .ok then s.transition .failed status else s
    (status, if s.progress.state.terminal then s.cleanup else s)

/-- `lxmf_pn_session_cancel`. -/
def cancel : Session :=
  if s.progress.state.terminal then s else s.cleanup.transition .cancelled .ok

/-! ## Runs -/

/-- A call of the application, or an answer that the runtime hands to the session. -/
inductive Call
  | sync (now : ℕ)
  | upload (now : ℕ) (encoded : Bool)
  | poll (now : ℕ) (net : Network)
  | cancel
  | answer (answer : Answer) (hashed : List UInt8 → Bool) (stored : Octets 32 → List UInt8 → Bool)

/-- The session after a call. A request is answered at most once: an answer counts where there is a
request that has none yet. -/
def step : Call → Session
  | .sync now => (s.sync options now).2
  | .upload now encoded => (s.upload options now encoded).2
  | .poll now net => (s.poll options net now).2
  | .cancel => s.cancel
  | .answer answer hashed stored =>
    if s.request = some false then
      response crypto hashed stored { s with request := some true } answer
    else s

/-! ## What is logged -/

/-- The requests of a log. -/
def requests (log : List Observation) : List GetRequest :=
  log.filterMap fun
    | .requested get => some get
    | _ => none

/-- The ids of the messages that the application was given. -/
def deliveries (log : List Observation) : List (Octets 32) :=
  log.filterMap fun
    | .delivered id _ _ => some id
    | _ => none

/-- Requests are counted entry by entry. -/
theorem requests_append (xs ys : List Observation) :
    requests (xs ++ ys) = requests xs ++ requests ys := filterMap_append

/-- Deliveries are counted entry by entry. -/
theorem deliveries_append (xs ys : List Observation) :
    deliveries (xs ++ ys) = deliveries xs ++ deliveries ys := filterMap_append

/-- An id may be acknowledged behind this log: it was in the list of the node, the last request
asked for it, and since then the application stored a message that has it as its digest. -/
def MayAcknowledge (past : List Observation) (id : Octets 32) : Prop :=
  (∃ ids, .listed ids ∈ past ∧ id ∈ ids) ∧
    ∃ before get wants between, past = before ++ .requested get :: between ∧
      requests between = [] ∧ get.wants = some wants ∧ id ∈ wants ∧
      ∃ message, .delivered id message true ∈ between ∧ crypto.sha256 message = id

/-- What may be logged when: a request acknowledges only what it may, and nothing where the messages
are to be kept by the node. -/
def Allowed (past : List Observation) : Observation → Prop
  | .requested get => ∀ haves, get.haves = some haves →
      options.retain_on_node = false ∧ ∀ id ∈ haves, MayAcknowledge crypto past id
  | _ => True

/-! ## The invariant -/

/-- How many requests a session may send for a list of so many messages. -/
def budget (available : ℕ) : ℕ := 1 + 2 * ((available + 7) / 8)

/-- What was counted: `pending` messages are stored and not acknowledged, the messages that the
application was given are among the first `reach` of the list, and no more than `calls` requests
were sent. -/
structure Tally (pending reach calls : ℕ) : Prop where
  acknowledged : s.progress.acknowledged + pending ≤ s.progress.received
  received : s.progress.received ≤ reach
  reach_le : reach ≤ s.ids.length
  nodup : (deliveries s.log).Nodup
  within : ∀ id ∈ deliveries s.log, id ∈ s.ids.take reach
  calls : (requests s.log).length ≤ calls

/-- A tally with less pending, a longer reach or more calls. -/
theorem Tally.mono {s : Session} {pending reach calls pending' reach' calls' : ℕ}
    (h : s.Tally pending reach calls) (hpending : pending' ≤ pending) (hreach : reach ≤ reach')
    (hle : reach' ≤ s.ids.length) (hcalls : calls ≤ calls') : s.Tally pending' reach' calls' where
  acknowledged := (Nat.add_le_add_left hpending _).trans h.acknowledged
  received := h.received.trans hreach
  reach_le := hle
  nodup := h.nodup
  within := fun id hid => take_subset_take_left s.ids hreach (h.within id hid)
  calls := h.calls.trans hcalls

/-- A batch that begins at the offset, in the list that the node sent. -/
structure Batching : Prop where
  offset_lt : s.offset < s.ids.length
  aligned : s.offset % batchSize = 0
  batch : s.batch = min (s.ids.length - s.offset) batchSize
  listed : .listed s.ids ∈ s.log

/-- The last request is for the batch, and what is to be acknowledged was stored since. -/
def Downloading : Prop :=
  ∃ before get between, s.log = before ++ .requested get :: between ∧ requests between = [] ∧
    get.wants = some s.wanted ∧
    (s.response_ready → ∀ id ∈ s.haves, id ∈ s.wanted ∧
      ∃ message, .delivered id message true ∈ between ∧ crypto.sha256 message = id)

/-- Where a session is, by its state. -/
inductive Phase (crypto : Crypto) (s : Session) : Prop
  | over (hstate : s.progress.state.terminal = true)
      (htally : s.Tally 0 s.ids.length (budget s.ids.length)) (hrequest : s.request ≠ some false)
  | begun (hstate : s.progress.state = .path ∨ s.progress.state = .link ∨
        s.progress.state = .upload)
      (hids : s.ids = []) (hoffset : s.offset = 0) (htally : s.Tally 0 0 0)
      (hrequest : s.request = none) (hready : s.response_ready = false)
  | listing (hstate : s.progress.state = .list) (hoffset : s.offset = 0) (htally : s.Tally 0 0 1)
      (hids : if s.response_ready then .listed s.ids ∈ s.log else s.ids = [])
  | downloading (hstate : s.progress.state = .download) (hbatching : s.Batching)
      (hdownloading : s.Downloading crypto)
      (htally : s.Tally (if s.response_ready then s.haves.length else 0)
        (if s.response_ready then s.offset + s.batch else s.offset) (2 + 2 * (s.offset / 8)))
  | acknowledging (hstate : s.progress.state = .ack) (hbatching : s.Batching)
      (htally : s.Tally (if s.response_ready then 0 else s.haves.length) (s.offset + s.batch)
        (3 + 2 * (s.offset / 8)))

/-- What always holds of a session. -/
structure Sound : Prop where
  available : s.progress.available = s.ids.length
  distinct : s.ids.Nodup
  allowed : Log.Always (Allowed options crypto) s.log
  unanswered : s.request = some false → s.response_ready = false
  phase : s.Phase crypto

end

/-- A batch does not reach beyond the list. -/
theorem Batching.reach_le {s : Session} (h : s.Batching) : s.offset + s.batch ≤ s.ids.length := by
  have hlt := h.offset_lt
  rw [h.batch]
  omega

/-- A batch is paid for by the messages in it. -/
theorem Batching.budget_le {s : Session} (h : s.Batching) :
    3 + 2 * (s.offset / 8) ≤ budget s.ids.length := by
  have hlt := h.offset_lt
  unfold budget
  omega

section

variable {options : SessionOptions} {crypto : Crypto} {s : Session}

/-- The counts of a session, whatever its state. -/
theorem Sound.tally (h : s.Sound options crypto) :
    s.Tally 0 s.ids.length (budget s.ids.length) := by
  rcases h.phase with ⟨-, htally, -⟩ | ⟨-, -, -, htally, -, -⟩ | ⟨-, -, htally, -⟩ |
    ⟨-, hbatching, -, htally⟩ | ⟨-, hbatching, htally⟩
  · exact htally
  · exact htally.mono le_rfl (zero_le _) le_rfl (zero_le _)
  · exact htally.mono le_rfl (zero_le _) le_rfl (le_add_right 1 _)
  · have hbudget := hbatching.budget_le
    exact htally.mono (zero_le _) htally.reach_le le_rfl (by omega)
  · exact htally.mono (zero_le _) hbatching.reach_le le_rfl hbatching.budget_le

/-- The same counts and the same log. -/
structure Same (s s' : Session) : Prop where
  available : s'.progress.available = s.progress.available
  received : s'.progress.received = s.progress.received
  acknowledged : s'.progress.acknowledged = s.progress.acknowledged
  ids : s'.ids = s.ids
  log : s'.log = s.log

/-- A session is the same as itself. -/
theorem Same.refl (s : Session) : s.Same s := ⟨rfl, rfl, rfl, rfl, rfl⟩

variable (stored : Octets 32 → List UInt8 → Bool) (messages : List (Octets 32 × List UInt8))
  {calls : ℕ} {s' : Session}

/-- The counts are of what is the same. -/
theorem Tally.same {pending reach : ℕ} (h : s.Tally pending reach calls) (hsame : s.Same s') :
    s'.Tally pending reach calls := by
  obtain ⟨-, hreceived, hacknowledged, hids, hlog⟩ := hsame
  refine ⟨?_, ?_, hids ▸ h.reach_le, hlog ▸ h.nodup, hlog ▸ hids ▸ h.within, hlog ▸ h.calls⟩
  · rw [hacknowledged, hreceived]
    exact h.acknowledged
  · rw [hreceived]
    exact h.received

section

variable (h : s.Sound options crypto)
include h

/-- A session with the same counts is as it should be if its state is. -/
theorem Sound.same (hsame : s.Same s')
    (hunanswered : s'.request = some false → s'.response_ready = false) (hphase : s'.Phase crypto) :
    s'.Sound options crypto where
  available := by rw [hsame.available, hsame.ids, h.available]
  distinct := by
    rw [hsame.ids]
    exact h.distinct
  allowed := by
    rw [hsame.log]
    exact h.allowed
  unanswered := hunanswered
  phase := hphase

/-- A session that ends keeps its counts. -/
theorem Sound.over (hsame : s.Same s')
    (hstate : s'.progress.state.terminal = true) (hrequest : s'.request ≠ some false) :
    s'.Sound options crypto := by
  have htally := h.tally.same hsame
  rw [← hsame.ids] at htally
  exact h.same hsame (fun hfalse => absurd hfalse hrequest) (.over hstate htally hrequest)

/-- A session that fails, is cancelled or is done. -/
theorem Sound.transition {state : SessionState}
    (hstate : state.terminal = true) (error : Reticulum.Status) (hrequest : s.request ≠ some false) :
    (s.transition state error).Sound options crypto :=
  h.over ⟨rfl, rfl, rfl, rfl, rfl⟩ hstate hrequest

/-- A session that has ended may be cleaned up. -/
theorem Sound.cleanup (hstate : s.progress.state.terminal = true) :
    s.cleanup.Sound options crypto :=
  h.over ⟨rfl, rfl, rfl, rfl, rfl⟩ hstate nofun

end

/-- A session that starts is sound. -/
theorem sound_start (s : Session) (now : ℕ) (uploading : Bool) :
    Sound options crypto { start options s now with uploading } where
  available := rfl
  distinct := nodup_nil
  allowed := Log.always_nil _
  unanswered := nofun
  phase := .begun (.inl rfl) rfl rfl
    ⟨le_rfl, le_rfl, le_rfl, nodup_nil, fun _ hid => absurd hid not_mem_nil, le_rfl⟩ rfl rfl

/-! ## Requests -/

/-- A request that is logged leaves what was counted but for one call more. -/
theorem Tally.requested {pending reach calls' : ℕ} (h : s.Tally pending reach calls)
    (hprogress : s'.progress.received = s.progress.received ∧
      s'.progress.acknowledged = s.progress.acknowledged) (hids : s'.ids = s.ids) {get : GetRequest}
    (hlog : s'.log = s.log ++ [.requested get]) (hcalls : calls + 1 ≤ calls') :
    s'.Tally pending reach calls' := by
  have hdeliveries : deliveries s'.log = deliveries s.log := by
    rw [hlog, deliveries_append]
    exact append_nil _
  have hrequests : (requests s'.log).length = (requests s.log).length + 1 := by
    rw [hlog, requests_append, length_append]
    rfl
  refine ⟨?_, ?_, hids ▸ h.reach_le, hdeliveries ▸ h.nodup, ?_, ?_⟩
  · rw [hprogress.1, hprogress.2]
    exact h.acknowledged
  · rw [hprogress.1]
    exact h.received
  · rw [hdeliveries, hids]
    exact h.within
  · rw [hrequests]
    exact (succ_le_succ h.calls).trans hcalls

/-- The session with the batch that a request is for. -/
def withBatch (s : Session) (state : SessionState) : Session :=
  if state = .download then { s with batch := min (s.progress.available - s.offset) batchSize } else s

/-- The session with a request that was sent. -/
def sent (options : SessionOptions) (s : Session) (state : SessionState) (deadline : ℕ)
    (request : Option Bool) : Session :=
  { s.transition state .ok with
    deadline, request, log := s.log ++ [.requested (s.getRequest options state)] }

/-- A request that is not encoded leaves the session; the others are logged, also where the link
does not take them. -/
theorem sendGet_cases (options : SessionOptions) (net : Network) (s : Session)
    (state : SessionState) (now : ℕ) :
    let r := s.sendGet options net state now
    (r.1 ≠ .ok ∧
        r.2 = s.withBatch state) ∨
      ∃ deadline request,
        r.2 = (s.withBatch state).sent options state deadline request := by
  unfold sendGet withBatch
  dsimp only
  generalize (if state = .download then
    { s with batch := min (s.progress.available - s.offset) batchSize } else s) = s₁
  cases getRequestEncode (s₁.getRequest options state) 640 with
  | error status => exact .inl ⟨Reticulum.Status.noConfusion, rfl⟩
  | ok bytes =>
    dsimp only
    split
    all_goals exact .inr ⟨_, _, rfl⟩

/-- An acknowledgement of a batch that came is sent. -/
theorem sound_sent_ack (h : s.Sound options crypto) (hretain : options.retain_on_node = false)
    (hbatching : s.Batching) (hdownloading : s.Downloading crypto)
    (htally : s.Tally s.haves.length (s.offset + s.batch) (2 + 2 * (s.offset / 8)))
    (hready : s.response_ready = true) (deadline : ℕ) (request : Option Bool) : Sound options crypto
      (sent options { s with response_ready := false, request := none } .ack deadline request) where
  available := h.available
  distinct := h.distinct
  allowed := by
    refine Log.always_concat h.allowed fun haves hhaves => ⟨hretain, fun id hid => ?_⟩
    obtain rfl : s.haves = haves := Option.some.inj hhaves
    obtain ⟨before, get, between, hlog, hrequests, hwants, hstored⟩ := hdownloading
    obtain ⟨hwanted, message, hmessage, hdigest⟩ := hstored hready id hid
    refine ⟨⟨s.ids, hbatching.listed, ?_⟩, before, get, s.wanted, between, hlog, hrequests, hwants,
      hwanted, message, hmessage, hdigest⟩
    exact mem_of_mem_drop (mem_of_mem_take hwanted)
  unanswered := fun _ => rfl
  phase := by
    refine .acknowledging rfl
      { hbatching with listed := mem_append_left _ hbatching.listed } ?_
    refine htally.requested ⟨rfl, rfl⟩ rfl rfl ?_
    show 2 + 2 * (s.offset / 8) + 1 ≤ 3 + 2 * (s.offset / 8)
    omega

/-- A request for the next batch is sent. -/
theorem sound_sent_download (havailable : s.progress.available = s.ids.length)
    (hdistinct : s.ids.Nodup) (hallowed : Log.Always (Allowed options crypto) s.log)
    (hlisted : .listed s.ids ∈ s.log) (hoffset : s.offset < s.ids.length)
    (haligned : s.offset % batchSize = 0) (htally : s.Tally 0 s.offset (1 + 2 * (s.offset / 8)))
    (hready : s.response_ready = false) (deadline : ℕ) (request : Option Bool) :
    ((s.withBatch .download).sent options .download deadline request).Sound options crypto where
  available := havailable
  distinct := hdistinct
  allowed := Log.always_concat hallowed nofun
  unanswered := fun _ => hready
  phase := by
    have hnot : ((s.withBatch .download).sent options .download deadline request).response_ready =
        false := hready
    refine .downloading rfl ⟨hoffset, haligned, ?_, mem_append_left _ hlisted⟩
      ⟨s.log, (s.withBatch .download).getRequest options .download, [], rfl, rfl, rfl, ?_⟩ ?_
    · change min (s.progress.available - s.offset) batchSize = _
      rw [havailable]
      rfl
    · rw [hnot]
      exact nofun
    · rw [hnot, if_neg (by decide), if_neg (by decide)]
      refine htally.requested ⟨rfl, rfl⟩ rfl rfl ?_
      show 1 + 2 * (s.offset / 8) + 1 ≤ 2 + 2 * (s.offset / 8)
      omega

/-! ## Polls -/

/-- What a part of a poll leaves: a session as it should be, or one that fails with its counts as
they were. -/
def Stepped (options : SessionOptions) (crypto : Crypto) (s : Session)
    (r : Reticulum.Status × Session) : Prop :=
  r.2.Sound options crypto ∨ (r.1 ≠ .ok ∧ s.Same r.2)

/-- The next batch, or the end. -/
theorem stepped_next (h : s.Sound options crypto) {offset : ℕ} (net : Network) (now : ℕ)
    (hlisted : .listed s.ids ∈ s.log) (htally : s.Tally 0 offset calls)
    (haligned : offset < s.ids.length → offset % batchSize = 0 ∧ calls ≤ 1 + 2 * (offset / 8)) :
    let s₁ := { s with response_ready := false, request := none, offset }
    Stepped options crypto s
      (if s₁.progress.available ≤ s₁.offset then (.ok, s₁.transition .complete .ok)
      else s₁.sendGet options net .download now) := by
  intro s₁
  split_ifs with hmore
  · refine .inl (h.over ⟨rfl, rfl, rfl, rfl, rfl⟩ rfl ?_)
    exact nofun
  · have hoffset : offset < s.ids.length := h.available ▸ not_le.mp hmore
    obtain ⟨haligned, hcalls⟩ := haligned hoffset
    rcases sendGet_cases options net s₁ .download now with ⟨hfailed, heq⟩ | ⟨deadline, request, heq⟩
    · exact .inr ⟨hfailed, heq ▸ ⟨rfl, rfl, rfl, rfl, rfl⟩⟩
    · have htally₁ : s₁.Tally 0 offset calls := htally.same ⟨rfl, rfl, rfl, rfl, rfl⟩
      exact .inl (heq ▸ sound_sent_download (s := s₁) h.available h.distinct h.allowed hlisted hoffset
        haligned (htally₁.mono le_rfl le_rfl hoffset.le hcalls) rfl deadline request)

/-- The offset behind a batch. -/
theorem Batching.next (hbatching : s.Batching) (hlt : s.offset + s.batch < s.ids.length) :
    (s.offset + s.batch) % batchSize = 0 ∧
      3 + 2 * (s.offset / 8) ≤ 1 + 2 * ((s.offset + s.batch) / 8) := by
  have hbatch := hbatching.batch
  have haligned := hbatching.aligned
  unfold batchSize at hbatch haligned ⊢
  omega

/-- A poll with an answer goes on to the next request, or ends. -/
theorem stepped_pollReady (h : s.Sound options crypto) (hready : s.response_ready = true)
    (net : Network) (now : ℕ) (hrunning : s.progress.state.terminal = false) :
    Stepped options crypto s (s.pollReady options net now) := by
  unfold pollReady
  dsimp only
  rcases h.phase with ⟨hstate, -, -⟩ | ⟨-, -, -, -, -, hnot⟩ | ⟨hstate, hoffset, htally, hids⟩ |
    ⟨hstate, hbatching, hdownloading, htally⟩ | ⟨hstate, hbatching, htally⟩
  · rw [hstate] at hrunning
    cases hrunning
  · rw [hready] at hnot
    cases hnot
  · rw [hready, if_pos rfl] at hids
    rw [hstate, if_neg (fun hack => by cases hack.1),
      if_neg (show ¬ SessionState.list ≠ .list from not_not.mpr rfl)]
    have htally₀ : s.Tally 0 s.offset 1 := by rwa [hoffset]
    refine stepped_next h net now hids htally₀ fun _ => ?_
    rw [hoffset]
    exact ⟨rfl, le_rfl⟩
  · rw [hready, if_pos rfl, if_pos rfl] at htally
    rw [hstate]
    split
    · rename_i hack
      have hretain : options.retain_on_node = false := Bool.not_eq_true _ ▸ hack.2.2
      rcases sendGet_cases options net { s with response_ready := false, request := none } .ack now
        with ⟨hfailed, heq⟩ | ⟨deadline, request, heq⟩
      · exact .inr ⟨hfailed, heq ▸ ⟨rfl, rfl, rfl, rfl, rfl⟩⟩
      · exact .inl (heq ▸ sound_sent_ack h hretain hbatching hdownloading htally hready deadline
          request)
    · have htally₀ := htally.mono (zero_le _) le_rfl hbatching.reach_le
        (Nat.add_le_add_right (show 2 ≤ 3 by decide) _)
      exact stepped_next h net now hbatching.listed htally₀ hbatching.next
  · rw [hready, if_pos rfl] at htally
    rw [hstate, if_neg (fun hack => by cases hack.1),
      if_pos (show SessionState.ack ≠ .list by decide)]
    exact stepped_next h net now hbatching.listed htally hbatching.next

/-- A session that has not asked for the list yet, or uploads. -/
def Opening (s : Session) : Prop :=
  s.progress.state = .path ∨ s.progress.state = .link ∨ s.progress.state = .upload

section

variable (h : s.Sound options crypto)
include h

/-- What an opening session has. -/
theorem Sound.opening (hopening : s.Opening) :
    s.ids = [] ∧ s.offset = 0 ∧ s.Tally 0 0 0 ∧ s.request = none ∧ s.response_ready = false := by
  unfold Opening at hopening
  rcases h.phase with ⟨hstate, -, -⟩ | ⟨-, hids, hoffset, htally, hrequest, hready⟩ | ⟨hstate, -⟩ |
    ⟨hstate, -⟩ | ⟨hstate, -⟩
  · rcases hopening with hopen | hopen | hopen
    all_goals
      rw [hopen] at hstate
      cases hstate
  · exact ⟨hids, hoffset, htally, hrequest, hready⟩
  all_goals
    rw [hstate] at hopening
    rcases hopening with hfalse | hfalse | hfalse <;> cases hfalse

/-- An opening session stays one. -/
theorem Sound.opens (hopening : s.Opening) (hopening' : s'.Opening)
    (hsame : s.Same s') (hoffset : s'.offset = s.offset) (hrequest : s'.request = s.request)
    (hready : s'.response_ready = s.response_ready) : s'.Sound options crypto := by
  obtain ⟨hids, hoffset₀, htally, hrequest₀, hready₀⟩ := h.opening hopening
  rw [hready₀] at hready
  exact h.same hsame (fun _ => hready) (.begun hopening' (hsame.ids.trans hids)
    (hoffset.trans hoffset₀) (htally.same hsame) (hrequest.trans hrequest₀) hready)

/-- A poll of an upload. -/
theorem stepped_pollUpload (hstate : s.progress.state = .upload)
    (net : Network) : Stepped options crypto s (s.pollUpload net) := by
  have hopening : s.Opening := .inr (.inr hstate)
  unfold pollUpload
  dsimp only
  split_ifs
  · refine .inl (h.over ⟨rfl, rfl, rfl, rfl, rfl⟩ rfl ?_)
    have hrequest := (h.opening hopening).2.2.2.1
    exact fun hfalse => by cases hrequest.symm.trans hfalse
  · exact .inr ⟨Reticulum.Status.noConfusion, ⟨rfl, rfl, rfl, rfl, rfl⟩⟩
  · exact .inl (h.opens hopening (.inr (.inr rfl)) ⟨rfl, rfl, rfl, rfl, rfl⟩ rfl rfl rfl)
  · exact .inl (h.opens hopening hopening ⟨rfl, rfl, rfl, rfl, rfl⟩ rfl rfl rfl)

/-- One step of a poll, whatever the state. -/
theorem stepped_pollStep (hrunning : s.progress.state.terminal = false)
    (net : Network) (now : ℕ) : Stepped options crypto s (s.pollStep options net now) := by
  unfold pollStep
  split_ifs with htimeout hpath hopen hclosed hlink hidentify huploading hsend hupload hready
  · exact .inr ⟨Reticulum.Status.noConfusion, .refl s⟩
  · exact .inl (h.opens (.inl hpath) (.inr (.inl rfl)) ⟨rfl, rfl, rfl, rfl, rfl⟩ rfl rfl rfl)
  · exact .inr ⟨hopen, .refl s⟩
  · exact .inr ⟨Reticulum.Status.noConfusion, .refl s⟩
  · exact .inr ⟨hidentify, .refl s⟩
  · exact .inl (h.opens (.inr (.inl hlink.1)) (.inr (.inr rfl)) ⟨rfl, rfl, rfl, rfl, rfl⟩ rfl rfl rfl)
  · exact .inr ⟨hsend, .refl s⟩
  · obtain ⟨hids, hoffset, htally, -, hnot⟩ := h.opening (.inr (.inl hlink.1))
    rcases sendGet_cases options net s .list now with ⟨hfailed, heq⟩ | ⟨deadline, request, heq⟩
    · exact .inr ⟨hfailed, heq ▸ .refl s⟩
    · refine .inl (heq ▸ ⟨h.available, h.distinct, Log.always_concat h.allowed nofun, fun _ => hnot,
        .listing rfl hoffset (htally.requested ⟨rfl, rfl⟩ rfl rfl le_rfl) ?_⟩)
      change if s.response_ready then _ else _
      rw [hnot]
      exact hids
  · exact stepped_pollUpload h hupload net
  · exact stepped_pollReady h hready net now hrunning
  · exact .inl h

/-- A poll keeps the session sound. -/
theorem sound_poll (net : Network) (now : ℕ) : (s.poll options net now).2.Sound options crypto := by
  unfold poll
  by_cases hterminal : s.progress.state.terminal = true
  · rw [if_pos hterminal]
    exact h.cleanup hterminal
  split_ifs with hwaiting
  · exact h
  have hstepped := stepped_pollStep h (Bool.eq_false_of_not_eq_true hterminal) net now
  generalize s.pollStep options net now = r at hstepped
  obtain ⟨status, s₁⟩ := r
  dsimp only
  by_cases hok : status = .ok
  · -- A part of a poll that succeeds leaves a session as it should be.
    rw [if_neg (not_not.mpr hok)]
    rcases hstepped with hsound | ⟨hfailed, -⟩
    · split_ifs with hover
      · exact hsound.cleanup hover
      · exact hsound
    · exact absurd hok hfailed
  · rw [if_pos hok,
      if_pos (show (s₁.transition .failed status).progress.state.terminal = true from rfl)]
    have hnone : (s₁.transition .failed status).cleanup.request ≠ some false := fun hfalse => by
      cases hfalse
    rcases hstepped with hsound | ⟨-, hsame⟩
    · exact hsound.over ⟨rfl, rfl, rfl, rfl, rfl⟩ rfl hnone
    · exact h.over { hsame with } rfl hnone

end

/-! ## Answers -/

/-- A batch that validates: its digests are distinct and all were asked for. -/
theorem validate_ok {hashed : List UInt8 → Bool} {wanted : List (Octets 32)}
    {items : List (List UInt8)} {seen hashes : List (Octets 32)}
    (hvalid : validate crypto hashed wanted items seen = .ok hashes) (hnodup : seen.Nodup)
    (hseen : ∀ id ∈ seen, id ∈ wanted) :
    hashes = seen ++ items.map crypto.sha256 ∧ hashes.Nodup ∧ ∀ id ∈ hashes, id ∈ wanted := by
  induction items generalizing seen with
  | nil =>
    obtain rfl : seen = hashes := Except.ok.inj hvalid
    exact ⟨(append_nil _).symm, hnodup, hseen⟩
  | cons item items ih =>
    unfold validate at hvalid
    split_ifs at hvalid with hhashed hrefused
    push Not at hrefused
    obtain ⟨hwanted, hnew⟩ := hrefused
    have hdisjoint : ∀ id ∈ seen, id ≠ crypto.sha256 item := fun id hid heq => hnew (heq ▸ hid)
    obtain ⟨heq, hhashes⟩ := ih hvalid
      (nodup_append.mpr ⟨hnodup, nodup_singleton _, fun id hid b hb =>
        mem_singleton.mp hb ▸ hdisjoint id hid⟩)
      (fun id hid => (mem_append.mp hid).elim (hseen id) fun hlast =>
        mem_singleton.mp hlast ▸ hwanted)
    refine ⟨?_, hhashes⟩
    rw [heq, append_assoc]
    rfl

/-- What is logged of a message. -/
def delivery (stored : Octets 32 → List UInt8 → Bool) (message : Octets 32 × List UInt8) :
    Observation :=
  .delivered message.1 message.2 (stored message.1 message.2)

/-- The ids of the messages that the application stores. -/
def storedIds (stored : Octets 32 → List UInt8 → Bool) (messages : List (Octets 32 × List UInt8)) :
    List (Octets 32) :=
  (messages.filter fun message => stored message.1 message.2).map Prod.fst

/-- What the deliveries of a batch leave: the log, and the counters. -/
theorem foldl_deliver (s : Session) : messages.foldl (deliver stored) s =
      { s with
        log := s.log ++ messages.map (delivery stored)
        haves := s.haves ++ storedIds stored messages
        progress := { s.progress with
          received := s.progress.received + (storedIds stored messages).length } } := by
  induction messages generalizing s with
  | nil => simp [storedIds]
  | cons message messages ih =>
    rw [foldl_cons, ih]
    unfold deliver storedIds
    by_cases hstored : stored message.1 message.2 = true
    · simp [hstored, delivery, add_assoc, add_comm 1]
    · simp [hstored, delivery]

/-- A delivery is no request. -/
theorem requests_delivery : requests (messages.map (delivery stored)) = [] := by
  induction messages with
  | nil => rfl
  | cons message messages ih => exact ih

/-- Every message of a batch is delivered once. -/
theorem deliveries_delivery :
    deliveries (messages.map (delivery stored)) = messages.map Prod.fst := by
  induction messages with
  | nil => rfl
  | cons message messages ih => exact congrArg (message.1 :: ·) ih

/-- Deliveries are always allowed. -/
theorem allowed_delivery {log : List Observation} (h : Log.Always (Allowed options crypto) log)
    (stored : Octets 32 → List UInt8 → Bool) (messages : List (Octets 32 × List UInt8)) :
    Log.Always (Allowed options crypto) (log ++ messages.map (delivery stored)) := by
  induction messages generalizing log with
  | nil => rwa [map_nil, append_nil]
  | cons message messages ih =>
    rw [map_cons, append_cons]
    exact ih (Log.always_concat h trivial)

/-- The answer with the list. -/
theorem sound_onList (h : s.Sound options crypto) (hstate : s.progress.state = .list)
    (hoffset : s.offset = 0) (htally : s.Tally 0 0 1) (hanswered : s.request ≠ some false)
    (items : List (List UInt8)) : (s.onList items).Sound options crypto := by
  unfold onList
  by_cases hnodup : (items.map (ofList 32)).Nodup
  · rw [if_neg (not_not.mpr hnodup)]
    have hdeliveries : deliveries (s.log ++ [.listed (items.map (ofList 32))]) =
        deliveries s.log := by
      rw [deliveries_append]
      exact append_nil _
    have hrequests : requests (s.log ++ [.listed (items.map (ofList 32))]) =
        requests s.log := by
      rw [requests_append]
      exact append_nil _
    refine ⟨rfl, hnodup, Log.always_concat h.allowed trivial, fun hfalse => absurd hfalse hanswered,
      .listing hstate hoffset ?_ mem_concat_self⟩
    refine ⟨htally.acknowledged, htally.received, zero_le _, ?_, ?_, ?_⟩
    · exact hdeliveries.symm ▸ htally.nodup
    · rw [hdeliveries]
      exact fun id hid => absurd (htally.within id hid) not_mem_nil
    · exact hrequests.symm ▸ htally.calls
  · rw [if_pos hnodup]
    exact h.transition rfl _ hanswered

/-- What the messages of a batch add to the counts. -/
theorem Tally.downloaded (h : s.Tally 0 s.offset calls) (hdistinct : s.ids.Nodup)
    (hreach : s.offset + s.batch ≤ s.ids.length) {stored : Octets 32 → List UInt8 → Bool}
    {messages : List (Octets 32 × List UInt8)} (hnodup : (messages.map Prod.fst).Nodup)
    (hwanted : ∀ id ∈ messages.map Prod.fst, id ∈ s.wanted)
    (hcount : (storedIds stored messages).length ≤ s.batch)
    (hreceived : s'.progress.received = s.progress.received + (storedIds stored messages).length)
    (hacknowledged : s'.progress.acknowledged = s.progress.acknowledged) (hids : s'.ids = s.ids)
    (hlog : s'.log = s.log ++ messages.map (delivery stored)) :
    s'.Tally (storedIds stored messages).length (s.offset + s.batch) calls := by
  have hdeliveries : deliveries s'.log = deliveries s.log ++ messages.map Prod.fst := by
    rw [hlog, deliveries_append, deliveries_delivery]
  have hrequests : requests s'.log = requests s.log := by
    rw [hlog, requests_append, requests_delivery, append_nil]
  refine ⟨?_, ?_, hids ▸ hreach, ?_, ?_, hrequests ▸ h.calls⟩
  · rw [hacknowledged, hreceived]
    exact Nat.add_le_add_right h.acknowledged _
  · rw [hreceived]
    exact Nat.add_le_add h.received hcount
  · -- The messages before are of the list before the offset.
    rw [hdeliveries]
    refine .append h.nodup hnodup fun id hold hnew => ?_
    exact disjoint_take_drop hdistinct le_rfl (h.within id hold)
      (mem_of_mem_take (hwanted id hnew))
  · rw [hdeliveries, hids, take_add]
    intro id hid
    rcases mem_append.mp hid with hold | hnew
    · exact mem_append_left _ (h.within id hold)
    · exact mem_append_right _ (hwanted id hnew)

/-- The answer with a batch of messages. -/
theorem sound_onDownload (h : s.Sound options crypto) (hstate : s.progress.state = .download)
    (hbatching : s.Batching) (hdownloading : s.Downloading crypto)
    (htally : s.Tally 0 s.offset (2 + 2 * (s.offset / 8))) (hanswered : s.request ≠ some false)
    (hashed : List UInt8 → Bool) (stored : Octets 32 → List UInt8 → Bool)
    (items : List (List UInt8)) : (s.onDownload crypto hashed stored items).Sound options crypto := by
  unfold onDownload
  split_ifs with hmany
  · exact h.transition rfl _ hanswered
  cases hvalid : validate crypto hashed s.wanted items [] with
  | error status => exact h.transition rfl _ hanswered
  | ok hashes =>
    obtain ⟨hhashes, hnodup, hwanted⟩ := validate_ok hvalid nodup_nil
      (fun id hid => absurd hid not_mem_nil)
    rw [nil_append] at hhashes
    subst hhashes
    dsimp only
    rw [← map_prod_right_eq_zip, foldl_deliver]
    -- Every message of the answer hashes to an id that was asked for.
    generalize hmessages : (items.map fun item => (crypto.sha256 item, item)) = messages
    have hfst : messages.map Prod.fst = items.map crypto.sha256 := by
      rw [← hmessages, map_map]
      rfl
    have hdigest : ∀ message ∈ messages, crypto.sha256 message.2 = message.1 := by
      intro message hmem
      rw [← hmessages] at hmem
      obtain ⟨item, -, rfl⟩ := mem_map.mp hmem
      rfl
    have hcount : (storedIds stored messages).length ≤ s.batch := by
      have hlength : messages.length = items.length := by rw [← hmessages, length_map]
      have hfilter := length_filter_le (fun message => stored message.1 message.2) messages
      unfold storedIds
      rw [length_map]
      omega
    refine ⟨h.available, h.distinct, allowed_delivery h.allowed stored messages,
      fun hfalse => absurd hfalse hanswered, .downloading hstate ?_ ?_ ?_⟩
    · exact { hbatching with listed := mem_append_left _ hbatching.listed }
    · obtain ⟨before, get, between, hlog, hrequests, hwants, -⟩ := hdownloading
      refine ⟨before, get, between ++ messages.map (delivery stored), ?_, ?_, hwants,
        fun _ id hid => ?_⟩
      · rw [hlog, append_assoc]
        rfl
      · rw [requests_append, requests_delivery, hrequests]
        rfl
      · obtain ⟨⟨id', message⟩, hmem, rfl⟩ := mem_map.mp hid
        obtain ⟨hmem, hstored⟩ := mem_filter.mp hmem
        refine ⟨hwanted id' (hfst ▸ mem_map_of_mem hmem), message, ?_, hdigest _ hmem⟩
        refine mem_append_right _ (mem_map.mpr ⟨_, hmem, ?_⟩)
        unfold delivery
        rw [hstored]
    · exact htally.downloaded h.distinct hbatching.reach_le (hfst ▸ hnodup) (hfst ▸ hwanted) hcount rfl
        rfl rfl rfl

/-- The session when its request is answered. -/
theorem sound_response (h : s.Sound options crypto) (hrequest : s.request = some false)
    (hashed : List UInt8 → Bool) (stored : Octets 32 → List UInt8 → Bool) (answer : Answer) :
    (response crypto hashed stored { s with request := some true } answer).Sound options crypto := by
  have hanswered : some true ≠ some false := by decide
  have hsame : s.Same { s with request := some true } := ⟨rfl, rfl, rfl, rfl, rfl⟩
  cases answer with
  | failed status => exact h.over ⟨rfl, rfl, rfl, rfl, rfl⟩ rfl hanswered
  | complete data =>
    unfold response
    dsimp only
    cases getResponseDecode data (s.progress.state = .list) with
    | error status => exact h.over ⟨rfl, rfl, rfl, rfl, rfl⟩ rfl hanswered
    | ok decoded =>
      cases decoded with
      | nil | error error => exact h.over ⟨rfl, rfl, rfl, rfl, rfl⟩ rfl hanswered
      | items items =>
        have hready := h.unanswered hrequest
        have hanswer := fun hphase => h.same hsame (fun hfalse => absurd hfalse hanswered) hphase
        -- A session with an unanswered request waits for the list, for messages or for the node to
        -- forget some.
        rcases h.phase with ⟨-, -, hnot⟩ | ⟨-, -, -, -, hnone, -⟩ | ⟨hstate, hoffset, htally, hids⟩ |
          ⟨hstate, hbatching, hdownloading, htally⟩ | ⟨hstate, hbatching, htally⟩
        · exact absurd hrequest hnot
        · cases hnone.symm.trans hrequest
        · have htally₁ := htally.same hsame
          rw [hstate]
          exact sound_onList (hanswer (.listing hstate hoffset htally₁ hids)) hstate hoffset htally₁
            hanswered items
        · have hbatching₁ : Batching { s with request := some true } := { hbatching with }
          have htally₁ := htally.same hsame
          have hsound := hanswer (.downloading hstate hbatching₁ hdownloading htally₁)
          rw [hready] at htally
          rw [hstate]
          exact sound_onDownload hsound hstate hbatching₁ hdownloading (htally.same hsame) hanswered
            hashed stored items
        · have hbatching₁ : Batching { s with request := some true } := { hbatching with }
          have htally₁ := htally.same hsame
          have hsound := hanswer (.acknowledging hstate hbatching₁ htally₁)
          rw [hready] at htally
          rw [hstate]
          change (onAck { s with request := some true } items).Sound options crypto
          unfold onAck
          split
          · exact hsound.transition rfl _ hanswered
          · exact ⟨hsound.available, hsound.distinct, hsound.allowed,
              fun hfalse => absurd hfalse hanswered,
              .acknowledging hstate { hbatching₁ with } { htally.same hsame with }⟩

/-! ## Whole runs -/

/-- A new session is sound. -/
theorem sound_create : create.Sound options crypto where
  available := rfl
  distinct := nodup_nil
  allowed := Log.always_nil _
  unanswered := fun _ => rfl
  phase := .over rfl ⟨le_rfl, le_rfl, le_rfl, nodup_nil, fun _ hid => absurd hid not_mem_nil,
    zero_le _⟩ nofun

/-- Every call keeps the session sound. -/
theorem Sound.step (h : s.Sound options crypto) (call : Call) :
    (s.step options crypto call).Sound options crypto := by
  cases call with
  | sync now =>
    change (s.sync options now).2.Sound options crypto
    unfold sync
    split_ifs
    · exact sound_start s now false
    · exact h
    · exact h
  | upload now encoded =>
    change (s.upload options now encoded).2.Sound options crypto
    unfold upload
    split_ifs
    · exact sound_start s now true
    · exact h
    · exact h
  | poll now net => exact sound_poll h net now
  | cancel =>
    change s.cancel.Sound options crypto
    unfold cancel
    split_ifs
    · exact h
    · exact h.over ⟨rfl, rfl, rfl, rfl, rfl⟩ rfl nofun
  | answer answer hashed stored =>
    change (if s.request = some false then _ else s).Sound options crypto
    split_ifs with hrequest
    · exact sound_response h hrequest hashed stored answer
    · exact h

end

/-- Every run of a session. What is acknowledged to the node was in its list, was asked for by the
request before, and was stored by the application since; nothing is acknowledged where the node is
to keep its messages. No message is handed to the application twice. No more is acknowledged than
was stored, and no more stored than was in the list, and of the requests there is one for the list
and two for every eight messages. -/
theorem sync_correct (options : SessionOptions) (crypto : Crypto) (calls : List Call) :
    let s := Run.final (step options crypto) create calls
    Log.Always (Allowed options crypto) s.log ∧ (deliveries s.log).Nodup ∧
      s.progress.acknowledged ≤ s.progress.received ∧
      s.progress.received ≤ s.progress.available ∧
      (requests s.log).length ≤ 1 + 2 * ((s.progress.available + 7) / 8) := by
  intro s
  have hsound : s.Sound options crypto :=
    Run.invariant (fun s call h _ => h.step call) sound_create (Run.each_true calls)
  obtain ⟨hacknowledged, hreceived, -, hnodup, -, hcalls⟩ := hsound.tally
  rw [hsound.available]
  exact ⟨hsound.allowed, hnodup, hacknowledged, hreceived, hcalls⟩

end Session

end Reticulum.Lxmf.Propagation
