import Mathlib.Data.List.DropRight
import Reticulum.Base.Run
import Reticulum.Link.Model
import Reticulum.Nomad.Envelope

/-!
# Sessions of the relay chat

`src/nomad/rrc_session.c`: a client of a chat hub. The session finds a path to the hub, opens a
link, greets the hub until it is welcomed, and follows the rooms that the application joined. What
the hub sends comes in packets between the calls of the application; each call, each packet and each
change of the link is one step.

Room names stand in buffers of a fixed size. The log of a session has an entry for each string of
bytes that is written into one, beside the envelopes that were sent.
-/

namespace Reticulum.Rrc

/-! ## Constants -/

/-- `RRC_CBOR_MAX_ITEMS`. -/
def sessionMaxItems : ℕ := 256

/-- `RRC_MAX_ROOM_KEY_BYTES`. -/
def maxRoomKeyBytes : ℕ := 255

/-- `RNS_RRC_DEFAULT_MAX_NICK_BYTES`. -/
def defaultMaxNickBytes : ℕ := 32

/-- `RNS_RRC_DEFAULT_MAX_ROOM_BYTES`. -/
def defaultMaxRoomBytes : ℕ := 64

/-- `RNS_RRC_DEFAULT_MAX_MESSAGE_BYTES`. -/
def defaultMaxMessageBytes : ℕ := 350

/-- `RNS_RRC_DEFAULT_MAX_ROOMS`. -/
def defaultMaxRooms : ℕ := 32

/-- `RNS_RRC_DEFAULT_RATE_PER_MINUTE`. -/
def defaultRatePerMinute : ℕ := 240

/-- `RNS_RRC_MAX_HUB_NAME_BYTES`. -/
def maxHubNameBytes : ℕ := 255

/-- `RNS_RRC_MAX_VERSION_BYTES`. -/
def maxVersionBytes : ℕ := 63

/-- `RNS_RRC_MAX_TRACKED_ROOMS`. -/
def maxTrackedRooms : ℕ := 32

/-- `RNS_RRC_MAX_TRACKED_MEMBERS`. -/
def maxTrackedMembers : ℕ := 128

/-- `RNS_RRC_MAX_MOTD_BYTES`. -/
def maxMotdBytes : ℕ := 350

/-- `RNS_MTU`. -/
def mtu : ℕ := 500

/-! ## The welcome of a hub -/

/-- `rns_rrc_welcome_t`. -/
structure Welcome where
  hub_name : List UInt8
  hub_version : List UInt8
  resource_envelopes : Bool
  max_nick_bytes : ℕ
  max_room_bytes : ℕ
  max_message_bytes : ℕ
  max_rooms : ℕ
  rate_per_minute : ℕ
deriving DecidableEq

/-- `welcome_defaults`. -/
def welcomeDefaults : Welcome where
  hub_name := []
  hub_version := []
  resource_envelopes := false
  max_nick_bytes := defaultMaxNickBytes
  max_room_bytes := defaultMaxRoomBytes
  max_message_bytes := defaultMaxMessageBytes
  max_rooms := defaultMaxRooms
  rate_per_minute := defaultRatePerMinute

/-- `valid_utf8_text`. -/
def validUtf8Text (text : List UInt8) : Bool :=
  text.length ≤ maxHubNameBytes ∧ (cborText text (maxHubNameBytes + 2)).isOk

/-- `cbor_bool`. -/
def cborBool (r : Reader) : Option (Bool × Reader) :=
  (r.head sessionMaxItems).bind fun (major, argument, r) =>
    if major ≠ 7 ∨ (argument ≠ 20 ∧ argument ≠ 21) then none else some (argument = 21, r)

/-- `limited_size`. -/
def limitedSize (value maximum fallback : ℕ) : ℕ :=
  if 0 < value ∧ value ≤ maximum then value else fallback

/-- The entries of a map of the welcome: `entry` reads the value of a key. -/
def mapEntries (entry : ℕ → Welcome → Reader → Option (Welcome × Reader)) :
    ℕ → Welcome → Reader → Option (Welcome × Reader)
  | 0, welcome, r => some (welcome, r)
  | pairs + 1, welcome, r =>
    (r.uintv sessionMaxItems).bind fun (key, r) =>
      (entry key welcome r).bind fun (welcome, r) => mapEntries entry pairs welcome r

/-- A map of the welcome. -/
def welcomeMap (entry : ℕ → Welcome → Reader → Option (Welcome × Reader)) (welcome : Welcome)
    (r : Reader) : Option (Welcome × Reader) :=
  (r.head sessionMaxItems).bind fun (major, pairs, r) =>
    if major ≠ 5 ∨ 32 < pairs then none else mapEntries entry pairs welcome r

/-- The value of a key that is not known. -/
def unknownEntry (welcome : Welcome) (r : Reader) : Option (Welcome × Reader) :=
  (r.skip sessionMaxItems maxDepth).map fun r => (welcome, r)

/-- One entry of `parse_caps`. -/
def capsEntry (key : ℕ) (welcome : Welcome) (r : Reader) : Option (Welcome × Reader) :=
  if key = 0 then
    (cborBool r).map fun (enabled, r) => ({ welcome with resource_envelopes := enabled }, r)
  else unknownEntry welcome r

/-- The limit of a key. -/
def Welcome.withLimit (welcome : Welcome) (value : ℕ) : ℕ → Welcome
  | 0 => { welcome with max_nick_bytes := limitedSize value maxNickBytes welcome.max_nick_bytes }
  | 1 => { welcome with max_room_bytes := limitedSize value maxRoomBytes welcome.max_room_bytes }
  | 2 => { welcome with
      max_message_bytes := limitedSize value maxEnvelopeSize welcome.max_message_bytes }
  | 3 => { welcome with max_rooms := limitedSize value 1024 welcome.max_rooms }
  | _ => { welcome with rate_per_minute := limitedSize value 1000000 welcome.rate_per_minute }

/-- One entry of `parse_limits`. -/
def limitsEntry (key : ℕ) (welcome : Welcome) (r : Reader) : Option (Welcome × Reader) :=
  if 4 < key then unknownEntry welcome r
  else (r.uintv sessionMaxItems).map fun (value, r) => (welcome.withLimit value key, r)

/-- A text of the welcome, in a field of so many bytes. -/
def welcomeText (capacity : ℕ) (r : Reader) : Except Status (List UInt8 × Reader) :=
  match r.string sessionMaxItems 3 with
  | none => .error .protocol
  | some (text, r) =>
    if capacity < text.length then .error .overflow
    else if ¬ validUtf8Text text then .error .protocol
    else .ok (text, r)

/-- The value of one entry of `rns_rrc_welcome_parse`. -/
def welcomeEntry (key : ℕ) (welcome : Welcome) (r : Reader) : Except Status (Welcome × Reader) :=
  match key with
  | 0 => (welcomeText maxHubNameBytes r).map fun (text, r) => ({ welcome with hub_name := text }, r)
  | 1 => (welcomeText maxVersionBytes r).map fun (text, r) =>
      ({ welcome with hub_version := text }, r)
  | 2 => (welcomeMap capsEntry welcome r).elim (.error .protocol) .ok
  | 3 => (welcomeMap limitsEntry welcome r).elim (.error .protocol) .ok
  | _ => (unknownEntry welcome r).elim (.error .protocol) .ok

/-- The loop of `rns_rrc_welcome_parse`. -/
def welcomeEntries : ℕ → Welcome → Reader → Except Status (Welcome × Reader)
  | 0, welcome, r => .ok (welcome, r)
  | pairs + 1, welcome, r =>
    match r.uintv sessionMaxItems with
    | none => .error .protocol
    | some (key, r) =>
      (welcomeEntry key welcome r).bind fun (welcome, r) => welcomeEntries pairs welcome r

/-- `rns_rrc_welcome_parse`. -/
def welcomeParse (body : List UInt8) : Except Status Welcome :=
  if body.length = 0 ∨ maxEnvelopeSize < body.length then .error .invalidArgument
  else
    match Reader.head sessionMaxItems ⟨body, 0⟩ with
    | none => .error .protocol
    | some (major, pairs, r) =>
      if major ≠ 5 ∨ 32 < pairs then .error .protocol
      else
        (welcomeEntries pairs welcomeDefaults r).bind fun (welcome, r) =>
          if r.rest = [] then .ok welcome else .error .protocol

/-! ## The state -/

/-- `rns_rrc_session_state_t`. -/
inductive SessionState
  | disconnected
  | discovering
  | linking
  | hello
  | connected
  | reconnectWait
  | failed
deriving DecidableEq, Repr

/-- `rns_rrc_session_info_t`. -/
structure Info where
  state : SessionState
  last_error : Status
  hello_attempts : ℕ
  reconnect_attempts : ℕ
  next_action_ms : ℕ
  welcome : Welcome
  motd : List UInt8
deriving DecidableEq

/-- `rrc_room_record_t`. -/
structure Room where
  name : List UInt8
  desired : Bool
  joined : Bool
  join_pending : Bool
  part_pending : Bool
  key : List UInt8
  members : List (Octets 16)
deriving DecidableEq

/-- `room_add_member`. -/
def Room.addMember (room : Room) (member : Octets 16) : Room :=
  if member ∈ room.members ∨ maxTrackedMembers ≤ room.members.length then room
  else { room with members := room.members ++ [member] }

/-- `room_remove_member`. -/
def Room.removeMember (room : Room) (member : Octets 16) : Room :=
  { room with members := room.members.erase member }

/-- The buffers that room names are written into. -/
inductive Buffer
  /-- `normalized` of `apply_room_event`. -/
  | event
  /-- `normalized` of the functions that the application calls. -/
  | call
  /-- `name` of a room record. -/
  | record
deriving DecidableEq, Repr

/-- The bytes of a buffer. -/
def Buffer.size : Buffer → ℕ
  | .event => defaultMaxRoomBytes
  | .call => maxRoomBytes
  | .record => defaultMaxRoomBytes

/-- What a session did. -/
inductive Observation
  /-- So many bytes were written into a buffer, from its start on. -/
  | wrote (buffer : Buffer) (count : ℕ)
  /-- The link took an envelope. -/
  | sent (envelope : Envelope)
deriving DecidableEq

/-- The part of `rns_rrc_session_options_t` that the session reads, with the hash of the local
identity. -/
structure SessionOptions where
  local_hash : Octets 16
  nick : List UInt8
  auto_reconnect : Bool
  path_timeout_ms : ℕ
  hello_interval_ms : ℕ
  hello_max_attempts : ℕ
deriving DecidableEq

/-- The options that a session keeps: those that are not given have defaults. -/
def SessionOptions.defaults (options : SessionOptions) : SessionOptions :=
  { options with
    path_timeout_ms := if options.path_timeout_ms = 0 then 5000 else options.path_timeout_ms
    hello_interval_ms := if options.hello_interval_ms = 0 then 3000 else options.hello_interval_ms
    hello_max_attempts := if options.hello_max_attempts = 0 then 5 else options.hello_max_attempts }

/-- `rns_rrc_session`. A link is known by a number. -/
structure Session where
  options : SessionOptions
  link : Option ℕ
  info : Info
  deadline_ms : ℕ
  now_ms : ℕ
  manual_disconnect : Bool
  link_active : Bool
  link_closed : Bool
  welcome_pending : Bool
  rejoin_pending : Bool
  rooms : List Room
  log : List Observation
deriving DecidableEq

namespace Session

section

variable (net : Network) (tx : Transmission) (s : Session) (index : ℕ)

/-- `rns_rrc_session_create`. -/
def create (options : SessionOptions) : Session where
  options := options.defaults
  link := none
  info :=
    { state := .disconnected
      last_error := .ok
      hello_attempts := 0
      reconnect_attempts := 0
      next_action_ms := 0
      welcome := welcomeDefaults
      motd := [] }
  deadline_ms := 0
  now_ms := 0
  manual_disconnect := false
  link_active := false
  link_closed := false
  welcome_pending := false
  rejoin_pending := false
  rooms := []
  log := []

/-- `transition`. -/
def transition (state : SessionState) (error : Status) : Session :=
  { s with info := { s.info with state, last_error := error } }

/-- An entry of the log. -/
def observe (observation : Observation) : Session :=
  { s with log := s.log ++ [observation] }

/-! ## Rooms -/

/-- `find_room`: the index of the record. -/
def findRoom (name : List UInt8) : Option ℕ :=
  s.rooms.findIdx? fun room => room.name = name

/-- The record that `add_room` begins with. -/
def newRoom (name : List UInt8) : Room where
  name := name
  desired := false
  joined := false
  join_pending := false
  part_pending := false
  key := []
  members := []

/-- `add_room`: the index of the record, if there is room for it. -/
def addRoom (name : List UInt8) : Option ℕ × Session :=
  match s.findRoom name with
  | some index => (some index, s)
  | none =>
    if maxTrackedRooms ≤ s.rooms.length ∨ s.info.welcome.max_rooms ≤ s.rooms.length then (none, s)
    else
      (some s.rooms.length,
        { s with rooms := s.rooms ++ [newRoom name] }.observe (.wrote .record name.length))

/-- `remove_room`. -/
def removeRoom : Session := { s with rooms := s.rooms.eraseIdx index }

/-- A change of the record at an index. -/
def updateRoom (f : Room → Room) : Session :=
  { s with rooms := s.rooms.modify index f }

/-- The record at an index. -/
def roomAt : Room := s.rooms.getD index (newRoom [])

/-- `clear_transient_room_state`. -/
def clearTransientRoomState : Session :=
  { s with
    info := { s.info with motd := [] }
    rooms := (s.rooms.filter fun room => room.desired).map fun room =>
      { room with joined := false, join_pending := false, part_pending := false, members := [] } }

/-- The bytes that `normalized_room` takes off the ends of a name. -/
def isBlank (b : UInt8) : Bool := b = 0x20 ∨ b = 0x09 ∨ b = 0x0d ∨ b = 0x0a

/-- A name without the blanks at its ends. -/
def trimmed (input : List UInt8) : List UInt8 := (input.dropWhile isBlank).rdropWhile isBlank

/-- A letter in lower case. -/
def lowered (b : UInt8) : UInt8 := if 0x41 ≤ b ∧ b ≤ 0x5a then b + 0x20 else b

/-- `normalized_room`, into a buffer. The name is written before it is known to be text. -/
def normalizedRoom (buffer : Buffer) (s : Session) (input : List UInt8) :
    Except Status (List UInt8) × Session :=
  if input.length = 0 then (.error .invalidArgument, s)
  else
    let length := (trimmed input).length
    if length = 0 ∨ s.info.welcome.max_room_bytes < length ∨ maxRoomBytes < length then
      (.error .overflow, s)
    else
      let name := (trimmed input).map lowered
      let s := s.observe (.wrote buffer length)
      if ¬ (cborText name (maxRoomBytes + 2)).isOk then (.error .invalidArgument, s)
      else (.ok name, s)

/-! ## Sending -/

/-- What the runtime and the host answer while one envelope is sent. -/
structure Transmission where
  link_active : Bool
  wallclock : Except Status UInt64
  random : Option (Octets 8)
  link_send : Status

/-- `send_envelope`, with the id of the message that was sent. -/
def sendEnvelope (type : MessageType) (room body : List UInt8)
    (include_nick : Bool) : Except Status (Octets 8) × Session :=
  if s.link = none ∨ ¬ tx.link_active then (.error .invalidState, s)
  else
    match tx.wallclock with
    | .error status => (.error status, s)
    | .ok timestamp_ms =>
      match tx.random with
      | none => (.error .crypto, s)
      | some message_id =>
        let envelope : Envelope :=
          { version := 1, type, message_id, timestamp_ms, source := s.options.local_hash, room
            body_cbor := body, nick := if include_nick then s.options.nick else [] }
        match envelopeEncode envelope mtu with
        | .error status => (.error status, s)
        | .ok _ =>
          if tx.link_send = .ok then (.ok message_id, s.observe (.sent envelope))
          else (.error tx.link_send, s)

/-- The status of a result. -/
def statusOf {α : Type} : Except Status α → Status
  | .ok _ => .ok
  | .error status => status

/-- `send_join_record`. -/
def sendJoinRecord (key : List UInt8) : Status × Session :=
  match if key = [] then .ok [] else cborText key 258 with
  | .error status => (status, s)
  | .ok body =>
    match s.sendEnvelope tx .join (s.roomAt index).name body true with
    | (.error status, s) => (status, s)
    | (.ok _, s) => (.ok, s.updateRoom index fun room => { room with join_pending := true })

/-! ## Packets -/

/-- `apply_room_event`, once the name is normalized. -/
def roomEvent (envelope : Envelope) (name : List UInt8) : Session :=
  if envelope.type = .error then
    match s.findRoom name with
    | none => s
    | some index =>
      if (s.roomAt index).join_pending ∨ ¬ (s.roomAt index).desired then s.removeRoom index
      else s.updateRoom index fun room => { room with join_pending := false, part_pending := false }
  else
    match if envelope.body_cbor = [] then .ok []
      else memberListParse envelope.body_cbor maxTrackedMembers with
    | .error _ => s
    | .ok members =>
      if envelope.type = .joined then
        match s.addRoom name with
        | (none, s) => s
        | (some index, s) =>
          s.updateRoom index fun room =>
            (members.foldl Room.addMember
              { room with desired := true, joined := true, join_pending := false }).addMember
              s.options.local_hash
      else if envelope.type = .parted then
        match s.findRoom name with
        | none => s
        | some index =>
          if (s.roomAt index).part_pending then s.removeRoom index
          else s.updateRoom index fun room => members.foldl Room.removeMember room
      else s

/-- `apply_room_event`. -/
def applyRoomEvent (envelope : Envelope) : Session :=
  match s.normalizedRoom .event envelope.room with
  | (.error _, s) => s
  | (.ok name, s) => s.roomEvent envelope name

/-- The envelopes of a packet. -/
def receiveEnvelope (envelope : Envelope) : Session :=
  match envelope.type with
  | .welcome =>
    let parsed := match welcomeParse envelope.body_cbor with
      | .ok welcome => welcome
      | .error _ => welcomeDefaults
    { s with
      info := { s.info with welcome := parsed }
      welcome_pending := true
      rejoin_pending := true }
  | .joined | .parted | .error => s.applyRoomEvent envelope
  | .notice =>
    if envelope.room = [] ∧ envelope.body_cbor ≠ [] then
      match cborTextParse envelope.body_cbor with
      | .ok text =>
        if text.length ≤ maxMotdBytes then { s with info := { s.info with motd := text } } else s
      | .error _ => s
    else s
  | .ping =>
    if envelope.body_cbor ≠ [] then (s.sendEnvelope tx .pong [] envelope.body_cbor false).2 else s
  | _ => s

/-- `packet_received`. -/
def packetReceived (link : ℕ) (context : UInt8) (plaintext : List UInt8) : Session :=
  if some link ≠ s.link ∨ context ≠ 0 then s
  else
    match envelopeParse plaintext with
    | .error _ => s
    | .ok envelope => s.receiveEnvelope tx envelope

/-- `link_state_changed`. -/
def linkStateChanged (link : ℕ) (state : LinkState) (reason : Status) : Session :=
  if some link ≠ s.link then s
  else if state = .active then { s with link_active := true }
  else if state = .closed then
    { s with
      link_closed := true
      info := { s.info with last_error := if reason ≠ .ok then reason else s.info.last_error } }
  else s

/-! ## Connecting -/

/-- `cleanup_link`. -/
def cleanupLink : Session :=
  { s with link := none, link_active := false, link_closed := false, rejoin_pending := false
    }.clearTransientRoomState

/-- `rns_rrc_session_connect`. -/
def connect (now_ms : ℕ) : Status × Session :=
  if s.info.state ≠ .disconnected ∧ s.info.state ≠ .failed ∧ s.info.state ≠ .reconnectWait then
    (.invalidState, s)
  else
    let s := s.cleanupLink
    let deadline_ms :=
      if 2 ^ 64 - 1 - now_ms < s.options.path_timeout_ms then 2 ^ 64 - 1
      else now_ms + s.options.path_timeout_ms
    let s := { s with
      now_ms
      manual_disconnect := false
      welcome_pending := false
      deadline_ms
      info := { s.info with
        hello_attempts := 0, welcome := welcomeDefaults, next_action_ms := deadline_ms } }
    (.ok, s.transition .discovering .ok)

/-- `schedule_reconnect`. -/
def scheduleReconnect : Session :=
  let s := s.cleanupLink
  let s := { s with info := { s.info with welcome := welcomeDefaults }, welcome_pending := false }
  if ¬ s.options.auto_reconnect ∨ s.manual_disconnect then
    s.transition .disconnected s.info.last_error
  else
    let attempts := s.info.reconnect_attempts + 1
    let delay := min (1000 * 2 ^ min attempts 6) 60000
    let s := { s with info := { s.info with
      reconnect_attempts := attempts, next_action_ms := (s.now_ms + delay) % 2 ^ 64 } }
    s.transition .reconnectWait s.info.last_error

/-- The body of a greeting. -/
def helloBody : List UInt8 :=
  [0xa3, 0x00, 0x68, 0x6e, 0x6f, 0x6d, 0x61, 0x64, 0x6e, 0x65, 0x74, 0x01, 0x63, 0x30, 0x2e, 0x31,
    0x02, 0xa1, 0x00, 0xf5]

/-- `send_hello`. -/
def sendHello : Status × Session :=
  match s.sendEnvelope tx .hello [] helloBody true with
  | (.error status, s) => (status, s)
  | (.ok _, s) =>
    (.ok, { s with info := { s.info with
      hello_attempts := s.info.hello_attempts + 1
      next_action_ms := (s.now_ms + s.options.hello_interval_ms) % 2 ^ 64 } })

/-- What a poll is told by the runtime: whether there is a path, how the link opens, how the session
identifies itself, and what becomes of the envelopes. -/
structure Network where
  path_known : Bool
  link_open : Except Status ℕ
  identify : Status
  hello : Transmission
  rejoin : ℕ → Transmission

/-- A session that failed. -/
def fail (status : Status) : Session := (s.transition .failed status).cleanupLink

/-- The part of a poll that opens the link. -/
def pollDiscovering : Status × Session :=
  if s.info.state ≠ .discovering then (.ok, s)
  else if net.path_known then
    match net.link_open with
    | .error status => (status, s.transition .failed status)
    | .ok link => (.ok, { s with link := some link }.transition .linking .ok)
  else if s.deadline_ms ≤ s.now_ms then (.timeout, s.transition .failed .timeout)
  else (.ok, s)

/-- The part of a poll that greets the hub on a new link. -/
def pollLinking : Status × Session :=
  if s.info.state ≠ .linking ∨ ¬ s.link_active then (.ok, s)
  else if net.identify ≠ .ok then (net.identify, s.fail net.identify)
  else
    match s.sendHello net.hello with
    | (.ok, s) => (.ok, s.transition .hello .ok)
    | (status, s) => (status, s.fail status)

/-- The loop that joins the desired rooms again. -/
def rejoin (net : Network) (s : Session) : Session :=
  (List.range s.rooms.length).foldl (fun s i =>
    if (s.roomAt i).desired then (s.sendJoinRecord (net.rejoin i) i (s.roomAt i).key).2 else s) s

/-- The part of a poll that takes a welcome, or greets again. -/
def pollHello : Status × Session :=
  if s.welcome_pending then
    let s := { s with
      welcome_pending := false
      info := { s.info with reconnect_attempts := 0, next_action_ms := 0 } }.transition .connected .ok
    (.ok, if s.rejoin_pending then rejoin net { s with rejoin_pending := false } else s)
  else if s.info.state = .hello ∧ s.info.next_action_ms ≤ s.now_ms then
    if s.options.hello_max_attempts ≤ s.info.hello_attempts then (.timeout, s.fail .timeout)
    else
      match s.sendHello net.hello with
      | (.ok, s) => (.ok, s)
      | (status, s) => (status, s.fail status)
  else (.ok, s)

/-- `rns_rrc_session_poll`. -/
def poll (now_ms : ℕ) : Status × Session :=
  let s := { s with now_ms }
  if s.link_closed then (.ok, s.scheduleReconnect)
  else if s.info.state = .reconnectWait then
    if s.info.next_action_ms ≤ now_ms then s.connect now_ms else (.ok, s)
  else
    match s.pollDiscovering net with
    | (.ok, s) =>
      match s.pollLinking net with
      | (.ok, s) => s.pollHello net
      | failed => failed
    | failed => failed

/-- `rns_rrc_session_disconnect`. -/
def disconnect : Session :=
  let s := { s with
    manual_disconnect := true
    info := { s.info with reconnect_attempts := 0 } }.cleanupLink
  { s with info := { s.info with next_action_ms := 0 } }.transition .disconnected .ok

/-! ## Calls of the application -/

/-- `rns_rrc_session_join`, with the record of the room. -/
def joinRecord (key : List UInt8) : Status × Session :=
  match s.sendJoinRecord tx index key with
  | (.ok, s) => (.ok, s.updateRoom index fun room => { room with key, desired := true })
  | (status, s) =>
    (status,
      if ¬ (s.roomAt index).desired ∧ ¬ (s.roomAt index).joined then s.removeRoom index else s)

/-- `rns_rrc_session_join`. -/
def join (room key : List UInt8) : Status × Session :=
  if maxRoomKeyBytes < key.length then (.overflow, s)
  else if s.info.state ≠ .connected then (.invalidState, s)
  else
    match s.normalizedRoom .call room with
    | (.error status, s) => (status, s)
    | (.ok name, s) =>
      match s.addRoom name with
      | (none, s) => (.overflow, s)
      | (some index, s) => s.joinRecord tx index key

/-- `rns_rrc_session_part`. -/
def part (tx : Transmission) (s : Session) (room : List UInt8) : Status × Session :=
  if s.info.state ≠ .connected then (.invalidState, s)
  else
    match s.normalizedRoom .call room with
    | (.error status, s) => (status, s)
    | (.ok name, s) =>
      let found := s.findRoom name
      match s.sendEnvelope tx .part name [] false with
      | (.error status, s) => (status, s)
      | (.ok _, s) =>
        match found with
        | none => (.ok, s)
        | some index =>
          (.ok, s.updateRoom index fun room => { room with desired := false, part_pending := true })

/-- `rns_rrc_session_send_message`. `memory` says whether the buffer of the body can be
allocated. -/
def sendMessage (room message : List UInt8) (memory : Bool) : Except Status (Octets 8) × Session :=
  if message.length = 0 then (.error .invalidArgument, s)
  else if s.info.state ≠ .connected then (.error .invalidState, s)
  else if s.info.welcome.max_message_bytes < message.length then (.error .overflow, s)
  else if ¬ memory then (.error .noMemory, s)
  else
    match s.normalizedRoom .call room with
    | (.error status, s) => (.error status, s)
    | (.ok name, s) =>
      match cborText message (message.length + 9) with
      | .error status => (.error status, s)
      | .ok body => s.sendEnvelope tx .message name body true

/-- `rns_rrc_session_ping`, with the nonce that is drawn for it. -/
def ping (tx : Transmission) (s : Session) (nonce : Option (Octets 8)) : Status × Session :=
  if s.info.state ≠ .connected then (.invalidState, s)
  else
    match nonce with
    | none => (.crypto, s)
    | some nonce =>
      let result := s.sendEnvelope tx .ping [] (0x48 :: nonce.bytes) false
      (statusOf result.1, result.2)

/-! ## Runs -/

/-- A call of the application, or of the runtime. -/
inductive Call
  | connect (now_ms : ℕ)
  | poll (now_ms : ℕ) (net : Network)
  | disconnect
  | join (room key : List UInt8) (tx : Transmission)
  | part (room : List UInt8) (tx : Transmission)
  | sendMessage (room message : List UInt8) (memory : Bool) (tx : Transmission)
  | ping (nonce : Option (Octets 8)) (tx : Transmission)
  | linkState (link : ℕ) (state : LinkState) (reason : Status)
  | packet (link : ℕ) (context : UInt8) (plaintext : List UInt8) (tx : Transmission)

/-- The session after a call. -/
def step : Call → Session
  | .connect now_ms => (s.connect now_ms).2
  | .poll now_ms net => (s.poll net now_ms).2
  | .disconnect => s.disconnect
  | .join room key tx => (s.join tx room key).2
  | .part room tx => (s.part tx room).2
  | .sendMessage room message memory tx => (s.sendMessage tx room message memory).2
  | .ping nonce tx => (s.ping tx nonce).2
  | .linkState link state reason => s.linkStateChanged link state reason
  | .packet link context plaintext tx => s.packetReceived tx link context plaintext

end

end Session

end Reticulum.Rrc
