import Reticulum.Status

/-!
# How interfaces give packets away

The receiving side of `src/interfaces`: the HDLC decoder of `framing.c`, the connections of `tcp.c`
and `local.c`, the sockets of `udp.c`, and the queues of `kiss.c` and `rnode.c`. Each of them calls
a callback with the packets it has, so all of them are functions of a callback and of what it works
on. What the operating system says (what `recv` returns, whether the device can be opened) is part
of the input.

Of each it is proved that it does nothing to the context but call the callback so many times
(`Calls`), and how often at most: as often as its limit says, or, where it has none, once for each
frame that its decoder completes from the bytes that were received (`Gives`).
-/

namespace Reticulum.Interfaces

open Nat

/-- A callback for packets: what it says of one, and what it works on afterwards. -/
def Callback (α β : Type*) := α → β → Status × α

variable {α β : Type*}

/-! ## Frames of a stream -/

/-- `rns_hdlc_decoder_t`, with the bytes of the buffer that are in use. -/
structure HdlcDecoder where
  buffer : List UInt8
  capacity : ℕ
  synchronized : Bool
  escaped : Bool
  discarding : Bool
  malformed_frames : ℕ
  oversized_frames : ℕ
deriving DecidableEq

/-- `rns_hdlc_decoder_init`. -/
def HdlcDecoder.init (capacity : ℕ) : HdlcDecoder :=
  ⟨[], capacity, false, false, false, 0, 0⟩

/-- `hdlc_flag`: a flag ends a frame. -/
def HdlcDecoder.flag (callback : Callback α (List UInt8)) (decoder : HdlcDecoder) (context : α) :
    Status × HdlcDecoder × α :=
  let decoder :=
    if decoder.escaped then
      { decoder with malformed_frames := decoder.malformed_frames + 1, discarding := true }
    else decoder
  let (status, context) :=
    if decoder.synchronized && !decoder.discarding && decoder.buffer.length ≠ 0 then
      callback context decoder.buffer
    else (.ok, context)
  (status,
    { decoder with buffer := [], synchronized := true, escaped := false, discarding := false },
    context)

/-- What `rns_hdlc_decoder_feed` does with a byte that is not a flag. -/
def HdlcDecoder.push (decoder : HdlcDecoder) (byte : UInt8) : HdlcDecoder :=
  if !decoder.synchronized || decoder.discarding then decoder
  else if !decoder.escaped ∧ byte = 0x7d then { decoder with escaped := true }
  else
    let byte := if decoder.escaped then byte ^^^ 0x20 else byte
    if decoder.buffer.length = decoder.capacity then
      { decoder with
        oversized_frames := decoder.oversized_frames + 1
        discarding := true
        buffer := []
        escaped := false }
    else { decoder with buffer := decoder.buffer ++ [byte], escaped := false }

/-- The loop of `rns_hdlc_decoder_feed`. It ends at the first frame that the callback refuses. -/
def HdlcDecoder.feedBytes (callback : Callback α (List UInt8)) :
    List UInt8 → HdlcDecoder → α → Status × HdlcDecoder × α
  | [], decoder, context => (.ok, decoder, context)
  | byte :: input, decoder, context =>
    if byte = 0x7e then
      match decoder.flag callback context with
      | (.ok, decoder, context) => feedBytes callback input decoder context
      | refused => refused
    else feedBytes callback input (decoder.push byte) context

/-- `rns_hdlc_decoder_feed`. -/
def HdlcDecoder.feed (callback : Callback α (List UInt8)) (decoder : HdlcDecoder)
    (input : List UInt8) (context : α) : Status × HdlcDecoder × α :=
  if decoder.capacity = 0 then (.invalidArgument, decoder, context)
  else feedBytes callback input decoder context

/-- Whether a flag completes a frame. -/
def HdlcDecoder.completes (decoder : HdlcDecoder) : Bool :=
  decoder.synchronized && !decoder.discarding && !decoder.escaped && decoder.buffer.length ≠ 0

/-- The decoder behind a byte. -/
def HdlcDecoder.next (decoder : HdlcDecoder) (byte : UInt8) : HdlcDecoder :=
  if byte = 0x7e then
    { decoder with
      malformed_frames := decoder.malformed_frames + if decoder.escaped then 1 else 0
      buffer := []
      synchronized := true
      escaped := false
      discarding := false }
  else decoder.push byte

/-- How many frames a decoder completes from bytes. -/
def HdlcDecoder.frames : HdlcDecoder → List UInt8 → ℕ
  | _, [] => 0
  | decoder, byte :: input =>
    (if byte = 0x7e ∧ decoder.completes then 1 else 0) + frames (decoder.next byte) input

/-! ## Connections -/

/-- What `recv` returns when a connection has no more bytes. -/
inductive Ending
  | again
  | closed
  | failed
deriving DecidableEq

/-- A connected `rns_tcp_endpoint_t`: what each call of `recv` will return, what it returns then,
and what `rns_tcp_flush` will say. -/
structure Connection where
  connected : Bool
  decoder : HdlcDecoder
  input : List (List UInt8)
  ending : Ending
  flush : Status
deriving DecidableEq

/-- The loop of `rns_tcp_poll_receive` over what `recv` returns. -/
def Connection.receive (callback : Callback α (List UInt8)) (connection : Connection) :
    List (List UInt8) → HdlcDecoder → α → Status × Connection × α
  | [], decoder, context =>
    match connection.ending with
    | .again => (.ok, { connection with decoder, input := [] }, context)
    | .closed | .failed => (.io, { connection with decoder, input := [], connected := false }, context)
  | chunk :: input, decoder, context =>
    match decoder.feed callback chunk context with
    | (.ok, decoder, context) => connection.receive callback input decoder context
    | (status, decoder, context) => (status, { connection with decoder, input }, context)

/-- `rns_tcp_poll_receive`. -/
def Connection.pollReceive (callback : Callback α (List UInt8)) (connection : Connection)
    (context : α) : Status × Connection × α :=
  if !connection.connected then (.invalidState, connection, context)
  else connection.receive callback connection.input connection.decoder context

/-- `poll_connection`, and the end of `poll_tcp`: what was received is followed by what is sent. -/
def Connection.poll (callback : Callback α (List UInt8)) (connection : Connection) (context : α) :
    Status × Connection × α :=
  match connection.pollReceive callback context with
  | (.ok, connection, context) =>
    (connection.flush, { connection with connected := decide (connection.flush = .ok) }, context)
  | refused => refused

/-- How many frames a connection completes from what it has received. -/
def Connection.frames (connection : Connection) : ℕ :=
  if connection.connected ∧ connection.decoder.capacity ≠ 0 then
    connection.decoder.frames connection.input.flatten
  else 0

/-- The loop of `poll_server` over the peers. A peer whose connection is lost gives its place
free. -/
def pollPeers (callback : Callback α (List UInt8)) :
    List (Option Connection) → Status → α → Status × List (Option Connection) × α
  | [], first_error, context => (first_error, [], context)
  | none :: peers, first_error, context =>
    let (first_error, peers, context) := pollPeers callback peers first_error context
    (first_error, none :: peers, context)
  | some peer :: peers, first_error, context =>
    let (status, peer, context) := peer.poll callback context
    if status ≠ .ok ∧ !peer.connected then
      let (first_error, peers, context) := pollPeers callback peers first_error context
      (first_error, none :: peers, context)
    else
      let first_error := if first_error = .ok then status else first_error
      let (first_error, peers, context) := pollPeers callback peers first_error context
      (first_error, some peer :: peers, context)

/-- `rns_local_instance_t`: a server with its peers, or a client. A poll may return before it looks
at a connection. -/
inductive LocalInstance
  | server (unready : Option Status) (peers : List (Option Connection))
  | client (unready : Option Status) (connection : Connection)
deriving DecidableEq

/-- `rns_local_instance_poll`. -/
def LocalInstance.poll (callback : Callback α (List UInt8)) :
    LocalInstance → α → Status × LocalInstance × α
  | .server (some status) peers, context => (status, .server (some status) peers, context)
  | .server none peers, context =>
    let (status, peers, context) := pollPeers callback peers .ok context
    (status, .server none peers, context)
  | .client (some status) connection, context =>
    (status, .client (some status) connection, context)
  | .client none connection, context =>
    let (status, connection, context) := connection.poll callback context
    (status, .client none connection, context)

/-- How many frames the connections of an instance complete. -/
def LocalInstance.frames : LocalInstance → ℕ
  | .server none peers => (peers.map fun peer => (peer.map Connection.frames).getD 0).sum
  | .client none connection => connection.frames
  | .server (some _) _ | .client (some _) _ => 0

/-- What `poll_tcp` works on: the connection that it has once it accepted or connected, unless it
returns there. -/
structure Tcp where
  server : Bool
  unready : Option Status
  connection : Connection
deriving DecidableEq

/-- `poll_tcp` of the runtime. A server that loses its connection goes on. -/
def Tcp.poll (callback : Callback α (List UInt8)) (tcp : Tcp) (context : α) : Status × Tcp × α :=
  match tcp.unready with
  | some status => (status, tcp, context)
  | none =>
    let (status, connection, context) := tcp.connection.poll callback context
    (if tcp.server ∧ !connection.connected then .ok else status, { tcp with connection }, context)

/-- How many frames its connection completes. -/
def Tcp.frames (tcp : Tcp) : ℕ := if tcp.unready = none then tcp.connection.frames else 0

/-! ## Datagrams -/

/-- The loop of `rns_udp_poll` after `count` datagrams, where a datagram is what the callback is
called with or the error that ends the loop. -/
def udpLoop (callback : Callback α β) (max_datagrams : ℕ) :
    ℕ → List (Except Status β) → α → Status × List (Except Status β) × α
  | _, [], context => (.ok, [], context)
  | count, datagram :: datagrams, context =>
    if max_datagrams = 0 ∨ count < max_datagrams then
      match datagram with
      | .error status => (status, datagrams, context)
      | .ok packet =>
        match callback context packet with
        | (.ok, context) => udpLoop callback max_datagrams (count + 1) datagrams context
        | (status, context) => (status, datagrams, context)
    else (.ok, datagram :: datagrams, context)

/-- `rns_udp_poll`. -/
def udpPoll (callback : Callback α β) (max_datagrams : ℕ) (datagrams : List (Except Status β))
    (context : α) : Status × List (Except Status β) × α :=
  udpLoop callback max_datagrams 0 datagrams context

/-- `data_receive` of `auto_posix.c`: a datagram for which `rns_auto_ingest_data` returns a status
of its own, or one that it gives away. -/
def dataReceive (callback : Callback α (List UInt8)) : Callback α (Except Status (List UInt8)) :=
  fun context datagram =>
    let (status, context) :=
      match datagram with
      | .error status => (status, context)
      | .ok packet => callback context packet
    (if status = .notFound ∨ status = .invalidState then .ok else status, context)

/-- `rns_auto_posix_t`: what the two polls for discovery will say, the datagrams with data, and what
`rns_auto_poll` will say. -/
structure Auto where
  discovery : Status
  data : List (Except Status (Except Status (List UInt8)))
  announce : Status

/-- The polls of `rns_auto_posix_poll`. -/
def Auto.receive (callback : Callback α (List UInt8)) (max_packets : ℕ) (endpoint : Auto)
    (context : α) : Status × Auto × α :=
  if endpoint.discovery ≠ .ok then (endpoint.discovery, endpoint, context)
  else
    match udpPoll (dataReceive callback) max_packets endpoint.data context with
    | (.ok, data, context) => (endpoint.announce, { endpoint with data }, context)
    | (status, data, context) => (status, { endpoint with data }, context)

/-- `rns_auto_posix_poll`. -/
def Auto.poll (callback : Callback α (List UInt8)) (max_packets : ℕ) (endpoint : Auto)
    (context : α) : Status × Auto × α :=
  let (status, endpoint, context) := endpoint.receive callback max_packets context
  (if status = .invalidState then .ok else status, endpoint, context)

/-! ## Queues -/

/-- `dispatch_received` of `kiss.c` and `rnode.c`, with the count of packets before and after. A
packet that the callback refuses stays in the queue. -/
def dispatchReceived (callback : Callback α (List UInt8)) (limit : ℕ) :
    List (List UInt8) → ℕ → α → Status × List (List UInt8) × ℕ × α
  | [], processed, context => (.ok, [], processed, context)
  | packet :: queue, processed, context =>
    if processed < limit then
      match callback context packet with
      | (.ok, context) => dispatchReceived callback limit queue (processed + 1) context
      | (status, context) => (status, packet :: queue, processed, context)
    else (.ok, packet :: queue, processed, context)

/-- The depth of the queues, `KISS_QUEUE_DEPTH` and `RNODE_QUEUE_DEPTH`. -/
def queueDepth : ℕ := 8

/-- `rns_kiss_endpoint_t`: the packets in its queue, and what will come of opening the device, of
reading it and of writing to it. -/
structure Kiss where
  receive_queue : List (List UInt8)
  /-- The status of a poll that returns before it looks at the queue. -/
  unready : Option Status
  read : Status × List (List UInt8)
  write : Status
deriving DecidableEq

/-- `rns_kiss_endpoint_poll`. -/
def Kiss.poll (callback : Callback α (List UInt8)) (max_packets : ℕ) (endpoint : Kiss)
    (context : α) : Status × Kiss × α :=
  match endpoint.unready with
  | some status => (status, endpoint, context)
  | none =>
    let limit := if max_packets = 0 then queueDepth else max_packets
    match dispatchReceived callback limit endpoint.receive_queue 0 context with
    | (.ok, queue, processed, context) =>
      let (status, arrived) := if processed < limit then endpoint.read else (.ok, [])
      let queue := queue ++ arrived
      if status ≠ .ok then (status, { endpoint with receive_queue := queue }, context)
      else
        match dispatchReceived callback limit queue processed context with
        | (.ok, queue, _, context) =>
          (endpoint.write, { endpoint with receive_queue := queue }, context)
        | (status, queue, _, context) =>
          (status, { endpoint with receive_queue := queue }, context)
    | (status, queue, _, context) => (status, { endpoint with receive_queue := queue }, context)

/-- `rns_rnode_endpoint_t`: the packets in its queue once the device was read, and what the poll
says up to there. -/
structure Rnode where
  receive : List (List UInt8)
  /-- The status of a poll that returns before it looks at the queue. -/
  unready : Option Status
deriving DecidableEq

/-- `rns_rnode_endpoint_poll`. -/
def Rnode.poll (callback : Callback α (List UInt8)) (max_packets : ℕ) (endpoint : Rnode)
    (context : α) : Status × Rnode × α :=
  match endpoint.unready with
  | some status => (status, endpoint, context)
  | none =>
    let limit := if max_packets = 0 then queueDepth else max_packets
    let (status, queue, _, context) := dispatchReceived callback limit endpoint.receive 0 context
    (status, { endpoint with receive := queue }, context)

/-! ## The calls of the callback -/

/-- The callback is called so many times on the way from one context to the other. -/
inductive Calls (callback : Callback α β) : ℕ → α → α → Prop
  | none (a : α) : Calls callback 0 a a
  | more {n : ℕ} {a b : α} (packet : β) (rest : Calls callback n (callback a packet).2 b) :
    Calls callback (n + 1) a b

/-- Calls after calls. -/
theorem Calls.trans {callback : Callback α β} {m n : ℕ} {a b c : α} (h : Calls callback m a b)
    (h' : Calls callback n b c) : Calls callback (m + n) a c := by
  induction h with
  | none a => exact (zero_add n).symm ▸ h'
  | more packet _ ih => exact (succ_add _ n).symm ▸ .more packet (ih h')

/-- One call. -/
theorem Calls.one {callback : Callback α β} {a b : α} {status : Status} (packet : β)
    (h : callback a packet = (status, b)) : Calls callback 1 a b :=
  .more packet (by rw [h]; exact .none b)

section Unlimited

variable {callback : Callback α (List UInt8)}

/-- The callback is called once for each of so many frames, up to the first one that it refuses. -/
def Gives (callback : Callback α (List UInt8)) (frames : ℕ) (a b : α) : Prop :=
  ∃ n, Calls callback n a b ∧ n ≤ frames ∧
    ((∀ context frame, (callback context frame).1 = .ok) → n = frames)

/-- No frame, and no call. -/
theorem Gives.none (a : α) : Gives callback 0 a a := ⟨0, .none a, le_rfl, fun _ => rfl⟩

/-- The frames of two connections one after the other. -/
theorem Gives.trans {m n : ℕ} {a b c : α} (h : Gives callback m a b) (h' : Gives callback n b c) :
    Gives callback (m + n) a c := by
  obtain ⟨k, hcalls, hle, hall⟩ := h
  obtain ⟨k', hcalls', hle', hall'⟩ := h'
  exact ⟨k + k', hcalls.trans hcalls', by omega, fun haccept => by rw [hall haccept, hall' haccept]⟩

/-- A flag gives the frame away that it completes. -/
theorem HdlcDecoder.flag_calls (decoder : HdlcDecoder) (context : α) :
    let r := decoder.flag callback context
    r.2.1 = decoder.next 0x7e ∧ Calls callback (if decoder.completes then 1 else 0) context r.2.2 ∧
      ((∀ context frame, (callback context frame).1 = .ok) → r.1 = .ok) := by
  unfold HdlcDecoder.flag HdlcDecoder.next HdlcDecoder.completes
  cases decoder.escaped <;> cases hdiscarding : decoder.discarding <;>
    cases hsync : decoder.synchronized <;> by_cases hempty : decoder.buffer.length = 0
  all_goals simp [hempty, hdiscarding, hsync, Calls.none]
  exact ⟨.one decoder.buffer rfl, fun haccept => haccept _ _⟩

/-- Bytes give the frames away that they complete, up to the first one that is refused. -/
theorem HdlcDecoder.feedBytes_calls (input : List UInt8) (decoder : HdlcDecoder) (context : α) :
    let r := feedBytes callback input decoder context
    ∃ n, Calls callback n context r.2.2 ∧ n ≤ decoder.frames input ∧
      (r.1 = .ok → n = decoder.frames input ∧ r.2.1 = input.foldl next decoder) ∧
      ((∀ context frame, (callback context frame).1 = .ok) → r.1 = .ok) := by
  induction input generalizing decoder context with
  | nil => exact ⟨0, .none context, le_rfl, fun _ => ⟨rfl, rfl⟩, fun _ => rfl⟩
  | cons byte input ih =>
    unfold feedBytes frames
    by_cases hbyte : byte = 0x7e
    · subst hbyte
      obtain ⟨hnext, hcalls, haccepted⟩ := @HdlcDecoder.flag_calls α callback decoder context
      simp only [if_true, true_and]
      rcases hflag : decoder.flag callback context with ⟨status, decoder', context'⟩
      rw [hflag] at hnext hcalls haccepted
      obtain rfl : decoder' = decoder.next 0x7e := hnext
      cases status with
      | ok =>
        obtain ⟨n, hrest, hle, hok, haccept⟩ := ih (decoder.next 0x7e) context'
        exact ⟨_, hcalls.trans hrest, by omega, fun h => ⟨by rw [(hok h).1], (hok h).2⟩, haccept⟩
      | _ => exact ⟨_, hcalls, le_add_right _ _, nofun, haccepted⟩
    · simp only [hbyte, if_false, false_and, Nat.zero_add, next, List.foldl_cons]
      exact ih (decoder.push byte) context

/-- The frames of bytes that come in two parts. -/
theorem HdlcDecoder.frames_append (decoder : HdlcDecoder) (input more : List UInt8) :
    decoder.frames (input ++ more) = decoder.frames input + (input.foldl next decoder).frames more := by
  induction input generalizing decoder with
  | nil => exact (Nat.zero_add _).symm
  | cons byte input ih =>
    rw [List.cons_append, frames, ih, frames, List.foldl_cons, Nat.add_assoc]

/-- Bytes leave the size of the buffer. -/
theorem HdlcDecoder.capacity_foldl (input : List UInt8) (decoder : HdlcDecoder) :
    (input.foldl next decoder).capacity = decoder.capacity := by
  induction input generalizing decoder with
  | nil => rfl
  | cons byte input ih =>
    rw [List.foldl_cons, ih]
    unfold next push
    split_ifs <;> rfl

/-- What was received gives the frames away that it completes, in whatever chunks it came. -/
theorem Connection.receive_gives (connection : Connection) (input : List (List UInt8))
    {decoder : HdlcDecoder} (hcapacity : decoder.capacity ≠ 0) (context : α) :
    Gives callback (decoder.frames input.flatten) context
      (connection.receive callback input decoder context).2.2 := by
  induction input generalizing decoder context with
  | nil =>
    unfold Connection.receive
    split <;> exact .none context
  | cons chunk input ih =>
    obtain ⟨n, hcalls, hle, hok, haccepted⟩ :=
      @HdlcDecoder.feedBytes_calls α callback chunk decoder context
    unfold Connection.receive HdlcDecoder.feed
    rw [if_neg hcapacity, List.flatten_cons, HdlcDecoder.frames_append]
    rcases hfeed : HdlcDecoder.feedBytes callback chunk decoder context with
      ⟨status, decoder', context'⟩
    rw [hfeed] at hcalls hok haccepted
    cases status with
    | ok =>
      obtain ⟨rfl, rfl⟩ := hok rfl
      exact .trans ⟨_, hcalls, le_rfl, fun _ => rfl⟩
        (ih (by rwa [HdlcDecoder.capacity_foldl]) context')
    | _ => exact ⟨n, hcalls, by omega, fun haccept => Status.noConfusion (haccepted haccept)⟩

/-- A poll of a connection gives its frames away. -/
theorem Connection.poll_gives (connection : Connection) (context : α) :
    Gives callback connection.frames context (connection.poll callback context).2.2 := by
  have hreceive : Gives callback connection.frames context
      (connection.pollReceive callback context).2.2 := by
    unfold Connection.pollReceive Connection.frames
    cases connection.connected with
    | false => exact .none context
    | true =>
      by_cases hcapacity : connection.decoder.capacity = 0
      · -- A decoder without a buffer refuses every chunk.
        rw [if_neg (by simp [hcapacity]), if_neg (by decide)]
        cases connection.input with
        | nil =>
          unfold Connection.receive
          split <;> exact .none context
        | cons chunk input =>
          simp only [Connection.receive, HdlcDecoder.feed, if_pos hcapacity]
          exact .none context
      · rw [if_pos ⟨rfl, hcapacity⟩, if_neg (by decide)]
        exact connection.receive_gives _ hcapacity context
  unfold Connection.poll
  split
  · rename_i heq
    rw [heq] at hreceive
    exact hreceive
  · exact hreceive

/-- A server gives the frames of its peers away. -/
theorem pollPeers_gives (peers : List (Option Connection)) (first_error : Status) (context : α) :
    Gives callback (peers.map fun peer => (peer.map Connection.frames).getD 0).sum context
      (pollPeers callback peers first_error context).2.2 := by
  induction peers generalizing first_error context with
  | nil => exact .none context
  | cons peer peers ih =>
    rw [List.map_cons, List.sum_cons]
    cases peer with
    | none =>
      rw [show (Option.map Connection.frames none).getD 0 = 0 from rfl, Nat.zero_add]
      exact ih _ _
    | some peer =>
      have hfirst := @Connection.poll_gives α callback peer context
      unfold pollPeers
      dsimp only
      split
      all_goals exact hfirst.trans (ih _ _)

/-- A poll of the local instance gives each of its frames in order. -/
theorem LocalInstance.poll_gives (instance_ : LocalInstance) (context : α) :
    Gives callback instance_.frames context (instance_.poll callback context).2.2 := by
  rcases instance_ with ⟨_ | status, peers⟩ | ⟨_ | status, connection⟩
  · exact pollPeers_gives peers .ok context
  · exact .none context
  · exact connection.poll_gives context
  · exact .none context

/-- A poll of a TCP interface gives each of its frames in order. -/
theorem Tcp.poll_gives (tcp : Tcp) (context : α) :
    Gives callback tcp.frames context (tcp.poll callback context).2.2 := by
  unfold Tcp.poll Tcp.frames
  cases tcp.unready with
  | some status => exact .none context
  | none => exact tcp.connection.poll_gives context

end Unlimited

section Limited

/-- The loop over datagrams calls back no more often than it may. -/
theorem udpLoop_calls {callback : Callback α β} {max_datagrams : ℕ} (hmax : max_datagrams ≠ 0)
    {count : ℕ} (hcount : count ≤ max_datagrams) (datagrams : List (Except Status β)) (context : α) :
    ∃ n, Calls callback n context (udpLoop callback max_datagrams count datagrams context).2.2 ∧
      n + count ≤ max_datagrams := by
  have hnone : 0 + count ≤ max_datagrams := by omega
  induction datagrams generalizing count context with
  | nil => exact ⟨0, .none context, hnone⟩
  | cons datagram datagrams ih =>
    unfold udpLoop
    split_ifs with hbelow
    · have hbelow : count + 1 ≤ max_datagrams := hbelow.resolve_left hmax
      split
      · exact ⟨0, .none context, hnone⟩
      · rename_i packet
        split
        · rename_i context' heq
          obtain ⟨n, hrest, hle⟩ := ih hbelow context' (by omega)
          exact ⟨1 + n, (Calls.one packet heq).trans hrest, by omega⟩
        · rename_i heq
          exact ⟨1, .one packet heq, by omega⟩
    · exact ⟨0, .none context, hnone⟩

/-- What the callback of the datagrams with data calls. -/
theorem Calls.of_dataReceive {callback : Callback α (List UInt8)} {n : ℕ} {a b : α}
    (h : Calls (dataReceive callback) n a b) : ∃ m, Calls callback m a b ∧ m ≤ n := by
  induction h with
  | none a => exact ⟨0, .none a, le_rfl⟩
  | more datagram _ ih =>
    obtain ⟨m, hrest, hle⟩ := ih
    cases datagram with
    | error status => exact ⟨m, hrest, by omega⟩
    | ok packet => exact ⟨m + 1, .more packet hrest, by omega⟩

variable {callback : Callback α (List UInt8)} {max_packets : ℕ} (hmax : max_packets ≠ 0)
include hmax

/-- A poll of the multicast interface calls back no more often than it may. -/
theorem Auto.poll_calls (endpoint : Auto) (context : α) :
    ∃ n, Calls callback n context (endpoint.poll callback max_packets context).2.2 ∧
      n ≤ max_packets := by
  obtain ⟨n, hcalls, hle⟩ : ∃ n, Calls (dataReceive callback) n context _ ∧ _ :=
    udpLoop_calls hmax (zero_le _) endpoint.data context
  obtain ⟨m, hreceive, hle'⟩ := hcalls.of_dataReceive
  unfold Auto.poll Auto.receive udpPoll
  dsimp only
  split
  · exact ⟨0, .none context, zero_le _⟩
  · split
    all_goals
      rename_i heq
      rw [heq] at hreceive
      exact ⟨m, hreceive, by omega⟩

omit hmax in
/-- The queue is worked off up to the limit. -/
theorem dispatchReceived_calls {limit processed : ℕ} (hprocessed : processed ≤ limit)
    (queue : List (List UInt8)) (context : α) :
    let r := dispatchReceived callback limit queue processed context
    ∃ n, Calls callback n context r.2.2.2 ∧ n + processed ≤ limit ∧
      (r.1 = .ok → r.2.2.1 = n + processed) := by
  have hnone : 0 + processed ≤ limit := by omega
  induction queue generalizing processed context with
  | nil => exact ⟨0, .none context, hnone, fun _ => (zero_add _).symm⟩
  | cons packet queue ih =>
    unfold dispatchReceived
    split
    · split
      · rename_i hbelow _ context' heq
        obtain ⟨n, hrest, hle, hok⟩ := ih hbelow context' (by omega)
        exact ⟨1 + n, (Calls.one packet heq).trans hrest, by omega, fun h => by rw [hok h]; omega⟩
      · rename_i status context' hne heq
        exact ⟨1, .one packet heq, by omega, fun h => absurd h hne⟩
    · exact ⟨0, .none context, hnone, fun _ => (zero_add _).symm⟩

/-- A poll of a KISS interface calls back no more often than it may. -/
theorem Kiss.poll_calls (endpoint : Kiss) (context : α) :
    ∃ n, Calls callback n context (endpoint.poll callback max_packets context).2.2 ∧
      n ≤ max_packets := by
  unfold Kiss.poll
  split
  · exact ⟨0, .none context, zero_le _⟩
  rw [if_neg hmax]
  obtain ⟨m, hfirst, hle, hok⟩ : ∃ m, Calls callback m context _ ∧ _ :=
    dispatchReceived_calls (zero_le max_packets) endpoint.receive_queue context
  dsimp only
  split
  · rename_i queue processed context' heq
    rw [heq] at hfirst hok
    obtain rfl : processed = m := hok rfl
    have hle : processed ≤ max_packets := hle
    generalize (if processed < max_packets then endpoint.read else (.ok, [])) = arrived
    split
    · exact ⟨processed, hfirst, hle⟩
    obtain ⟨n, hsecond, hle', -⟩ : ∃ n, Calls callback n context' _ ∧ _ :=
      dispatchReceived_calls hle (queue ++ arrived.2) context'
    split
    all_goals
      rename_i heq'
      rw [heq'] at hsecond
      exact ⟨processed + n, hfirst.trans hsecond, by omega⟩
  · rename_i heq
    rw [heq] at hfirst
    exact ⟨m, hfirst, hle⟩

/-- A poll of an RNode calls back no more often than it may. -/
theorem Rnode.poll_calls (endpoint : Rnode) (context : α) :
    ∃ n, Calls callback n context (endpoint.poll callback max_packets context).2.2 ∧
      n ≤ max_packets := by
  unfold Rnode.poll
  split
  · exact ⟨0, .none context, zero_le _⟩
  · rw [if_neg hmax]
    obtain ⟨n, hcalls, hle, -⟩ : ∃ n, Calls callback n context _ ∧ _ :=
      dispatchReceived_calls (zero_le max_packets) endpoint.receive context
    exact ⟨n, hcalls, hle⟩

end Limited

end Reticulum.Interfaces
