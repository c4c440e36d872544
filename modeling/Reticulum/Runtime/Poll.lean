import Reticulum.Base.Run
import Reticulum.Interfaces.Receiving
import Reticulum.Runtime.Host

/-!
# The packets of a poll

`rns_runtime_poll` of `src/runtime/runtime.c` lets its interfaces hand packets to `ingress` in turn,
and subtracts what was processed from the budget of the next ones in unsigned arithmetic. Here is
the loop with every kind of interface, over any effect that `ingress` may have.

`poll_bounded_iff` says when the budget holds throughout a poll. Interfaces with a limit of their
own keep it (`Source.poll_spec`); a TCP connection and a local instance are given none and hand over
every frame that their decoders complete, and a provider's invalid packets are counted though
nothing is handed to `ingress`.
-/

namespace Reticulum.Runtime

open List Nat
open Interfaces (Callback LocalInstance Tcp Auto Kiss Rnode)

variable {σ : Type*}

/-! ## Interfaces -/

/-- `receive_context_t`, with the state that `ingress` works on and the packets that were handed to
it. -/
structure ReceiveContext (σ : Type*) where
  state : σ
  processed : ℕ
  provider_budget_exceeded : Bool
  handed : List (List UInt8)

/-- An interface with what it has received and what its system calls will say. -/
inductive Source
  /-- The packets that a provider passes to its callback, and what its poll and its statistics
  say. -/
  | provider (passed : List (List UInt8)) (status stats : Status)
  | localInstance (endpoint : LocalInstance)
  | kiss (endpoint : Kiss)
  | rnode (endpoint : Rnode)
  | auto (endpoint : Auto)
  | tcp (enabled : Bool) (endpoint : Tcp)
  | udp (up : Bool) (datagrams : List (Except Status (List UInt8)))

/-- `rns_runtime_t` during a poll: the state that `ingress` works on, the interfaces, the count of
packets and the first error. What was handed to `ingress` and which budgets were given is kept
too. -/
structure PollState (σ : Type*) where
  state : σ
  interfaces : List Source
  processed : UInt64
  first_error : Status
  handed : List (List UInt8)
  budgets : List ℕ

section Loop

variable (effect : σ → ℕ → List UInt8 → Status × σ)

/-- `ingress`: it counts the packet first. What else it does is `effect`. -/
def ReceiveContext.ingress (interface_index : ℕ) : Callback (ReceiveContext σ) (List UInt8) :=
  fun context packet =>
    let (status, state) := effect context.state interface_index packet
    (status, { context with
      state
      processed := context.processed + 1
      handed := context.handed ++ [packet] })

/-- `provider_receive`. -/
def providerReceive (interface_index remaining : ℕ) : Callback (ReceiveContext σ) (List UInt8) :=
  fun context packet =>
    if context.processed ≥ remaining then
      (.overflow, { context with provider_budget_exceeded := true })
    else if packet.length = 0 ∨ packet.length > mtu then
      (.ok, { context with processed := context.processed + 1 })
    else (.ok, (context.ingress effect interface_index packet).2)

/-- What the poll of an endpoint comes to, unless the interface is passed over. -/
def Source.polled {ε : Type*} (source : ε → Source) (ready : Bool)
    (r : Status × ε × ReceiveContext σ) : Option (Status × Source × ReceiveContext σ) :=
  if ready then some (r.1, source r.2.1, r.2.2) else none

/-- What the interface does in its turn, unless it is passed over: its status, the interface and the
context afterwards. -/
def Source.poll (interface_index remaining : ℕ) (context : ReceiveContext σ) :
    Source → Option (Status × Source × ReceiveContext σ) :=
  let ingress := ReceiveContext.ingress effect interface_index
  fun
  | .provider passed status stats =>
    let context := passed.foldl
      (fun context packet => (providerReceive effect interface_index remaining context packet).2)
      context
    let status :=
      if context.provider_budget_exceeded ∧ status = .overflow then .ok else status
    some (if status = .ok then stats else status, .provider [] status stats, context)
  | .localInstance endpoint =>
    polled .localInstance (remaining ≠ 0) (endpoint.poll ingress context)
  | .kiss endpoint => polled .kiss (remaining ≠ 0) (endpoint.poll ingress remaining context)
  | .rnode endpoint => polled .rnode (remaining ≠ 0) (endpoint.poll ingress remaining context)
  | .auto endpoint => polled .auto (remaining ≠ 0) (endpoint.poll ingress remaining context)
  | .tcp enabled endpoint =>
    polled (.tcp enabled) (remaining ≠ 0 ∧ enabled) (endpoint.poll ingress context)
  | .udp up datagrams =>
    polled (.udp up) (remaining ≠ 0 ∧ up) (Interfaces.udpPoll ingress remaining datagrams context)

/-- The budget that is left, in the arithmetic of `size_t`. -/
def PollState.remaining (max_packets : UInt64) (s : PollState σ) : ℕ :=
  (max_packets - s.processed).toNat

/-- The turn of one interface in `rns_runtime_poll`. -/
def PollState.turn (max_packets : UInt64) (s : PollState σ) (i : ℕ) : PollState σ :=
  match s.interfaces[i]? with
  | none => s
  | some interface =>
    let budgets := s.budgets ++ [s.remaining max_packets]
    match interface.poll effect i (s.remaining max_packets) ⟨s.state, 0, false, s.handed⟩ with
    | none => { s with budgets }
    | some (status, interface, context) =>
      { state := context.state
        interfaces := s.interfaces.set i interface
        processed := s.processed + UInt64.ofNat context.processed
        first_error := if s.first_error = .ok then status else s.first_error
        handed := context.handed
        budgets }

/-- `RUNTIME_DEFAULT_WORK`. -/
def defaultWork : UInt64 := 32

/-- The order in which a poll goes through the interfaces. -/
def pollOrder (poll_cursor interface_count : ℕ) : List ℕ :=
  (List.range interface_count).map fun offset => (poll_cursor + offset) % interface_count

/-- A poll before the first interface has its turn. -/
def PollState.start (state : σ) (interfaces : List Source) : PollState σ :=
  ⟨state, interfaces, 0, .ok, [], []⟩

/-- What `rns_runtime_poll` does with its interfaces, up to some point of the order. -/
def pollInterfaces (max_packets : UInt64) (state : σ) (interfaces : List Source)
    (order : List ℕ) : PollState σ :=
  Run.final (PollState.turn effect (if max_packets = 0 then defaultWork else max_packets))
    (.start state interfaces) order

/-! ## The budget -/

/-- The budget holds: at most so many packets were handed to `ingress`, their number is the count,
and no interface was given a larger budget. -/
structure PollState.Bounded (max_packets : UInt64) (s : PollState σ) : Prop where
  handed : s.handed.length ≤ max_packets.toNat
  reported : s.processed.toNat = s.handed.length
  budgets : ∀ budget ∈ s.budgets, budget ≤ max_packets.toNat

/-- What an interface has received fits its budget: a provider passes no invalid packet within it,
and a TCP connection or a local instance that has its turn completes no more frames. -/
def Source.Fits (remaining : ℕ) : Source → Prop
  | .provider passed _ _ => ∀ packet ∈ passed.take remaining, packet.length ≠ 0 ∧ packet.length ≤ mtu
  | .localInstance endpoint => remaining ≠ 0 → endpoint.frames ≤ remaining
  | .tcp enabled endpoint => remaining ≠ 0 → enabled → endpoint.frames ≤ remaining
  | .kiss _ | .rnode _ | .auto _ | .udp _ _ => True

/-- What the interface that has its turn has received fits the budget that is left. -/
def PollState.Fits (max_packets : UInt64) (s : PollState σ) (i : ℕ) : Prop :=
  ∀ interface ∈ s.interfaces[i]?, interface.Fits (s.remaining max_packets)

/-! ## One interface -/

variable {interface_index : ℕ} {context context' : ReceiveContext σ}

/-- Every packet that is handed over is counted. -/
theorem handed_of_calls {n : ℕ}
    (h : Interfaces.Calls (ReceiveContext.ingress effect interface_index) n context context') :
    context'.handed.length = context.handed.length + n ∧
      context'.processed = context.processed + n := by
  induction h with
  | none context => exact ⟨rfl, rfl⟩
  | more packet _ ih =>
    simp only [ReceiveContext.ingress, length_append, length_singleton] at ih
    omega

/-- What the packets that a provider passes come to. -/
theorem provider_spec (interface_index remaining : ℕ) (passed : List (List UInt8))
    (context : ReceiveContext σ) (hprocessed : context.processed ≤ remaining) :
    let context' := passed.foldl
      (fun context packet => (providerReceive effect interface_index remaining context packet).2)
      context
    ∃ h v, context'.handed.length = context.handed.length + h ∧
      context'.processed = context.processed + (h + v) ∧ context'.processed ≤ remaining ∧
      (v = 0 ↔ ∀ packet ∈ passed.take (remaining - context.processed),
        packet.length ≠ 0 ∧ packet.length ≤ mtu) := by
  induction passed generalizing context with
  | nil => exact ⟨0, 0, rfl, rfl, hprocessed, by simp⟩
  | cons packet passed ih =>
    rw [foldl_cons]
    generalize hnext : (providerReceive effect interface_index remaining context packet).2 = next
    by_cases hfull : context.processed ≥ remaining
    · -- The budget is spent, and nothing is handed over or counted any more.
      simp only [providerReceive, if_pos hfull] at hnext
      subst hnext
      obtain ⟨h, v, hhanded, hcount, hle, hvalid⟩ :=
        ih { context with provider_budget_exceeded := true } hprocessed
      have hspent : remaining - context.processed = 0 := Nat.sub_eq_zero_of_le hfull
      rw [hspent, take_zero]
      rw [hspent, take_zero] at hvalid
      exact ⟨h, v, hhanded, hcount, hle, hvalid⟩
    obtain ⟨left, hleft⟩ : ∃ left, remaining - context.processed = left + 1 :=
      ⟨remaining - context.processed - 1, by omega⟩
    rw [hleft, take_succ_cons, forall_mem_cons]
    by_cases hinvalid : packet.length = 0 ∨ packet.length > mtu
    · simp only [providerReceive, if_neg hfull, if_pos hinvalid] at hnext
      subst hnext
      obtain ⟨h, v, hhanded, hcount, hle, -⟩ :=
        ih { context with processed := context.processed + 1 } (by dsimp only; omega)
      dsimp only at hhanded hcount hle ⊢
      refine ⟨h, v + 1, hhanded, by omega, hle, iff_of_false (succ_ne_zero v) fun hall => ?_⟩
      omega
    · simp only [providerReceive, if_neg hfull, if_neg hinvalid] at hnext
      subst hnext
      obtain ⟨h, v, hhanded, hcount, hle, hvalid⟩ :=
        ih (context.ingress effect interface_index packet).2
          (by simp only [ReceiveContext.ingress]; omega)
      have hone : (context.ingress effect interface_index packet).2.handed.length =
          context.handed.length + 1 := by
        simp [ReceiveContext.ingress]
      have hprocessed' : (context.ingress effect interface_index packet).2.processed =
          context.processed + 1 := rfl
      refine ⟨h + 1, v, by omega, by omega, hle, hvalid.trans ?_⟩
      rw [hprocessed', show remaining - (context.processed + 1) = left by omega]
      exact (and_iff_right ⟨by omega, by omega⟩).symm

variable {remaining : ℕ} {source : Source}

/-- `ingress` refuses no packet. -/
def Accepting : Prop := ∀ (state : σ) (i : ℕ) (packet : List UInt8), (effect state i packet).1 = .ok

/-- What an interface hands over and what it counts, in its turn: `h` packets and `v` more. -/
def Source.Spends (source : Source) (remaining : ℕ) (context context' : ReceiveContext σ)
    (h v : ℕ) : Prop :=
  context'.handed.length = context.handed.length + h ∧ context'.processed = h + v ∧
    v ≤ remaining ∧ (source.Fits remaining → h ≤ remaining ∧ v = 0) ∧
    (Accepting effect → h ≤ remaining ∧ v = 0 → source.Fits remaining)

/-- An interface that is polled was ready for it. -/
theorem Source.ready_of_polled {ε : Type*} {f : ε → Source} {ready : Bool} {source' : Source}
    {r : Status × ε × ReceiveContext σ} {status : Status}
    (h : polled f ready r = some (status, source', context')) : ready = true ∧ r.2.2 = context' := by
  unfold polled at h
  split at h <;> cases h
  exact ⟨by assumption, rfl⟩

/-- A poll of any interface spends a part of the budget. -/
theorem Source.poll_spec (hcontext : context.processed = 0) {source' : Source} {status : Status}
    (hpoll : source.poll effect interface_index remaining context =
      some (status, source', context')) :
    ∃ h v, source.Spends effect remaining context context' h v := by
  -- Where everything that is counted is handed over, only the limit is left to be seen.
  have hcounted (n : ℕ) (hcalls : Interfaces.Calls (ReceiveContext.ingress effect interface_index) n
        context context') (hfits : source.Fits remaining → n ≤ remaining)
      (hneeds : Accepting effect → n ≤ remaining → source.Fits remaining) :
      ∃ h v, source.Spends effect remaining context context' h v := by
    obtain ⟨hhanded, hprocessed⟩ := handed_of_calls effect hcalls
    exact ⟨n, 0, hhanded, by omega, zero_le _, fun h => ⟨hfits h, rfl⟩, fun ha h => hneeds ha h.1⟩
  cases source with
  | provider passed poll_status stats =>
    obtain ⟨h, v, hhanded, hcount, hle, hvalid⟩ :=
      provider_spec effect interface_index remaining passed context (by omega)
    cases hpoll
    rw [hcontext, Nat.sub_zero] at hvalid
    exact ⟨h, v, hhanded, by omega, by omega, fun hfits => ⟨by omega, hvalid.mpr hfits⟩,
      fun _ hnone => hvalid.mp hnone.2⟩
  | localInstance endpoint =>
    obtain ⟨hready, rfl⟩ := ready_of_polled hpoll
    obtain ⟨n, hcalls, hle, hall⟩ := endpoint.poll_gives context
    refine hcounted n hcalls (fun hfits => hle.trans (hfits (of_decide_eq_true hready)))
      fun haccept hn _ => ?_
    rwa [← hall fun context packet => haccept context.state interface_index packet]
  | tcp enabled endpoint =>
    obtain ⟨hready, rfl⟩ := ready_of_polled hpoll
    obtain ⟨hremaining, henabled⟩ := of_decide_eq_true hready
    obtain ⟨n, hcalls, hle, hall⟩ := endpoint.poll_gives context
    refine hcounted n hcalls (fun hfits => hle.trans (hfits hremaining henabled))
      fun haccept hn _ _ => ?_
    rwa [← hall fun context packet => haccept context.state interface_index packet]
  | kiss endpoint | rnode endpoint | auto endpoint =>
    obtain ⟨hready, rfl⟩ := ready_of_polled hpoll
    obtain ⟨n, hcalls, hle⟩ := endpoint.poll_calls (of_decide_eq_true hready) context
    exact hcounted n hcalls (fun _ => hle) fun _ _ => trivial
  | udp up datagrams =>
    obtain ⟨hready, rfl⟩ := ready_of_polled hpoll
    obtain ⟨n, hcalls, hle⟩ := Interfaces.udpLoop_calls (of_decide_eq_true hready).1
      (zero_le remaining) datagrams context
    exact hcounted n hcalls (fun _ => hle) fun _ _ => trivial

/-! ## The whole poll -/

/-- From a state in which the budget holds, it goes on to hold if what the interface has received
fits the budget, and only then where `ingress` refuses nothing. -/
theorem bounded_turn {max_packets : UInt64} {s : PollState σ} (hs : s.Bounded max_packets) (i : ℕ) :
    (s.Fits max_packets i → (s.turn effect max_packets i).Bounded max_packets) ∧
      (Accepting effect → (s.turn effect max_packets i).Bounded max_packets →
        s.Fits max_packets i) := by
  have hremaining : s.remaining max_packets = max_packets.toNat - s.handed.length := by
    rw [PollState.remaining, UInt64.toNat_sub_of_le, hs.reported]
    rw [UInt64.le_iff_toNat_le, hs.reported]
    exact hs.handed
  have hbudgets : ∀ budget ∈ s.budgets ++ [s.remaining max_packets], budget ≤ max_packets.toNat := by
    intro budget hbudget
    rcases mem_append.mp hbudget with hold | hnew
    · exact hs.budgets budget hold
    · rw [mem_singleton.mp hnew, hremaining]
      exact sub_le _ _
  unfold PollState.Fits
  rcases hinterface : s.interfaces[i]? with _ | interface
  · -- There is no such interface.
    have hturn : s.turn effect max_packets i = s := by
      rw [PollState.turn, hinterface]
    rw [hturn]
    exact ⟨fun _ => hs, fun _ _ _ h => absurd h (Option.not_mem_none _)⟩
  simp only [Option.mem_some_iff, forall_eq']
  rcases hpoll : interface.poll effect i (s.remaining max_packets)
    ⟨s.state, 0, false, s.handed⟩ with _ | ⟨status, interface', context'⟩
  · -- The interface is passed over.
    have hturn : s.turn effect max_packets i =
        { s with budgets := s.budgets ++ [s.remaining max_packets] } := by
      simp only [PollState.turn, hinterface, hpoll]
    rw [hturn]
    refine ⟨fun _ => ⟨hs.handed, hs.reported, hbudgets⟩, fun _ _ => ?_⟩
    cases interface with
    | provider passed status stats => cases hpoll
    | localInstance endpoint =>
      intro hready
      simp [Source.poll, Source.polled, hready] at hpoll
    | tcp enabled endpoint =>
      intro hready henabled
      simp [Source.poll, Source.polled, hready, henabled] at hpoll
    | kiss | rnode | auto | udp => trivial
  · obtain ⟨h, v, hhanded, hcount, hv, hfits, hneeds⟩ := Source.poll_spec effect rfl hpoll
    have hturn : (s.turn effect max_packets i).handed.length = s.handed.length + h ∧
        (s.turn effect max_packets i).processed = s.processed + .ofNat (h + v) ∧
        (s.turn effect max_packets i).budgets = s.budgets ++ [s.remaining max_packets] := by
      simp [PollState.turn, hinterface, hpoll, ← hcount, hhanded]
    obtain ⟨hlength, hprocessed, hgiven⟩ := hturn
    have hmax := max_packets.toNat_lt
    have hcounted : (s.turn effect max_packets i).processed.toNat =
        (s.handed.length + (h + v)) % 2 ^ 64 := by
      rw [hprocessed, UInt64.toNat_add, hs.reported, UInt64.toNat_ofNat', add_mod_mod]
    have hfirst := hs.handed
    constructor
    · intro hfit
      obtain ⟨hle, rfl⟩ := hfits hfit
      refine ⟨by omega, ?_, hgiven ▸ hbudgets⟩
      omega
    · rintro haccept ⟨hle, hreported, -⟩
      refine hneeds haccept ?_
      omega

/-- The budget holds throughout a poll if what every interface has received fits the budget that is
left for it: every provider passes valid packets within it, and the decoders of every TCP connection
and local instance complete no more frames. Where `ingress` refuses no packet, only then. -/
theorem poll_bounded_iff (max_packets : UInt64) (hmax : 0 < max_packets) (state : σ)
    (interfaces : List Source) (poll_cursor : ℕ) :
    let order := pollOrder poll_cursor interfaces.length
    let fits := Run.Each (PollState.turn effect max_packets) (PollState.Fits max_packets)
      (.start state interfaces) order
    let bounded := ∀ past, past <+: order →
      (pollInterfaces effect max_packets state interfaces past).Bounded max_packets
    (fits → bounded) ∧ (Accepting effect → (bounded ↔ fits)) := by
  intro order fits bounded
  have hne : max_packets ≠ 0 := by
    rintro rfl
    exact absurd hmax (by decide)
  have hstart : (PollState.start state interfaces).Bounded max_packets :=
    ⟨zero_le _, rfl, fun _ h => absurd h not_mem_nil⟩
  simp only [fits, bounded, pollInterfaces, if_neg hne]
  constructor
  · rintro hfits past ⟨rest, hrest⟩
    rw [← hrest] at hfits
    have hstep (s : PollState σ) (i : ℕ) (hs : s.Bounded max_packets) (hfit : s.Fits max_packets i) :
        (s.turn effect max_packets i).Bounded max_packets := (bounded_turn effect hs i).1 hfit
    exact Run.invariant hstep hstart (Run.each_append.mp hfits).1
  · intro haccept
    exact @Run.forall_prefix_iff (PollState σ) ℕ (PollState.turn effect max_packets)
      (fun _ => True) (PollState.Bounded max_packets) (PollState.Fits max_packets)
      (fun _ _ _ => trivial) (fun s i _ hs => ⟨(bounded_turn effect hs i).2 haccept,
        (bounded_turn effect hs i).1⟩) _ _ trivial hstart

end Loop

/-! ## The runtime -/

/-- What `ingress` says of a packet: an error where a forward that was not sent cannot be taken
back. -/
def Host.ingressStatus (p : Primitives) (env : HostEnvironment) (s : Host) (interface_index : ℕ)
    (raw : List UInt8) : Status :=
  match s.interfaces[interface_index]? with
  | none => .ok
  | some source =>
    let (result, node) :=
      s.node.ingress p.toCrypto raw source.id 0 (some mtu) (env.transport_clock s.asked)
    let forwarded := s.transporting &&
      s.interfaces.any (fun interface => interface.id = result.forward_interface_id) &&
      decide (env.send s.ask.asked = .ok)
    if result.action = .forward ∧ !(node.completeForward result forwarded).1 then .invalidState
    else .ok

/-- The effect of `ingress` on the runtime. -/
def Host.receive (p : Primitives) (bzip2 : Option Resource.Bzip2) (env : HostEnvironment) (s : Host)
    (interface_index : ℕ) (raw : List UInt8) : Status × Host :=
  (s.ingressStatus p env interface_index raw, s.ingress p bzip2 env interface_index raw)

/-- A TCP client that has received these bytes. -/
def plainTcp (input : List UInt8) : Source :=
  .tcp true ⟨false, none, ⟨true, Interfaces.HdlcDecoder.init mtu, [input], .again, .ok⟩⟩

/-- The runtime that polls. -/
def plainHost : Host :=
  (Host.start Host.plainConfig [⟨7, true⟩, ⟨8, true⟩] false).get (by decide +kernel)

/-- Three frames wait at a TCP client, and a poll for one packet hands all three to `ingress`. The
budget that is left is then a very large number, which the next interface is given. -/
theorem tcp_exceeds_budget :
    let s := pollInterfaces (Host.receive Link.plainPrimitives none Host.plainEnvironment) 1 plainHost
      [plainTcp [0x7e, 1, 0x7e, 2, 0x7e, 3, 0x7e], .udp true [.ok [4], .ok [5]]] (pollOrder 0 2)
    s.handed = [[1], [2], [3], [4], [5]] ∧ s.budgets = [1, 2 ^ 64 - 2] ∧ ¬ s.Bounded 1 := by
  have hhanded : (pollInterfaces (Host.receive Link.plainPrimitives none Host.plainEnvironment) 1
      plainHost [plainTcp [0x7e, 1, 0x7e, 2, 0x7e, 3, 0x7e], .udp true [.ok [4], .ok [5]]]
      (pollOrder 0 2)).handed = [[1], [2], [3], [4], [5]] := by
    decide +kernel
  refine ⟨hhanded, by decide +kernel, fun hbounded => ?_⟩
  have hle := hbounded.handed
  exact absurd hle (by decide)

/-- A frame at a TCP client and a datagram, with a budget of two. -/
theorem mixed_poll_bounded :
    (pollInterfaces (Host.receive Link.plainPrimitives none Host.plainEnvironment) 2 plainHost
      [plainTcp [0x7e, 1, 0x7e], .udp true [.ok [4], .ok [5]]] (pollOrder 0 2)).Bounded 2 :=
  (poll_bounded_iff (Host.receive Link.plainPrimitives none Host.plainEnvironment) 2 (by decide)
    plainHost [plainTcp [0x7e, 1, 0x7e], .udp true [.ok [4], .ok [5]]] 0).1
    ⟨by
      rintro _ ⟨⟩
      exact fun _ _ => by decide +kernel, by
      rintro _ ⟨⟩
      trivial, trivial⟩ _ prefix_rfl

end Reticulum.Runtime
