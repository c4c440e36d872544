import Reticulum.Base.Run
import Reticulum.Runtime.Offers

/-!
# Request handlers obey their access policy

The callback of a request handler is called for a packet of the network, so every guard on the way
counts: the token of the packet, the state of the link, the destination that the link came in for,
the handlers registered on it, and who the peer has proved to be. `handlers_obey_policy` says what
holds whenever a callback is called, in any run of the runtime.

`linksStep_step` says what one call can do to a link of the table: the link goes on, with a packet
that is `Heard` or with nothing told of its peer, or it is new. Two invariants follow by induction
over the run: who the peer of an inbound link is was proved by a signature of the id of the link
(`proved_of_identified`), and it stays the same (`knows_run`).
-/

namespace Reticulum.Runtime

open List Slots Option Octets Run
open Reticulum.Transport (NodeConfig NodeResult)
open Resource (Bzip2)

/-! ## What holds when a callback is called -/

/-- What unforgeable signatures and authentic tokens promise: what is valid was signed with the key,
and what opens was sealed with it. -/
structure Unforgeable (p : Primitives) (signed : Octets 32 → List UInt8 → Prop)
    (sealedBy : Octets 64 → List UInt8 → List UInt8 → Prop) : Prop where
  signature : ∀ key message signature, p.ed25519Verify key message signature = true →
    signed key message
  token : ∀ key token capacity plaintext, tokenDecrypt p key token capacity = some plaintext →
    sealedBy key token plaintext

namespace Host

variable (p : Primitives) (bzip2 : Option Bzip2) (env : HostEnvironment)
variable (signed : Octets 32 → List UInt8 → Prop)
variable (sealedBy : Octets 64 → List UInt8 → List UInt8 → Prop)

/-- What was told of a link. -/
def log (s : Host) (number : ℕ) : List Observation :=
  ((s.findNumber number).map fun found => found.2.link.log).getD []

/-- The call tells something of a link. -/
def Tells (s : Host) (call : Call) (number : ℕ) (o : Observation) : Prop :=
  ∃ told, (s.step p bzip2 env call).log number = s.log number ++ told ∧ o ∈ told

/-- In one of the calls the peer of the link sent an authentic packet with the signature of the
identity on the id of the link and its own public key. -/
def Proved (s : Host) (past : List Call) (number : ℕ) (identity : Identity) : Prop :=
  ∃ earlier interface_index raw packet payload slot entry,
    earlier ++ [.ingress interface_index raw] <+: past ∧
    Slots.Holds (final (step p bzip2 env) s earlier).links slot entry ∧
    entry.number = number ∧ Packet.decode raw = some packet ∧ packet.destination_hash = entry.id ∧
    sealedBy entry.link.protocol.derived_key packet.data payload ∧
    identity = identityFromPublic p.toCrypto (ofList 64 payload) ∧
    signed identity.signing_public (entry.id.bytes ++
      (identity.encryption_public.bytes ++ identity.signing_public.bytes))

/-- An authentic request packet of an active inbound link, for a handler that is registered on the
destination of the link under the path that the request names. -/
structure AuthenticRequest (s : Host) (call : Call) (entry : HostLink) (destination : Destination)
    (registered : RegisteredHandler) (request : Request.View) : Prop where
  link : ∃ slot, Slots.Holds s.links slot entry
  active : entry.link.protocol.state = .active
  role : entry.link.protocol.role = .responder
  inbound : entry.inbound_destination = some destination.number
  owner : ∃ slot, Slots.Holds s.destinations slot destination
  handler : ∃ slot, Slots.Holds destination.request_handlers slot registered
  packet : ∃ raw packet plaintext, call = .ingress entry.interface_index raw ∧
    Packet.decode raw = some packet ∧ packet.destination_hash = entry.id ∧
    sealedBy entry.link.protocol.derived_key packet.data plaintext ∧
    Request.decode p plaintext = .ok request
  path_hash : request.path_hash = registered.handler.path_hash ∧
    request.path_hash = truncatedHash (p.sha256 registered.path)

/-- The access policy of a handler, for the identity that its callback is given. -/
def Permits (handler : RequestHandler) (proved : Identity → Prop) (remote : Option Identity) :
    Prop :=
  match handler.access with
  | .allowNone => False
  | .allowAll => ∀ identity, remote = some identity → proved identity
  | .allowIdentified => ∃ identity, remote = some identity ∧ proved identity
  | .allowList => ∃ identity, remote = some identity ∧ proved identity ∧
      identity.hash ∈ handler.allow_identity_hashes

/-! ## One call and a link -/

/-- The two entries are of one link, which may have lost its destination. -/
structure SameLink (entry entry' : HostLink) : Prop where
  number : entry'.number = entry.number
  interface_index : entry'.interface_index = entry.interface_index
  inbound : entry'.inbound_destination = entry.inbound_destination ∨
    entry'.inbound_destination = none
  registered : entry'.registered = entry.registered

theorem SameLink.refl (entry : HostLink) : SameLink entry entry := ⟨rfl, rfl, .inl rfl, rfl⟩

/-- A link goes on through a call: nothing happens to its peer, or it hears a packet. -/
def GoesOn (s : Host) (call : Call) (entry entry' : HostLink) : Prop :=
  SameLink entry entry' ∧ (PeerFrame entry.link entry'.link ∨
    ∃ interface_index raw, call = .ingress interface_index raw ∧
      Heard p { entry.link with handlers := s.requestHandlers entry.inbound_destination }
        (interface_index = entry.interface_index) raw entry'.link)

/-- A link that was just made. Nobody is known to be the peer of one that came in. -/
structure New (made : ℕ) (entry : HostLink) : Prop where
  number : entry.number = made
  peer : (entry.link.protocol.role = .responder ∧ entry.link.remote_identified = false) ∨
    (entry.link.protocol.role = .initiator ∧ entry.inbound_destination = none)
  log : ∀ o ∈ entry.link.log, o.impersonal
  registered : entry.registered = true

variable {p bzip2 env} {s : Host} {call : Call}

theorem GoesOn.refl (entry : HostLink) : GoesOn p s call entry entry :=
  ⟨.refl entry, .inl (Frame.refl entry.link).peerFrame⟩

/-- Every handler is registered under the hash of its path. -/
def Hashed (p : Primitives) (destinations : List (Option Destination)) : Prop :=
  ∀ slot destination, Slots.Holds destinations slot destination →
    ∀ place registered, Slots.Holds destination.request_handlers place registered →
      registered.handler.path_hash = truncatedHash (p.sha256 registered.path)

variable {destinations : List (Option Destination)}

theorem Hashed.set_none (h : Hashed p destinations)
    (slot : ℕ) : Hashed p (destinations.set slot none) := by
  intro i destination hdestination
  rcases holds_set.mp hdestination with ⟨-, -, hx⟩ | ⟨-, hold⟩
  · cases hx
  · exact h i destination hold

variable {slot : ℕ}

theorem Hashed.set_some (h : Hashed p destinations) {destination : Destination}
    (hnew : ∀ place registered, Slots.Holds destination.request_handlers place registered →
      registered.handler.path_hash = truncatedHash (p.sha256 registered.path)) :
    Hashed p (destinations.set slot (some destination)) := by
  intro i other hother
  rcases holds_set.mp hother with ⟨-, -, hx⟩ | ⟨-, hold⟩
  · cases hx
    exact hnew
  · exact h i other hold

/-- What a call makes of the links of the table: each goes on, but for one that is new. The handlers
stay under the hashes of their paths. -/
structure LinksStep (p : Primitives) (s : Host) (call : Call) (s' : Host) : Prop where
  made : s.made ≤ s'.made
  hashed : Hashed p s.destinations → Hashed p s'.destinations
  holds : ∃ fresh, ∀ slot entry', Slots.Holds s'.links slot entry' →
    (∃ entry, Slots.Holds s.links slot entry ∧ GoesOn p s call entry entry') ∨
    (slot = fresh ∧ New s.made entry' ∧ s.made < s'.made)

variable {s' : Host}

/-- The links of the table are as they were. -/
theorem linksStep_of_links (hlinks : s'.links = s.links) (hmade : s.made ≤ s'.made)
    (hhashed : Hashed p s.destinations → Hashed p s'.destinations) : LinksStep p s call s' :=
  ⟨hmade, hhashed, 0, fun _ entry' h => .inl ⟨entry', hlinks ▸ h, .refl entry'⟩⟩

variable {entry entry' : HostLink}

/-- One link of the table is changed. -/
theorem linksStep_of_set
    (hentry : Slots.Holds s.links slot entry) (hgoes : GoesOn p s call entry entry') :
    LinksStep p s call { s with links := s.links.set slot (some entry') } := by
  refine ⟨le_rfl, id, 0, fun i other hother => ?_⟩
  rcases holds_set.mp hother with ⟨rfl, -, hx⟩ | ⟨-, hold⟩
  · cases hx
    exact .inl ⟨entry, hentry, hgoes⟩
  · exact .inl ⟨other, hold, .refl other⟩

/-- Every link of the table is changed. -/
theorem linksStep_of_map {f : HostLink → HostLink}
    (hlinks : s'.links = s.links.map (Option.map f)) (hmade : s.made ≤ s'.made)
    (hhashed : Hashed p s.destinations → Hashed p s'.destinations)
    (hgoes : ∀ entry, GoesOn p s call entry (f entry)) : LinksStep p s call s' := by
  refine ⟨hmade, hhashed, 0, fun slot entry' h => ?_⟩
  rw [hlinks] at h
  obtain ⟨entry, hentry, rfl⟩ := holds_map.mp h
  exact .inl ⟨entry, hentry, hgoes entry⟩

/-- A link that was prepared is admitted. -/
theorem linksStep_admitLink {s₁ : Host} {link : HostLink}
    {sent : Except Status RuntimeLink} (hasked : OnlyAsked s s₁) (hoffer : s.Offered slot link sent) :
    LinksStep p s call (s₁.admitLink slot link sent).2 := by
  obtain ⟨transport, asked, rfl⟩ := hasked
  unfold admitLink
  split
  · exact linksStep_of_links rfl le_rfl id
  cases sent with
  | error status =>
    refine ⟨Nat.le_succ _, id, slot, fun i entry' h => ?_⟩
    rcases holds_set.mp h with ⟨-, -, hx⟩ | ⟨-, hold⟩
    · cases hx
    · exact .inl ⟨entry', hold, .refl entry'⟩
  | ok made =>
    refine ⟨Nat.le_succ _, id, slot, fun i entry' h => ?_⟩
    rcases holds_set.mp h with ⟨rfl, -, hx⟩ | ⟨-, hold⟩
    · cases hx
      have hsent := hoffer.sent made rfl
      refine .inr ⟨rfl, ⟨hoffer.number, ?_, ?_, hoffer.registered⟩, Nat.lt_succ_self _⟩
      · rw [hsent.peer.role, hsent.identified]
        exact hoffer.peer
      · obtain ⟨told, hlog, himpersonal⟩ := hsent.told
        rw [hoffer.log, nil_append] at hlog
        rwa [hlog]
    · exact .inl ⟨entry', hold, .refl entry'⟩

theorem linksStep_linkOpen (destination_hash : Octets 16) (identity : Identity)
    (options : LinkOptions) (link_mtu : ℕ) :
    LinksStep p s call (s.linkOpen p env destination_hash identity options link_mtu).2 := by
  unfold linkOpen
  rcases hprepare : s.prepareOpen p env destination_hash identity options link_mtu with ⟨result, s₁⟩
  obtain ⟨hasked, hoffer⟩ := prepareOpen_spec hprepare
  rcases result with status | ⟨slot, link, sent⟩
  · obtain ⟨transport, asked, rfl⟩ := hasked
    exact linksStep_of_links rfl le_rfl id
  · exact linksStep_admitLink hasked (hoffer slot link sent rfl)

variable (interface_index : ℕ) (raw : List UInt8) (number : ℕ)

theorem linksStep_acceptInboundLink (packet : Packet) (received_hops : UInt8) :
    LinksStep p s call (s.acceptInboundLink p env interface_index raw packet received_hops) := by
  unfold acceptInboundLink
  rcases hprepare : s.prepareAccept p env interface_index raw packet received_hops with ⟨result, s₁⟩
  obtain ⟨hasked, hoffer⟩ := prepareAccept_spec hprepare
  rcases result with _ | ⟨slot, link, sent⟩
  · obtain ⟨transport, asked, rfl⟩ := hasked
    exact linksStep_of_links rfl le_rfl id
  · exact linksStep_admitLink hasked (hoffer slot link sent rfl)

theorem linksStep_linkIngress (received_hops : UInt8) : LinksStep p s (.ingress interface_index raw)
      (s.linkIngress p bzip2 env interface_index raw received_hops) := by
  unfold linkIngress
  split
  · exact linksStep_of_links rfl le_rfl id
  split
  · exact linksStep_acceptInboundLink ..
  · rename_i slot entry hfind
    exact linksStep_of_set (find_eq_some hfind).1 ⟨⟨rfl, rfl, .inl rfl, rfl⟩,
      .inr ⟨interface_index, raw, rfl, RuntimeLink.heard_linkIngress ..⟩⟩

theorem linksStep_ingress :
    LinksStep p s (.ingress interface_index raw) (s.ingress p bzip2 env interface_index raw) := by
  unfold ingress
  split
  · exact linksStep_of_links rfl le_rfl id
  dsimp only
  generalize s.node.ingress p.toCrypto raw _ 0 (some mtu) (env.transport_clock s.asked) = outcome
  unfold handleResult
  split
  · -- The node has looked at the packet, and the links and destinations are as they were.
    obtain ⟨hmade, hhashed, hholds⟩ := linksStep_linkIngress
      (s := { s.ask with node := outcome.2 }) interface_index raw outcome.1.hops
    exact ⟨hmade, hhashed, hholds⟩
  all_goals exact linksStep_of_links rfl le_rfl id

theorem linksStep_destinationDestroy : LinksStep p s call (s.destinationDestroy number) := by
  unfold destinationDestroy
  split
  · exact linksStep_of_links rfl le_rfl id
  have hgoes : ∀ entry : HostLink, GoesOn p s call entry
      (if entry.inbound_destination = some number then { entry with inbound_destination := none }
        else entry) := by
    intro entry
    split
    · exact ⟨⟨rfl, rfl, .inr rfl, rfl⟩, .inl (Frame.refl entry.link).peerFrame⟩
    · exact .refl entry
  dsimp only
  split
  all_goals exact linksStep_of_map rfl le_rfl (·.set_none _) hgoes

theorem linksStep_linkDestroy : LinksStep p s call (s.linkDestroy number) := by
  unfold linkDestroy
  split
  · exact linksStep_of_links rfl le_rfl id
  · refine ⟨le_rfl, id, 0, fun i entry' h => ?_⟩
    rcases holds_set.mp h with ⟨-, -, hx⟩ | ⟨-, hold⟩
    · cases hx
    · exact .inl ⟨entry', hold, .refl entry'⟩

theorem linksStep_linkCall {link_call : RuntimeLink.Call}
    (hingress : ∀ own raw, link_call ≠ .ingress own raw) (hpoll : link_call ≠ .poll) :
    LinksStep p s call (s.linkCall p bzip2 env number link_call) := by
  unfold linkCall
  split
  · exact linksStep_of_links rfl le_rfl id
  · rename_i slot entry hfind
    exact linksStep_of_set (find_eq_some hfind).1 ⟨⟨rfl, rfl, .inl rfl, rfl⟩,
      .inl (RuntimeLink.frame_step p bzip2 _ entry.link hingress hpoll).peerFrame⟩

theorem linksStep_registerRequestHandler (path : List UInt8) (options : RequestHandlerOptions) :
    LinksStep p s call (s.registerRequestHandler p.toCrypto env number path options).2 := by
  unfold registerRequestHandler
  split
  · exact linksStep_of_links rfl le_rfl id
  rename_i slot destination hfind
  dsimp only
  repeat' split
  all_goals try exact linksStep_of_links rfl (by simp [ask]) id
  all_goals
    refine linksStep_of_links rfl (by simp) fun h => h.set_some fun place registered hheld => ?_
    rcases holds_set.mp hheld with ⟨-, -, hx⟩ | ⟨-, hold⟩
    · cases hx
      rfl
    · exact h slot destination (find_eq_some hfind).1 place registered hold

/-- What a call makes of the links. -/
theorem linksStep_step (s : Host) (call : Call) : LinksStep p s call (s.step p bzip2 env call) := by
  cases call with
  | registerDestination hash | unregisterDestination hash =>
    simp only [step, registerDestination, unregisterDestination]
    repeat' split
    all_goals exact linksStep_of_links rfl le_rfl id
  | registerLinkDestination hash identity options =>
    simp only [step, registerLinkDestination]
    repeat' split
    all_goals first
      | exact linksStep_of_links rfl (by simp [ask]) id
      | exact linksStep_of_links rfl (by simp [ask]) (·.set_some fun _ _ hregistered =>
          absurd hregistered not_holds_replicate)
  | destinationDestroy number => exact linksStep_destinationDestroy number
  | registerRequestHandler number path options =>
    exact linksStep_registerRequestHandler number path options
  | requestHandlerDestroy number =>
    refine linksStep_of_links rfl le_rfl
      fun h slot destination hdestination place registered hheld => ?_
    obtain ⟨before, hbefore, rfl⟩ := holds_map.mp hdestination
    exact h slot before hbefore place registered (holds_sweep.mp hheld).1
  | linkOpen destination_hash identity options link_mtu => exact linksStep_linkOpen ..
  | linkDestroy number => exact linksStep_linkDestroy number
  | link number call =>
    cases call <;> first
      | exact linksStep_linkCall number nofun nofun
      | exact linksStep_of_links rfl le_rfl id
  | ingress interface_index raw => exact linksStep_ingress interface_index raw
  | poll => exact linksStep_of_map rfl le_rfl id fun entry =>
      ⟨⟨rfl, rfl, .inl rfl, rfl⟩, .inl (RuntimeLink.peerFrame_poll p _ entry.link)⟩
  | interface interface_index up => exact linksStep_of_links rfl le_rfl id

/-! ## What holds of the links throughout -/

/-- The links have numbers of their own, those that came in have the role of a responder, and the
handlers are registered under the hashes of their paths. -/
structure Sound (p : Primitives) (s : Host) : Prop where
  numbers : ∀ slot entry, Slots.Holds s.links slot entry → entry.number < s.made
  distinct : Slots.DistinctKeys HostLink.number s.links
  inbound : ∀ slot entry, Slots.Holds s.links slot entry → entry.inbound_destination ≠ none →
    entry.link.protocol.role = .responder
  hashed : Hashed p s.destinations

/-- Through a packet and through anything else the role of a link stays. -/
theorem GoesOn.role (h : GoesOn p s call entry entry') :
    entry'.link.protocol.role = entry.link.protocol.role := by
  obtain ⟨-, hframe | ⟨interface_index, raw, -, hheard⟩⟩ := h
  · exact hframe.peer.role
  · exact hheard.role

theorem sound_step (h : Sound p s) (call : Call) : Sound p (s.step p bzip2 env call) := by
  have hstep : LinksStep p s call (s.step p bzip2 env call) := linksStep_step s call
  obtain ⟨hmade, hhashed, fresh, hholds⟩ := hstep
  refine ⟨fun slot entry' hentry' => ?_, fun i j a b ha hb hab => ?_,
    fun slot entry' hentry' hinbound => ?_, hhashed h.hashed⟩
  · rcases hholds slot entry' hentry' with ⟨entry, hentry, hgoes⟩ | ⟨-, hnew, hlt⟩
    · rw [hgoes.1.number]
      exact (h.numbers slot entry hentry).trans_le hmade
    · rw [hnew.number]
      exact hlt
  · -- A new link has a number that no link had before.
    rcases hholds i a ha with ⟨a₀, ha₀, hgoes_a⟩ | ⟨rfl, hnew_a, -⟩
    all_goals rcases hholds j b hb with ⟨b₀, hb₀, hgoes_b⟩ | ⟨rfl, hnew_b, -⟩
    · refine h.distinct i j a₀ b₀ ha₀ hb₀ ?_
      rw [← hgoes_a.1.number, hab, hgoes_b.1.number]
    · have hlt := h.numbers i a₀ ha₀
      rw [← hgoes_a.1.number, hab, hnew_b.number] at hlt
      exact absurd hlt (lt_irrefl _)
    · have hlt := h.numbers j b₀ hb₀
      rw [← hgoes_b.1.number, ← hab, hnew_a.number] at hlt
      exact absurd hlt (lt_irrefl _)
    · rfl
  · rcases hholds slot entry' hentry' with ⟨entry, hentry, hgoes⟩ | ⟨-, hnew, -⟩
    · rw [hgoes.role]
      refine h.inbound slot entry hentry fun hnone => hinbound ?_
      rcases hgoes.1.inbound with hsame | hgone
      · rw [hsame, hnone]
      · exact hgone
    · rcases hnew.peer with ⟨hrole, -⟩ | ⟨-, hnone⟩
      · exact hrole
      · exact absurd hnone hinbound

variable {config : NodeConfig} {interfaces : List Interface} {transporting : Bool}

theorem not_holds_start
    (h : start config interfaces transporting = some s) (slot : ℕ) (entry : HostLink) :
    ¬ Slots.Holds s.links slot entry := by
  obtain ⟨node, -, rfl⟩ := map_eq_some_iff.mp h
  exact not_holds_replicate

theorem sound_start (h : start config interfaces transporting = some s) : Sound p s := by
  refine ⟨fun slot entry hentry => absurd hentry (not_holds_start h slot entry),
    fun i _ a _ ha => absurd ha (not_holds_start h i a),
    fun slot entry hentry => absurd hentry (not_holds_start h slot entry), ?_⟩
  obtain ⟨node, -, rfl⟩ := map_eq_some_iff.mp h
  exact fun _ _ hdestination => absurd hdestination not_holds_replicate

/-! ## Who the peer is -/

section Peer

variable {signed : Octets 32 → List UInt8 → Prop}
variable {sealedBy : Octets 64 → List UInt8 → List UInt8 → Prop}

variable {number : ℕ} {identity : Identity}

variable {past : List Call}

/-- What was proved stays proved. -/
theorem Proved.mono {later : List Call}
    (h : Proved p bzip2 env signed sealedBy s past number identity) (hlater : past <+: later) :
    Proved p bzip2 env signed sealedBy s later number identity := by
  obtain ⟨earlier, interface_index, raw, packet, payload, slot, entry, hearlier, hrest⟩ := h
  exact ⟨earlier, interface_index, raw, packet, payload, slot, entry, hearlier.trans hlater, hrest⟩

variable {link : RuntimeLink}

/-- A packet that opens was sealed with the key of the link. -/
theorem sealedBy_of_opens (hu : Unforgeable p signed sealedBy)
    {own_interface : Bool} {raw : List UInt8} {context : UInt8} {plaintext : List UInt8}
    (h : Opens p link own_interface raw context plaintext) :
    ∃ packet, Packet.decode raw = some packet ∧ packet.destination_hash = link.protocol.link_id ∧
      own_interface = true ∧ link.protocol.state = .active ∧
      sealedBy link.protocol.derived_key packet.data plaintext := by
  obtain ⟨packet, hdecode, hdestination, hown, hactive, -, -, hdecrypt⟩ := h
  rw [Link.decrypt, if_pos (.inl hactive)] at hdecrypt
  exact ⟨packet, hdecode, hdestination, hown, hactive, hu.token _ _ _ _ hdecrypt⟩

/-- The public keys of an identity are the bytes that it was made from. -/
theorem identityFromPublic_bytes (crypto : Crypto) (public_key : Octets 64) :
    (identityFromPublic crypto public_key).encryption_public.bytes ++
      (identityFromPublic crypto public_key).signing_public.bytes = public_key.bytes := by
  have hlength := public_key.length_bytes
  have hfirst : (ofList 32 public_key.bytes).bytes = public_key.bytes.take 32 :=
    bytes_ofList (by omega)
  have hdrop : (public_key.bytes.drop 32).length = 32 := by
    rw [length_drop]
    omega
  have hsecond : (ofList 32 (public_key.bytes.drop 32)).bytes = public_key.bytes.drop 32 := by
    rw [bytes_ofList hdrop.ge, take_of_length_le hdrop.le]
  simp [identityFromPublic, hfirst, hsecond]

variable {slot : ℕ} {entry : HostLink}

/-- In every run, a responder that knows its peer had it proved. -/
theorem proved_of_identified (hu : Unforgeable p signed sealedBy)
    (hfirst : ∀ slot entry, ¬ Slots.Holds s.links slot entry) (calls : List Call)
    (hentry : Slots.Holds (final (step p bzip2 env) s calls).links slot entry)
    (hrole : entry.link.protocol.role = .responder)
    (hidentified : entry.link.remote_identified = true) :
    Proved p bzip2 env signed sealedBy s calls entry.number entry.link.protocol.remote_identity := by
  induction calls using List.reverseRecOn generalizing slot entry with
  | nil => exact absurd hentry (hfirst slot entry)
  | append_singleton calls call ih =>
    rw [final_append, final_cons, final_nil] at hentry
    obtain ⟨-, -, fresh, hholds⟩ := linksStep_step (p := p) (final (step p bzip2 env) s calls) call
    rcases hholds slot entry hentry with ⟨before, hbefore, hgoes⟩ | ⟨-, hnew, -⟩
    · have hrole' : before.link.protocol.role = .responder := hgoes.role ▸ hrole
      have hkept : entry.link.remote_identified = before.link.remote_identified →
          entry.link.protocol.remote_identity = before.link.protocol.remote_identity →
          Proved p bzip2 env signed sealedBy s (calls ++ [call]) entry.number
            entry.link.protocol.remote_identity := by
        intro hknown hremote
        rw [hgoes.1.number, hremote]
        exact (ih hbefore hrole' (hknown ▸ hidentified)).mono (prefix_append ..)
      obtain ⟨hsame, hframe | ⟨interface_index, raw, rfl, hheard⟩⟩ := hgoes
      · exact hkept hframe.identified hframe.peer.remote_identity
      rcases hheard.peer with ⟨hknown, hremote⟩ | ⟨-, -, hidentifies⟩
      · exact hkept hknown hremote
      -- The packet is the one that proves who the peer is.
      obtain ⟨payload, hopens, -, hlength, hidentity, hverify⟩ := hidentifies
      obtain ⟨packet, hdecode, hdestination, -, -, hsealed⟩ := sealedBy_of_opens hu hopens
      refine ⟨calls, interface_index, raw, packet, payload, slot, before, prefix_rfl, hbefore,
        hsame.number.symm, hdecode, hdestination, hsealed, hidentity, ?_⟩
      have hbytes := identityFromPublic_bytes p.toCrypto (ofList 64 payload)
      rw [← hidentity, bytes_ofList (by omega)] at hbytes
      rw [hbytes]
      exact hu.signature _ _ _ hverify
    · rcases hnew.peer with ⟨-, hunknown⟩ | ⟨hinitiator, -⟩
      · rw [hunknown] at hidentified
        cases hidentified
      · rw [hinitiator] at hrole
        cases hrole

/-- Every link with the number knows the identity of its peer. -/
def Knows (s : Host) (number : ℕ) (identity : Identity) : Prop :=
  number < s.made ∧ ∀ slot entry, Slots.Holds s.links slot entry → entry.number = number →
    entry.link.remote_identified = true ∧ entry.link.protocol.remote_identity = identity

/-- Once known, the identity of the peer is known for good, and is the same. -/
theorem knows_step (h : Knows s number identity) (call : Call) :
    Knows (s.step p bzip2 env call) number identity := by
  have hstep : LinksStep p s call (s.step p bzip2 env call) := linksStep_step s call
  obtain ⟨hmade, -, fresh, hholds⟩ := hstep
  refine ⟨h.1.trans_le hmade, fun slot entry hentry hnumber => ?_⟩
  rcases hholds slot entry hentry with ⟨before, hbefore, hsame, hgoes⟩ | ⟨-, hnew, -⟩
  · obtain ⟨hknown, hidentity⟩ := h.2 slot before hbefore (hsame.number ▸ hnumber)
    rcases hgoes with hframe | ⟨interface_index, raw, -, hheard⟩
    · exact ⟨hframe.identified.trans hknown, hframe.peer.remote_identity.trans hidentity⟩
    rcases hheard.peer with ⟨hkept, hremote⟩ | ⟨hunknown, -⟩
    · exact ⟨hkept.trans hknown, hremote.trans hidentity⟩
    · exact absurd (hknown.symm.trans hunknown) (by decide)
  · -- A new link has a number that is not taken yet.
    exact absurd h.1 (by rw [← hnumber, hnew.number]; exact lt_irrefl _)

/-- What was told of the link with a number. -/
theorem log_of_holds (hs : Sound p s)
    (h : Slots.Holds s.links slot entry) : s.log entry.number = entry.link.log := by
  rw [log, findNumber, find_of_holds hs.distinct h]
  rfl

variable {handler : RequestHandler}

/-- A callback is called for a packet that a link hears. -/
theorem heard_of_tells (hs : Sound p s) {request : Request.View} {remote : Option Identity}
    (h : Tells p bzip2 env s call number (.handled handler request remote)) :
    ∃ slot entry interface_index raw, Slots.Holds s.links slot entry ∧ entry.number = number ∧
      call = .ingress interface_index raw ∧
      Handles p { entry.link with handlers := s.requestHandlers entry.inbound_destination }
        (interface_index = entry.interface_index) raw handler request remote := by
  obtain ⟨told, hlog, hmem⟩ := h
  have hstep : LinksStep p s call (s.step p bzip2 env call) := linksStep_step s call
  have hs' : Sound p (s.step p bzip2 env call) := sound_step hs call
  obtain ⟨-, -, fresh, hholds⟩ := hstep
  rcases hfind : (s.step p bzip2 env call).findNumber number with _ | ⟨slot, entry'⟩
  · rw [log, hfind] at hlog
    have hnil := (nil_eq_append_iff.mp hlog).2
    rw [hnil] at hmem
    cases hmem
  obtain ⟨hentry', hnumber, -⟩ := find_eq_some hfind
  have hnumber := of_decide_eq_true hnumber
  rw [← hnumber, log_of_holds hs' hentry'] at hlog
  rcases hholds slot entry' hentry' with ⟨entry, hentry, hsame, hgoes⟩ | ⟨-, hnew, -⟩
  · rw [hsame.number, log_of_holds hs hentry] at hlog
    rcases hgoes with hframe | ⟨interface_index, raw, rfl, hheard⟩
    · obtain ⟨told', hlog', himpersonal⟩ := hframe.told
      rw [hlog', append_cancel_left_eq] at hlog
      exact absurd (himpersonal _ (hlog ▸ hmem)) (by simp [Observation.impersonal])
    · obtain ⟨told', hlog', hhandled⟩ := hheard.handled
      rw [hlog', append_cancel_left_eq] at hlog
      exact ⟨slot, entry, interface_index, raw, hentry, hsame.number ▸ hnumber, rfl,
        hhandled handler request remote (hlog ▸ hmem)⟩
  · have himpersonal := hnew.log _ (hlog ▸ mem_append_right _ hmem)
    exact absurd himpersonal (by simp [Observation.impersonal])

/-- The hash of an identity that was proved is that of its public keys. -/
theorem Proved.hash (h : Proved p bzip2 env signed sealedBy s past number identity) :
    identity.hash = truncatedHash (p.sha256
      (identity.encryption_public.bytes ++ identity.signing_public.bytes)) := by
  obtain ⟨earlier, interface_index, raw, packet, payload, slot, entry, -, -, -, -, -, -, rfl, -⟩ := h
  rw [identityFromPublic_bytes]
  rfl

/-- The policy of a handler lets through nobody but a peer that was proved. -/
theorem permits_of_authorized
    {proved : Identity → Prop} (h : link.requestHandlerAuthorized p.toCrypto handler = true)
    (hproved : link.remote_identified = true → proved link.protocol.remote_identity)
    (hhash : ∀ identity, proved identity → identity.hash = truncatedHash (p.sha256
      (identity.encryption_public.bytes ++ identity.signing_public.bytes))) : Permits handler proved
      (if link.remote_identified then some link.protocol.remote_identity else none) := by
  unfold RuntimeLink.requestHandlerAuthorized at h
  unfold Permits
  cases haccess : handler.access with
  | allowNone =>
    rw [haccess] at h
    cases h
  | allowAll =>
    intro identity hidentity
    split at hidentity
    · rename_i hknown
      cases hidentity
      exact hproved hknown
    · cases hidentity
  | allowIdentified =>
    rw [haccess] at h
    exact ⟨_, if_pos h, hproved h⟩
  | allowList =>
    rw [haccess] at h
    obtain ⟨hknown, hlisted⟩ := Bool.and_eq_true_iff.mp h
    refine ⟨_, if_pos hknown, hproved hknown, ?_⟩
    rw [hhash _ (hproved hknown)]
    exact of_decide_eq_true hlisted

/-- The handlers that a packet of a link may call are those of the destination of the link. -/
theorem mem_requestHandlers {inbound_destination : Option ℕ}
    (h : handler ∈ s.requestHandlers inbound_destination) :
    ∃ slot destination, inbound_destination = some destination.number ∧
      Slots.Holds s.destinations slot destination ∧
      ∃ place registered, Slots.Holds destination.request_handlers place registered ∧
        registered.handler = handler := by
  unfold requestHandlers at h
  split at h
  · cases h
  rename_i slot destination hbind
  obtain ⟨number, rfl, hfind⟩ := bind_eq_some_iff.mp hbind
  obtain ⟨hdestination, hnumber, -⟩ := find_eq_some hfind
  obtain ⟨registered, hregistered, rfl⟩ := mem_map.mp h
  obtain ⟨place, hplace⟩ := mem_entries.mp hregistered
  exact ⟨slot, destination, congrArg some (of_decide_eq_true hnumber).symm, hdestination, place,
    registered, hplace, rfl⟩

/-- Whenever the callback of a request handler is called, it is for an authentic request of an
active inbound link of the destination that the handler is registered on, under the path of the
handler, and the policy of the handler permits the peer. The identity that the callback is given was
proved by a signature of the id of the link, and every later callback of the link is given the same
one. -/
theorem handlers_obey_policy (hu : Unforgeable p signed sealedBy) {config : NodeConfig}
    {interfaces : List Interface} {transporting : Bool}
    (hstart : start config interfaces transporting = some s) (past : List Call) (call : Call)
    (number : ℕ) (handler : RequestHandler) (request : Request.View) (remote : Option Identity)
    (h : Tells p bzip2 env (final (step p bzip2 env) s past) call number
      (.handled handler request remote)) :
    (∃ entry destination registered, entry.number = number ∧ registered.handler = handler ∧
      AuthenticRequest p sealedBy (final (step p bzip2 env) s past) call entry destination
        registered request ∧
      Permits handler (Proved p bzip2 env signed sealedBy s past number) remote) ∧
    ∀ identity, remote = some identity → ∀ later call' handler' request' remote',
      Tells p bzip2 env (final (step p bzip2 env) s (past ++ call :: later)) call' number
        (.handled handler' request' remote') → remote' = some identity := by
  have hsound : ∀ calls, Sound p (final (step p bzip2 env) s calls) :=
    fun calls => @invariant Host Call (step p bzip2 env) (Sound p) _
      (fun _ call h _ => sound_step h call) s calls (sound_start hstart) (each_true calls)
  obtain ⟨slot, entry, interface_index, raw, hentry, hnumber, rfl, hhandles⟩ :=
    heard_of_tells (hsound past) h
  obtain ⟨plaintext, hopens, hrequest⟩ := hhandles.opens
  obtain ⟨packet, hdecode, hdestination, hown, hactive, hsealed⟩ := sealedBy_of_opens hu hopens
  obtain rfl := of_decide_eq_true hown
  refine ⟨?_, fun identity hidentity later call' handler' request' remote' h' => ?_⟩
  · obtain ⟨slot', destination, hinbound, hfound, hregistered⟩ :=
      mem_requestHandlers hhandles.registered
    obtain ⟨place, registered, hplace, rfl⟩ := hregistered
    have hrole : entry.link.protocol.role = .responder :=
      (hsound past).inbound slot entry hentry (by rw [hinbound]; exact some_ne_none _)
    refine ⟨entry, destination, registered, hnumber, rfl, ?_, ?_⟩
    · exact
        { link := ⟨slot, hentry⟩
          active := hactive
          role := hrole
          inbound := hinbound
          owner := ⟨slot', hfound⟩
          handler := ⟨place, hplace⟩
          packet := ⟨raw, packet, plaintext, rfl, hdecode, hdestination, hsealed, hrequest⟩
          path_hash := ⟨hhandles.path_hash.symm, hhandles.path_hash.symm.trans
            ((hsound past).hashed slot' destination hfound place registered hplace)⟩ }
    · rw [hhandles.remote]
      refine permits_of_authorized hhandles.authorized (fun hknown => ?_) fun _ => Proved.hash
      rw [← hnumber]
      exact proved_of_identified hu (not_holds_start hstart) past hentry hrole hknown
  · -- The link knew its peer when the callback was called, and goes on to know it.
    have hremote := hhandles.remote.symm.trans hidentity
    rw [ite_eq_iff] at hremote
    have hknows : Knows (final (step p bzip2 env) s past) number identity := by
      refine ⟨hnumber ▸ (hsound past).numbers slot entry hentry, fun slot' other hother hsame => ?_⟩
      obtain rfl := (hsound past).distinct slot' slot other entry hother hentry
        (hsame.trans hnumber.symm)
      obtain rfl := hother.unique hentry
      rcases hremote with ⟨hknown, hpeer⟩ | ⟨-, hnone⟩
      · exact ⟨hknown, Option.some.inj hpeer⟩
      · cases hnone
    have hknows' : Knows (final (step p bzip2 env) s
        (past ++ .ingress entry.interface_index raw :: later)) number identity := by
      rw [final_append]
      exact @invariant Host Call (step p bzip2 env) (fun s => Knows s number identity) _
        (fun _ call h _ => knows_step h call) _ _ hknows (each_true _)
    obtain ⟨slot', other, _, _, hother, hnumber', -, hhandles'⟩ :=
      heard_of_tells (hsound (past ++ .ingress entry.interface_index raw :: later)) h'
    obtain ⟨hknown, hpeer⟩ := hknows'.2 slot' other hother hnumber'
    rw [hhandles'.remote, if_pos hknown, hpeer]

end Peer

/-! ## A listed peer -/

/-- A packet of the peer of the link that comes in. -/
def plainPacket (context : UInt8) (plaintext : List UInt8) : List UInt8 :=
  [0x0c, 0] ++ (ofList 16 [2, 9]).bytes ++ [context] ++
    Link.plainPrimitives.tokenSeal (zero 64) (zero 16) plaintext

/-- A destination with a handler for listed peers, a link that comes in for it, and the listed peer
that signs the id of the link. -/
def plainListed : List Call :=
  [.registerLinkDestination (ofList 16 [9]) Link.plainIdentity ⟨0, false, 0, 0⟩,
   .registerRequestHandler 0 [0x70] ⟨.allowList, [zero 16], 0⟩,
   .ingress 0 Link.plainRequest,
   .ingress 0 (plainPacket Context.rtt (0xcb :: List.replicate 8 0)),
   .ingress 0 (plainPacket Context.identify ((zero 32).bytes ++ (ofList 32 [7]).bytes ++
     (ofList 32 [7]).bytes ++ (ofList 32 [2, 9]).bytes))]

/-- The request of the peer. -/
def plainAsk : Call :=
  .ingress 0 (plainPacket Context.request ([0x93, 0xcb] ++ List.replicate 8 0 ++ [0xc4, 16] ++
    (ofList 16 [0x70]).bytes ++ [0xc0]))

/-- Signatures that are valid and tokens that open, taken as those that were made. -/
theorem unforgeable_plain : Unforgeable Link.plainPrimitives
    (fun key message => ∃ signature, Link.plainPrimitives.ed25519Verify key message signature = true)
    (fun key token plaintext => ∃ capacity,
      tokenDecrypt Link.plainPrimitives key token capacity = some plaintext) :=
  ⟨fun _ _ signature h => ⟨signature, h⟩, fun _ _ capacity _ h => ⟨capacity, h⟩⟩

/-- The handler is called for the request of the listed peer, and obeys its policy. -/
theorem listed_peer_is_served :
    ∃ s handler request identity, start plainConfig plainInterfaces false = some s ∧
      Tells Link.plainPrimitives none plainEnvironment
        (final (step Link.plainPrimitives none plainEnvironment) s plainListed) plainAsk 2
        (.handled handler request (some identity)) ∧
      Permits handler (Proved Link.plainPrimitives none plainEnvironment
        (fun key message => ∃ signature,
          Link.plainPrimitives.ed25519Verify key message signature = true)
        (fun key token plaintext => ∃ capacity,
          tokenDecrypt Link.plainPrimitives key token capacity = some plaintext)
        s plainListed 2) (some identity) := by
  have hstart : start plainConfig plainInterfaces false =
      some ((start plainConfig plainInterfaces false).get (by decide +kernel)) := by simp
  have htells : Tells Link.plainPrimitives none plainEnvironment
      (final (step Link.plainPrimitives none plainEnvironment)
        ((start plainConfig plainInterfaces false).get (by decide +kernel)) plainListed) plainAsk 2
      (.handled ⟨ofList 16 [0x70], .allowList, [zero 16], 32 * 1024⟩
        ⟨0, ofList 16 [0x70], [0xc0]⟩
        (some ⟨zero 32, ofList 32 [7], zero 16⟩)) :=
    ⟨[_], by decide +kernel, mem_singleton_self _⟩
  have hpolicy := handlers_obey_policy unforgeable_plain hstart plainListed plainAsk 2 _ _ _ htells
  obtain ⟨⟨entry, destination, registered, -, -, -, hpermits⟩, -⟩ := hpolicy
  exact ⟨_, _, _, _, hstart, htells, hpermits⟩

end Host

end Reticulum.Runtime
