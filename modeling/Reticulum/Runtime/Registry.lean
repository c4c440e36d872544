import Reticulum.Runtime.Handlers
import Reticulum.Transport.Handling

/-!
# The registry of local destinations

The node of a runtime delivers packets for the hashes in one flat list. Plain destinations, link
destinations and links put their hashes there and take them away again, and the list does not count
how often a hash was put. `Registry` is that part of the runtime, `Registry.Exact` says that links
have different ids and that the list holds the hashes of the owners and no others.

Every call changes the registry in one of few ways, and for each of them there is a lemma that says
when an exact registry stays exact. `Spares` collects these conditions call by call, and
`registry_exact_iff` says that the registry is exact throughout a run just when every call of the
run satisfies them. They fail for a link request that comes a second time after the duplicate
window: `replayed_request_shares_id` is such a run.
-/

namespace Reticulum.Transport.Node

open List

/-! ## The list of the node -/

variable {node : Node} {h : Octets 16}

/-- A hash is in the list once it is registered, and only when the list is full it is not. -/
theorem registerDestination_cases (node : Node) (h : Octets 16) :
    (∃ node', node.registerDestination h = (true, node') ∧
      (∀ x, x ∈ node'.local_destinations ↔ x = h ∨ x ∈ node.local_destinations) ∧
      (node.local_destinations.Nodup → node'.local_destinations.Nodup)) ∨
    (node.registerDestination h = (false, node) ∧ h ∉ node.local_destinations) := by
  unfold registerDestination localDestination
  by_cases hmem : h ∈ node.local_destinations
  · refine .inl ⟨node, by rw [if_pos (by simpa using hmem)], fun x => ?_, id⟩
    constructor
    · exact .inr
    · rintro (rfl | hx)
      · exact hmem
      · exact hx
  rw [if_neg (by simpa using hmem)]
  split
  · exact .inr ⟨rfl, hmem⟩
  · refine .inl ⟨_, rfl, fun x => ?_, fun hnodup => ?_⟩
    · rw [List.mem_append, List.mem_singleton]
      exact or_comm
    · exact hnodup.append (List.nodup_singleton h) (by simpa using hmem)

/-- Where the last element takes the place of another one, the list is the old one without it. -/
theorem perm_swapRemove {α : Type*} (l : List α) (i : ℕ) (hi : i < l.length) (d : α) :
    (l.set i (l.getLastD d)).dropLast.Perm (l.eraseIdx i) := by
  rcases eq_nil_or_concat l with rfl | ⟨front, last, rfl⟩
  · exact absurd hi (Nat.not_lt_zero i)
  simp only [concat_eq_append, getLastD_concat] at hi ⊢
  rcases Nat.lt_or_ge i front.length with hlt | hge
  · rw [set_append_left _ _ hlt, dropLast_concat, eraseIdx_append_of_lt_length hlt]
    exact (set_perm_cons_eraseIdx hlt last).trans (perm_append_singleton _ _).symm
  · have hlast : i = front.length := by
      rw [length_append, length_singleton] at hi
      omega
    subst hlast
    simp [eraseIdx_append_of_length_le]

/-- A hash that is taken away is in the list no longer, and all others are. -/
theorem mem_unregisterDestination (hnodup : node.local_destinations.Nodup) (x : Octets 16) :
    x ∈ (node.unregisterDestination h).2.local_destinations ↔
      x ∈ node.local_destinations ∧ x ≠ h := by
  unfold unregisterDestination
  split
  · rename_i hnone
    have habsent : h ∉ node.local_destinations := fun hmem => by
      simpa using findIdx?_eq_none_iff.mp hnone h hmem
    constructor
    · intro hx
      exact ⟨hx, fun heq => habsent (heq ▸ hx)⟩
    · exact And.left
  · rename_i i hsome
    obtain ⟨hi, heq, -⟩ := findIdx?_eq_some_iff_getElem.mp hsome
    have hh : node.local_destinations[i] = h := by simpa using heq
    rw [(perm_swapRemove _ i hi h).mem_iff]
    have hperm := getElem_cons_eraseIdx_perm hi
    rw [hh] at hperm
    have hcons := hperm.nodup_iff.mpr hnodup
    rw [← hperm.mem_iff, mem_cons]
    constructor
    · intro hx
      exact ⟨.inr hx, fun heq => (nodup_cons.mp hcons).1 (heq ▸ hx)⟩
    · rintro ⟨rfl | hx, hne⟩
      · exact absurd rfl hne
      · exact hx

/-- Taking a hash away leaves no hash twice. -/
theorem nodup_unregisterDestination (hnodup : node.local_destinations.Nodup) :
    (node.unregisterDestination h).2.local_destinations.Nodup := by
  unfold unregisterDestination
  split
  · exact hnodup
  · rename_i i hsome
    obtain ⟨hi, -, -⟩ := findIdx?_eq_some_iff_getElem.mp hsome
    exact (perm_swapRemove _ i hi h).nodup_iff.mpr (hnodup.sublist (eraseIdx_sublist _ _))

end Reticulum.Transport.Node

namespace Reticulum.Runtime

open Slots
open Reticulum.Transport (Node NodeConfig NodeResult)
open Resource (Bzip2)

/-! ## The registry and its owners -/

/-- The list of the node, and who owns hashes: plain destinations, link destinations and links. -/
structure Registry where
  registered : List (Octets 16)
  plain : List (Octets 16)
  destinations : List (Option (Octets 16))
  links : List (Option (Octets 16))

namespace Registry

variable {r r' : Registry} {h : Octets 16}

/-- The hash has an owner. -/
def Owned (r : Registry) (h : Octets 16) : Prop :=
  h ∈ r.plain ∨ h ∈ entries r.destinations ∨ h ∈ entries r.links

/-- No two links have the same id, and the registered hashes are those that have an owner. -/
structure Exact (r : Registry) : Prop where
  distinct : DistinctKeys id r.links
  registered : ∀ h, h ∈ r.registered ↔ r.Owned h

/-- What always holds: neither the node nor the plain destinations have a hash twice, and no two
link destinations have the same one. -/
structure Orderly (r : Registry) : Prop where
  registered : r.registered.Nodup
  plain : r.plain.Nodup
  destinations : DistinctKeys id r.destinations

/-- The registry stays in order, and if it was exact it is exact just when `P` holds. -/
def Becomes (r r' : Registry) (P : Prop) : Prop := r'.Orderly ∧ (r.Exact → (r'.Exact ↔ P))

/-- A registry that does not change. -/
theorem becomes_same (h : r.Orderly) (heq : r' = r) : r.Becomes r' True := by
  subst heq
  exact ⟨h, fun hexact => iff_of_true hexact trivial⟩

/-- A new owner registers its hash. -/
theorem Exact.add (hexact : r.Exact)
    (hregistered : ∀ x, x ∈ r'.registered ↔ x = h ∨ x ∈ r.registered)
    (howned : ∀ x, r'.Owned x ↔ x = h ∨ r.Owned x) (hdistinct : DistinctKeys id r'.links) :
    r'.Exact :=
  ⟨hdistinct, fun x => by rw [hregistered, howned, hexact.registered]⟩

/-- A hash is taken away: that is right when nobody else owns it. -/
theorem Exact.drop_iff (hexact : r.Exact)
    (hregistered : ∀ x, x ∈ r'.registered ↔ x ∈ r.registered ∧ x ≠ h)
    (howned : ∀ x, x ≠ h → (r'.Owned x ↔ r.Owned x)) (hdistinct : DistinctKeys id r'.links) :
    r'.Exact ↔ ¬ r'.Owned h := by
  constructor
  · intro hexact' howned'
    exact ((hregistered h).mp ((hexact'.registered h).mpr howned')).2 rfl
  · intro hfree
    refine ⟨hdistinct, fun x => ?_⟩
    rw [hregistered, hexact.registered]
    by_cases hx : x = h
    · subst hx
      exact iff_of_false (fun hboth => hboth.2 rfl) hfree
    · rw [howned x hx]
      exact and_iff_left hx

/-! The changes of a registry. `registered` is the list of the node after the change. -/

section Changes

variable {registered : List (Octets 16)} {slot : ℕ}

variable (ho : r.Orderly)
include ho

/-- A plain destination goes, and a link destination still owns the hash. -/
theorem becomes_leavePlain (hdestination : h ∈ entries r.destinations) :
    r.Becomes { r with plain := r.plain.erase h } True := by
  refine ⟨⟨ho.registered, ho.plain.erase h, ho.destinations⟩, fun hexact => iff_of_true ?_ trivial⟩
  refine ⟨hexact.distinct, fun x => (hexact.registered x).trans ?_⟩
  simp only [Owned, ho.plain.mem_erase_iff]
  by_cases hx : x = h
  · subst hx
    simp [hdestination]
  · simp [hx]

/-- A link destination goes, and a plain destination still owns the hash. -/
theorem becomes_leaveDestination (hslot : Holds r.destinations slot h)
    (hplain : h ∈ r.plain) :
    r.Becomes { r with destinations := r.destinations.set slot none } True := by
  refine ⟨⟨ho.registered, ho.plain, ho.destinations.set_none slot⟩, fun hexact =>
    iff_of_true ⟨hexact.distinct, fun x => (hexact.registered x).trans ?_⟩ trivial⟩
  simp only [Owned, mem_entries_set_none ho.destinations hslot]
  by_cases hx : x = h
  · subst hx
    simp [hplain]
  · simp [hx]

variable (hnodup : registered.Nodup)
include hnodup

section

variable (hmem : ∀ x, x ∈ registered ↔ x = h ∨ x ∈ r.registered)
include hmem

/-- A plain destination is registered. -/
theorem becomes_addPlain (hplain : h ∉ r.plain) :
    r.Becomes { r with registered, plain := r.plain ++ [h] } True := by
  refine ⟨⟨hnodup, ?_, ho.destinations⟩, fun hexact => iff_of_true ?_ trivial⟩
  · exact .append ho.plain (List.nodup_singleton h) (by simpa using hplain)
  · refine hexact.add hmem (fun x => ?_) hexact.distinct
    simp only [Owned, List.mem_append, List.mem_singleton]
    tauto

/-- A link destination is registered. -/
theorem becomes_addDestination (hfree : r.destinations[slot]? = some none)
    (hdestination : h ∉ entries r.destinations) :
    r.Becomes { r with registered, destinations := r.destinations.set slot (some h) } True := by
  refine ⟨⟨hnodup, ho.plain, ?_⟩, fun hexact => iff_of_true ?_ trivial⟩
  · refine ho.destinations.set_some fun j b hb hkey => ?_
    exact absurd (mem_entries.mpr ⟨j, hb⟩) ((show b = h from hkey) ▸ hdestination)
  · refine hexact.add hmem (fun x => ?_) hexact.distinct
    simp only [Owned, mem_entries_set_some hfree]
    tauto

/-- A link is made: that is right when no other link has its id. -/
theorem becomes_addLink (hfree : r.links[slot]? = some none) :
    r.Becomes { r with registered, links := r.links.set slot (some h) }
      (h ∉ entries r.links) := by
  refine ⟨⟨hnodup, ho.plain, ho.destinations⟩, fun hexact =>
    ⟨fun hexact' hlink => ?_, fun hfresh => ?_⟩⟩
  · obtain ⟨j, hj⟩ := mem_entries.mp hlink
    have hne : j ≠ slot := by
      rintro rfl
      rw [Holds, hfree] at hj
      cases hj
    have hlt : slot < r.links.length := (getElem?_eq_some_iff.mp hfree).1
    exact hne (hexact'.distinct j slot h h (holds_set.mpr (.inr ⟨hne, hj⟩))
      (holds_set_self hlt) rfl)
  · refine hexact.add hmem (fun x => ?_) (hexact.distinct.set_some fun j b hb hkey => ?_)
    · simp only [Owned, mem_entries_set_some hfree]
      tauto
    · exact absurd (mem_entries.mpr ⟨j, hb⟩) ((show b = h from hkey) ▸ hfresh)

end

variable (hmem : ∀ x, x ∈ registered ↔ x ∈ r.registered ∧ x ≠ h)
include hmem

/-- A plain destination goes, and the hash is taken away. -/
theorem becomes_dropPlain (hdestination : h ∉ entries r.destinations) :
    r.Becomes { r with registered, plain := r.plain.erase h } (h ∉ entries r.links) := by
  refine ⟨⟨hnodup, ho.plain.erase h, ho.destinations⟩, fun hexact => ?_⟩
  refine (hexact.drop_iff hmem (fun x hx => ?_) ?_).trans ?_
  · simp [Owned, hx]
  · exact hexact.distinct
  · simp [Owned, ho.plain.mem_erase_iff, hdestination]

/-- A link destination goes, and the hash is taken away. -/
theorem becomes_dropDestination (hslot : Holds r.destinations slot h) (hplain : h ∉ r.plain) :
    r.Becomes { r with registered, destinations := r.destinations.set slot none }
      (h ∉ entries r.links) := by
  refine ⟨⟨hnodup, ho.plain, ho.destinations.set_none slot⟩, fun hexact => ?_⟩
  refine (hexact.drop_iff hmem (fun x hx => ?_) ?_).trans ?_
  · simp [Owned, mem_entries_set_none ho.destinations hslot, hx]
  · exact hexact.distinct
  · simp [Owned, mem_entries_set_none ho.destinations hslot, hplain]

/-- A link is made and taken back: that is right when nobody owns its id. -/
theorem becomes_failLink : r.Becomes { r with registered } (¬ r.Owned h) :=
  ⟨⟨hnodup, ho.plain, ho.destinations⟩, fun hexact =>
    hexact.drop_iff hmem (fun _ _ => .rfl) hexact.distinct⟩

/-- A link goes, and its id is taken away. -/
theorem becomes_dropLink (hslot : Holds r.links slot h) :
    r.Becomes { r with registered, links := r.links.set slot none }
      (h ∉ r.plain ∧ h ∉ entries r.destinations) := by
  refine ⟨⟨hnodup, ho.plain, ho.destinations⟩, fun hexact => ?_⟩
  refine (hexact.drop_iff hmem (fun x hx => ?_) (hexact.distinct.set_none slot)).trans ?_
  · simp [Owned, mem_entries_set_none hexact.distinct hslot, hx]
  · simp [Owned, mem_entries_set_none hexact.distinct hslot]

end Changes

/-- The same change under another condition. -/
theorem Becomes.of_iff {P Q : Prop} (hchange : r.Becomes r' P) (hPQ : P ↔ Q) : r.Becomes r' Q :=
  ⟨hchange.1, fun hexact => (hchange.2 hexact).trans hPQ⟩

end Registry

namespace Host

open Registry

/-- The registry of a runtime. -/
def registry (s : Host) : Registry :=
  { registered := s.node.local_destinations
    plain := s.plain_destinations
    destinations := s.destinations.map (Option.map Destination.hash)
    links := s.links.map (Option.map HostLink.id) }

variable {s : Host}

/-- A hash of a link destination. -/
theorem mem_destinations {h : Octets 16} :
    h ∈ entries s.registry.destinations ↔ (s.findLinkDestination h).isSome := by
  rw [mem_entries, Option.isSome_iff_ne_none, ne_eq, findLinkDestination,
    find_eq_none_iff]
  simp only [registry, holds_map]
  push Not
  constructor
  · rintro ⟨i, d, hd, rfl⟩
    exact ⟨i, d, hd, by simp⟩
  · rintro ⟨i, d, hd, hne⟩
    exact ⟨i, d, hd, by simpa using hne⟩

/-! ## Destinations -/

section

variable (ho : s.registry.Orderly)
include ho

theorem becomes_registerDestination (h : Octets 16) :
    s.registry.Becomes (s.registerDestination h).2.registry True := by
  unfold registerDestination
  split
  · exact becomes_same ho rfl
  rename_i hplain
  split
  · exact becomes_same ho rfl
  rcases s.node.registerDestination_cases h with ⟨node, heq, hmem, hnodup⟩ | ⟨heq, -⟩
  · rw [heq]
    exact becomes_addPlain ho (hnodup ho.registered) hmem hplain
  · rw [heq]
    exact becomes_same ho rfl

theorem becomes_unregisterDestination (h : Octets 16) :
    s.registry.Becomes (s.unregisterDestination h).2.registry
      (h ∈ s.plain_destinations → (s.findLinkDestination h).isSome ∨
        h ∉ entries s.registry.links) := by
  unfold unregisterDestination
  split
  · rename_i hplain
    exact (becomes_same ho rfl).of_iff (by simp [hplain])
  rename_i hplain
  rw [not_not] at hplain
  have hfind : findLinkDestination { s with plain_destinations := s.plain_destinations.erase h } h =
      s.findLinkDestination h := rfl
  dsimp only
  rw [hfind]
  split_ifs with hnone
  · rw [Option.isNone_iff_eq_none] at hnone
    have habsent : h ∉ entries s.registry.destinations := by
      rw [mem_destinations, hnone]
      exact Bool.false_ne_true
    exact (becomes_dropPlain ho (Node.nodup_unregisterDestination ho.registered)
      (Node.mem_unregisterDestination ho.registered) habsent).of_iff (by simp [hplain, hnone])
  · have hpresent : (s.findLinkDestination h).isSome := by
      simpa [Option.isSome_iff_ne_none] using hnone
    exact (becomes_leavePlain ho (mem_destinations.mpr hpresent)).of_iff (by simp [hpresent])

theorem becomes_registerLinkDestination (env : HostEnvironment)
    (h : Octets 16) (identity : LocalIdentity) (options : LinkOptions) :
    s.registry.Becomes (s.registerLinkDestination env h identity options).2.registry True := by
  unfold registerLinkDestination
  split
  · exact becomes_same ho rfl
  split
  · exact becomes_same ho rfl
  rename_i hnew
  split
  · exact becomes_same ho rfl
  rename_i slot hslot
  split
  · exact becomes_same ho rfl
  have hfree : s.registry.destinations[slot]? = some none := by
    simp [registry, firstFree_eq_some hslot]
  have habsent : h ∉ entries s.registry.destinations := fun hmem =>
    hnew (mem_destinations.mp hmem)
  dsimp only [ask]
  rcases s.node.registerDestination_cases h with ⟨node, heq, hmem, hnodup⟩ | ⟨heq, -⟩
  · rw [heq]
    have hchange := becomes_addDestination ho (hnodup ho.registered) hmem hfree habsent
    simpa only [registry, List.map_set, Option.map_some] using hchange
  · rw [heq]
    exact becomes_same ho rfl

theorem becomes_destinationDestroy (number : ℕ) :
    s.registry.Becomes (s.destinationDestroy number).registry
      (∀ found ∈ s.findDestination number, found.2.hash ∈ s.plain_destinations ∨
        found.2.hash ∉ entries s.registry.links) := by
  unfold destinationDestroy
  split
  · rename_i hnone
    exact (becomes_same ho rfl).of_iff (by simp [hnone])
  rename_i slot d hfind
  have hslot : Holds s.registry.destinations slot d.hash :=
    holds_map.mpr ⟨d, (find_eq_some hfind).1, rfl⟩
  -- The links lose their destination but keep their ids.
  have hids : ∀ link : HostLink, HostLink.id (if link.inbound_destination = some number then
      { link with inbound_destination := none } else link) = link.id := fun link => by
    split <;> rfl
  dsimp only
  split_ifs with hplain
  · have hchange := becomes_leaveDestination ho hslot hplain
    simp only [registry, List.map_set, Option.map_none, map_map_of_key hids] at hchange ⊢
    exact hchange.of_iff (by simp [hfind, hplain])
  · have hchange := becomes_dropDestination ho
      (Node.nodup_unregisterDestination ho.registered)
      (Node.mem_unregisterDestination ho.registered) hslot hplain
    simp only [registry, List.map_set, Option.map_none, map_map_of_key hids] at hchange ⊢
    exact hchange.of_iff (by simp [hfind, hplain])

end

variable {slot : ℕ} {link : HostLink}

/-! ## Links -/

/-- The condition for a link that is made: its id is that of no other link, and if its first packet
cannot be sent, nobody owns its id. -/
def Fresh (s : Host) (h : Octets 16) (sent : Bool) : Prop :=
  if sent then h ∉ entries s.registry.links else ¬ s.registry.Owned h

theorem becomes_admitLink (ho : s.registry.Orderly) (hfree : s.links[slot]? = some none)
    (link : HostLink) (sent : Except Status RuntimeLink)
    (hid : ∀ made, sent = .ok made → made.protocol.link_id = link.id) :
    s.registry.Becomes (s.admitLink slot link sent).2.registry (s.Fresh link.id sent.isOk) := by
  unfold admitLink
  have hslot : s.registry.links[slot]? = some none := by simp [registry, hfree]
  rcases s.node.registerDestination_cases link.id with ⟨node, heq, hmem, hnodup⟩ | ⟨heq, habsent⟩
  swap
  · -- The node has no room, so that nobody owns the id.
    rw [heq]
    refine ⟨ho, fun hexact => iff_of_true hexact ?_⟩
    have hfree : ¬ s.registry.Owned link.id := fun howned =>
      habsent ((hexact.registered _).mpr howned)
    unfold Fresh
    split
    · exact fun hlink => hfree (.inr (.inr hlink))
    · exact hfree
  rw [heq]
  cases sent with
  | error status =>
    have hlinks : s.links.set slot none = s.links := by
      obtain ⟨hlt, hget⟩ := getElem?_eq_some_iff.mp hfree
      rw [← hget]
      exact List.set_getElem_self hlt
    have hchange := (becomes_failLink ho (h := link.id)
      (Node.nodup_unregisterDestination (hnodup ho.registered)) (fun x => by
      rw [Node.mem_unregisterDestination (hnodup ho.registered), hmem]
      exact ⟨fun hx => ⟨hx.1.resolve_left hx.2, hx.2⟩, fun hx => ⟨.inr hx.1, hx.2⟩⟩)).of_iff
        (Q := s.Fresh link.id false) (by simp [Fresh])
    simpa only [registry, hlinks, Except.isOk, Except.toBool] using hchange
  | ok made =>
    have hchange := (becomes_addLink ho (hnodup ho.registered) hmem hslot).of_iff
      (Q := s.Fresh link.id true) (by simp [Fresh])
    simpa only [registry, List.map_set, Option.map_some, HostLink.id, hid made rfl, Except.isOk,
      Except.toBool] using hchange

theorem becomes_linkDestroy (ho : s.registry.Orderly)
    (hregistered : ∀ slot link, Holds s.links slot link → link.registered = true)
    (number : ℕ) : s.registry.Becomes (s.linkDestroy number).registry
      (∀ found ∈ s.findNumber number, found.2.id ∉ s.plain_destinations ∧
        found.2.id ∉ entries s.registry.destinations) := by
  unfold linkDestroy
  split
  · rename_i hnone
    exact (becomes_same ho rfl).of_iff (by simp [hnone])
  rename_i slot link hfind
  have hholds := (find_eq_some hfind).1
  have hslot : Holds s.registry.links slot link.id := holds_map.mpr ⟨link, hholds, rfl⟩
  rw [hregistered slot link hholds, if_pos rfl]
  have hchange := (becomes_dropLink ho (Node.nodup_unregisterDestination ho.registered)
    (Node.mem_unregisterDestination ho.registered) hslot).of_iff
    (Q := ∀ found ∈ s.findNumber number, found.2.id ∉ s.plain_destinations ∧
      found.2.id ∉ entries s.registry.destinations) (by simp [hfind, registry])
  simpa only [registry, List.map_set, Option.map_none] using hchange

variable (p : Primitives) (bzip2 : Option Bzip2) (env : HostEnvironment)

/-! ## Calls -/

/-- The link that a packet makes, when the node delivers it and it is no packet of a link. -/
def offerResult (s : Host) (interface_index : ℕ) (raw : List UInt8) (result : NodeResult) :
    Option (ℕ × HostLink × Except Status RuntimeLink) :=
  if result.action ≠ .deliver then none
  else
    match Packet.decode raw with
    | none => none
    | some packet =>
      if (s.findLink packet.destination_hash).isSome then none
      else (s.prepareAccept p env interface_index raw packet result.hops).1

/-- The link that a packet makes. -/
def offer (s : Host) (interface_index : ℕ) (raw : List UInt8) :
    Option (ℕ × HostLink × Except Status RuntimeLink) :=
  match s.interfaces[interface_index]? with
  | none => none
  | some source =>
    let (result, node) :=
      s.node.ingress p.toCrypto raw source.id 0 (some mtu) (env.transport_clock s.asked)
    { s.ask with node }.offerResult p env interface_index raw result

/-- A call that touches nobody else's hash: a link is made under an id that is fresh, a plain
destination or a link destination that goes is not the id of a link, and a link that goes does not
have the hash of a destination. -/
def Spares (s : Host) : Call → Prop
  | .unregisterDestination h => h ∈ s.plain_destinations → (s.findLinkDestination h).isSome ∨
      h ∉ entries s.registry.links
  | .destinationDestroy number => ∀ found ∈ s.findDestination number,
      found.2.hash ∈ s.plain_destinations ∨ found.2.hash ∉ entries s.registry.links
  | .linkOpen destination_hash identity options link_mtu =>
      ∀ made ∈ (s.prepareOpen p env destination_hash identity options link_mtu).1.toOption,
        s.Fresh made.2.1.id made.2.2.isOk
  | .linkDestroy number => ∀ found ∈ s.findNumber number, found.2.id ∉ s.plain_destinations ∧
      found.2.id ∉ entries s.registry.destinations
  | .ingress interface_index raw =>
      ∀ made ∈ s.offer p env interface_index raw, s.Fresh made.2.1.id made.2.2.isOk
  | _ => True

instance (r : Registry) (h : Octets 16) : Decidable (r.Owned h) :=
  inferInstanceAs (Decidable (_ ∨ _ ∨ _))

instance (s : Host) (h : Octets 16) : (sent : Bool) → Decidable (s.Fresh h sent)
  | true => inferInstanceAs (Decidable (h ∉ entries s.registry.links))
  | false => inferInstanceAs (Decidable (¬ s.registry.Owned h))

instance (s : Host) : (call : Call) → Decidable (s.Spares p env call)
  | .unregisterDestination _ => inferInstanceAs (Decidable (_ → _ ∨ _))
  | .destinationDestroy number => inferInstanceAs (Decidable (∀ found ∈ s.findDestination number, _))
  | .linkOpen destination_hash identity options link_mtu => inferInstanceAs (Decidable
      (∀ made ∈ (s.prepareOpen p env destination_hash identity options link_mtu).1.toOption, _))
  | .linkDestroy number => inferInstanceAs (Decidable (∀ found ∈ s.findNumber number, _))
  | .ingress interface_index raw =>
    inferInstanceAs (Decidable (∀ made ∈ s.offer p env interface_index raw, _))
  | .registerDestination _ | .registerLinkDestination .. | .registerRequestHandler ..
  | .requestHandlerDestroy _ | .link .. | .poll | .interface .. => inferInstanceAs (Decidable True)

/-- The registry is in order, and every link of the table is registered. -/
structure Orderly (s : Host) : Prop where
  registry : s.registry.Orderly
  links : ∀ slot link, Holds s.links slot link → link.registered = true

variable {s' : Host}

theorem OnlyAsked.registry (h : OnlyAsked s s') : s'.registry = s.registry := by
  obtain ⟨transport, asked, rfl⟩ := h
  rfl

section

variable (ho : s.registry.Orderly)
include ho

/-- A link that was prepared is admitted. -/
theorem becomes_of_offered (hasked : OnlyAsked s s')
    {sent : Except Status RuntimeLink} (hoffer : s.Offered slot link sent) :
    s.registry.Becomes (s'.admitLink slot link sent).2.registry (s.Fresh link.id sent.isOk) := by
  obtain ⟨transport, asked, rfl⟩ := hasked
  exact becomes_admitLink (s := { s with node := { s.node with transport }, asked }) ho hoffer.free
    link sent fun made hmade => (hoffer.sent made hmade).peer.link_id

theorem becomes_linkOpen (destination_hash : Octets 16)
    (identity : Identity) (options : LinkOptions) (link_mtu : ℕ) :
    s.registry.Becomes (s.linkOpen p env destination_hash identity options link_mtu).2.registry
      (s.Spares p env (.linkOpen destination_hash identity options link_mtu)) := by
  unfold linkOpen Spares
  dsimp only
  rcases hprepare : s.prepareOpen p env destination_hash identity options link_mtu with ⟨result, s₁⟩
  obtain ⟨hasked, hoffer⟩ := prepareOpen_spec hprepare
  rcases result with status | ⟨slot, link, sent⟩
  · exact (becomes_same ho hasked.registry).of_iff (by simp [Except.toOption])
  · exact (becomes_of_offered ho hasked (hoffer slot link sent rfl)).of_iff
      (by simp [Except.toOption])

/-- One link of the table changes but for its id. -/
theorem becomes_of_setLink {entry : HostLink} {link : RuntimeLink}
    (hentry : Holds s.links slot entry)
    (hid : link.protocol.link_id = entry.link.protocol.link_id) : s.registry.Becomes
      (registry { s with links := s.links.set slot (some { entry with link }) }) True := by
  have hids : (s.links.set slot (some { entry with link })).map (Option.map HostLink.id) =
      s.links.map (.map HostLink.id) := map_set_of_holds hentry hid
  exact becomes_same ho (by simp only [registry, hids])

theorem becomes_linkCall (number : ℕ) (call : RuntimeLink.Call) :
    s.registry.Becomes (s.linkCall p bzip2 env number call).registry True := by
  unfold linkCall
  split
  · exact becomes_same ho rfl
  · rename_i slot entry hfind
    exact becomes_of_setLink ho (find_eq_some hfind).1 (RuntimeLink.step_link_id ..)

theorem becomes_poll : s.registry.Becomes (s.poll p env).registry True := by
  have hids : (s.poll p env).links.map (Option.map HostLink.id) =
      s.links.map (.map HostLink.id) :=
    map_map_of_key fun entry =>
      (RuntimeLink.peerFrame_poll p (env.link entry.number) entry.link).peer.link_id
  refine becomes_same ho ?_
  rw [registry, hids]
  rfl

theorem becomes_registerRequestHandler (crypto : Crypto) (number : ℕ)
    (path : List UInt8) (options : RequestHandlerOptions) :
    s.registry.Becomes (s.registerRequestHandler crypto env number path options).2.registry
      True := by
  have hsame := becomes_same ho rfl
  unfold registerRequestHandler
  split
  · exact hsame
  rename_i slot destination hfind
  iterate 2
    split
    · exact hsame
  dsimp only
  generalize (if options.max_response_size ≠ 0 then options.max_response_size
    else handlerDefaultMaxResponse) = response_size
  iterate 3
    split
    · exact hsame
  split
  · exact becomes_same ho rfl
  · refine becomes_same ho ?_
    have hhashes : ∀ handlers, (s.destinations.set slot (some { destination with
        request_handlers := handlers })).map (Option.map Destination.hash) =
          s.destinations.map (.map Destination.hash) := fun handlers =>
      map_set_of_holds (find_eq_some hfind).1 rfl
    simp only [registry, ask, hhashes]

theorem becomes_requestHandlerDestroy (number : ℕ) :
    s.registry.Becomes (s.requestHandlerDestroy number).registry True := by
  refine becomes_same ho ?_
  have hhashes : (s.requestHandlerDestroy number).destinations.map (Option.map Destination.hash) =
      s.destinations.map (.map Destination.hash) := map_map_of_key fun _ => rfl
  rw [registry, hhashes]
  rfl

/-! ## Packets -/

variable (interface_index : ℕ) (raw : List UInt8)

theorem becomes_acceptInboundLink (packet : Packet) (received_hops : UInt8) : s.registry.Becomes
      (s.acceptInboundLink p env interface_index raw packet received_hops).registry
      (∀ made ∈ (s.prepareAccept p env interface_index raw packet received_hops).1,
        s.Fresh made.2.1.id made.2.2.isOk) := by
  unfold acceptInboundLink
  rcases hprepare : s.prepareAccept p env interface_index raw packet received_hops with
    ⟨offered, s₁⟩
  obtain ⟨hasked, hoffer⟩ := prepareAccept_spec hprepare
  rcases offered with _ | ⟨slot, link, sent⟩
  · exact (becomes_same ho hasked.registry).of_iff (by simp)
  · exact (becomes_of_offered ho hasked (hoffer slot link sent rfl)).of_iff (by simp)

theorem becomes_handleResult (result : NodeResult) :
    s.registry.Becomes (s.handleResult p bzip2 env interface_index raw result).registry
      (∀ made ∈ s.offerResult p env interface_index raw result,
        s.Fresh made.2.1.id made.2.2.isOk) := by
  have hsame := becomes_same ho rfl
  unfold handleResult offerResult
  split
  · -- The packet is for a local destination.
    rename_i hdeliver
    rw [if_neg (by simp [hdeliver])]
    unfold linkIngress
    rcases Packet.decode raw with _ | packet
    · exact hsame.of_iff (by simp)
    dsimp only
    rcases hfind : s.findLink packet.destination_hash with _ | ⟨slot, entry⟩
    · exact becomes_acceptInboundLink p env ho interface_index raw packet result.hops
    · refine (becomes_of_setLink ho (find_eq_some hfind).1 ?_).of_iff ?_
      · exact (RuntimeLink.heard_linkIngress ..).link_id
      · simp
  · -- The packet is for somebody else.
    rename_i hforward
    rw [if_pos (by simp [hforward])]
    have hforwarded : ∀ sent, (s.node.completeForward result sent).2.1.local_destinations =
        s.node.local_destinations := fun sent => by
      obtain ⟨transport, -, hnode⟩ := s.node.completeForward_moved result sent
      rw [hnode]
    refine (becomes_same ho ?_).of_iff (by simp)
    rw [registry, hforwarded]
    rfl
  · rename_i hdeliver _
    rw [if_pos hdeliver]
    exact hsame.of_iff (by simp)

theorem becomes_ingress : s.registry.Becomes (s.ingress p bzip2 env interface_index raw).registry
      (s.Spares p env (.ingress interface_index raw)) := by
  unfold ingress Spares offer
  dsimp only
  rcases s.interfaces[interface_index]? with _ | source
  · exact (becomes_same ho rfl).of_iff (by simp)
  dsimp only
  obtain ⟨⟨transport, -, hnode⟩, -⟩ := Node.ingress_handled p.toCrypto s.node raw source.id 0
    (some mtu) (env.transport_clock s.asked)
  rw [hnode]
  -- The node has looked at the packet, which leaves the registry.
  exact becomes_handleResult (s := { s.ask with node := { s.node with transport } }) p bzip2 env ho
    interface_index raw _

end

/-- Every call keeps order, and exactness just when it touches nobody else's hash. -/
theorem becomes_step (ho : s.Orderly) (call : Call) :
    s.registry.Becomes (s.step p bzip2 env call).registry (s.Spares p env call) := by
  obtain ⟨ho, hregistered⟩ := ho
  cases call with
  | registerDestination h => exact becomes_registerDestination ho h
  | unregisterDestination h => exact becomes_unregisterDestination ho h
  | registerLinkDestination h identity options =>
    exact becomes_registerLinkDestination ho env h identity options
  | destinationDestroy number => exact becomes_destinationDestroy ho number
  | registerRequestHandler number path options =>
    exact becomes_registerRequestHandler env ho p.toCrypto number path options
  | requestHandlerDestroy number => exact becomes_requestHandlerDestroy ho number
  | linkOpen destination_hash identity options link_mtu =>
    exact becomes_linkOpen p env ho destination_hash identity options link_mtu
  | linkDestroy number => exact becomes_linkDestroy ho hregistered number
  | link number call =>
    cases call <;> first
      | exact becomes_linkCall p bzip2 env ho number _
      | exact becomes_same ho rfl
  | ingress interface_index raw => exact becomes_ingress p bzip2 env ho interface_index raw
  | poll => exact becomes_poll p env ho
  | interface interface_index up => exact becomes_same ho rfl

/-- Every call keeps order. -/
theorem orderly_step (ho : s.Orderly) (call : Call) : (s.step p bzip2 env call).Orderly := by
  refine ⟨(becomes_step p bzip2 env ho call).1, fun slot entry' hentry' => ?_⟩
  obtain ⟨-, -, fresh, hholds⟩ := linksStep_step (p := p) s call
  rcases hholds slot entry' hentry' with ⟨entry, hentry, hgoes⟩ | ⟨-, hnew, -⟩
  · exact hgoes.1.registered.trans (ho.links slot entry hentry)
  · exact hnew.registered

/-- A runtime starts with nothing registered. -/
theorem orderly_start {config : NodeConfig} {interfaces : List Interface} {transporting : Bool}
    (h : start config interfaces transporting = some s) : s.Orderly ∧ s.registry.Exact := by
  unfold start at h
  rw [Option.map_eq_some_iff] at h
  obtain ⟨node, hnode, rfl⟩ := h
  have hlocal : node.local_destinations = [] := by
    unfold Node.init at hnode
    split at hnode
    · cases hnode
    split at hnode
    · cases hnode
    · cases hnode
      rfl
  have hempty : ∀ (n : ℕ) (x : Octets 16), x ∉ entries (.replicate n none) := by
    intro n x hmem
    simp [entries] at hmem
  refine ⟨⟨⟨?_, List.nodup_nil, ?_⟩, fun slot link hlink => ?_⟩, ?_, fun x => ?_⟩
  · simp [registry, hlocal]
  · exact distinctKeys_replicate maxDestinations
  · exact absurd hlink not_holds_replicate
  · exact distinctKeys_replicate maxLinks
  · simp only [registry, hlocal, Registry.Owned]
    simp [hempty]

/-! ## Runs -/

/-- **The registry of local destinations.** In every state of a run the links of the runtime have
different ids and the node delivers exactly for the plain destinations, the link destinations and
the links, just when no call of the run touches a hash of another owner. -/
theorem registry_exact_iff {config : NodeConfig} {interfaces : List Interface} {transporting : Bool}
    (hstart : start config interfaces transporting = some s) (calls : List Call) :
    (∀ past, past <+: calls → (Run.final (step p bzip2 env) s past).registry.Exact) ↔
      Run.Each (step p bzip2 env) (Spares p env) s calls := by
  obtain ⟨ho, hexact⟩ := orderly_start hstart
  exact @Run.forall_prefix_iff Host Call (step p bzip2 env) Orderly (fun s => s.registry.Exact)
    (Spares p env) (fun s call hs => orderly_step p bzip2 env hs call)
    (fun s call hs => (becomes_step p bzip2 env hs call).2) s calls ho hexact

/-! ## A link request that comes twice -/

/-- The same link request, which comes again after the duplicate window, makes a second link with
the id of the first one, and destroying that link stops the delivery to the first. -/
theorem replayed_request_shares_id : ∃ s, start plainConfig plainInterfaces false = some s ∧
      (¬ ∀ past, past <+: plainInbound ++ [.ingress 0 Link.plainRequest] →
        (Run.final (step Link.plainPrimitives none plainEnvironment) s past).registry.Exact) ∧
      ∃ link, (Run.final (step Link.plainPrimitives none plainEnvironment) s
          (plainInbound ++ [.ingress 0 Link.plainRequest, .linkDestroy 2])).registry.links =
            some link :: List.replicate 15 none ∧
        link ∉ (Run.final (step Link.plainPrimitives none plainEnvironment) s
          (plainInbound ++ [.ingress 0 Link.plainRequest, .linkDestroy 2])).registry.registered := by
  refine ⟨_, rfl, fun hall => ?_, Octets.ofList 16 (2 :: 9 :: List.replicate 14 0), ?_, ?_⟩
  · have hexact := hall _ List.prefix_rfl
    have hslots : ∀ i < 2, Holds (Run.final (step Link.plainPrimitives none plainEnvironment)
        ((start plainConfig plainInterfaces false).get rfl)
          (plainInbound ++ [.ingress 0 Link.plainRequest])).registry.links i
            (Octets.ofList 16 (2 :: 9 :: List.replicate 14 0)) := by
      unfold Holds
      decide +kernel
    exact absurd (hexact.distinct 0 1 _ _ (hslots 0 (by decide)) (hslots 1 (by decide)) rfl)
      (by decide)
  · decide +kernel
  · decide +kernel

/-- A link destination, a plain destination and a link that come and go leave the registry exact
throughout. -/
theorem inbound_link_exact : ∃ s, start plainConfig plainInterfaces false = some s ∧
      (Run.final (step Link.plainPrimitives none plainEnvironment) s
        (plainInbound ++ [.registerDestination (Octets.ofList 16 [9]), .destinationDestroy 0,
          .poll, .linkDestroy 1])).registry.Exact := by
  have hstart : start plainConfig plainInterfaces false =
      some ((start plainConfig plainInterfaces false).get (by decide +kernel)) := by simp
  refine ⟨_, hstart, ?_⟩
  refine (registry_exact_iff Link.plainPrimitives none plainEnvironment hstart _).mpr ?_ _
    List.prefix_rfl
  refine ⟨?_, ?_, ?_, ?_, ?_, ?_, trivial⟩ <;> decide +kernel

end Host

end Reticulum.Runtime
