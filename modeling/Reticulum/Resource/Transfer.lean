import Reticulum.Base.Run
import Reticulum.Resource.Following

/-!
# Transfer of a resource

A sender and a receiver of one segment over a channel that loses, duplicates and reorders. The
receiver builds requests, the sender answers them with parts and with pages of the map, and
everything that was ever sent may be delivered at any time and any number of times, or never.

`Tracked` is the invariant of the whole system: the receiver follows the sender (`Follows`), and
every message on its way is one that the receiver is ready for. The parts on their way have map
hashes that the receiver knows, because it asked for them by these hashes; the pages on their way
are known to it or asked for.
-/

namespace Reticulum.Resource

open List Octets
open ResourceSender (Prepared Produced partOf)

/-- A receiver, what is on its way in both directions, and what was delivered to the receiver. -/
structure Transfer where
  resource : Resource
  requests : List (List UInt8)
  /-- The parts that the sender answered with, with their indexes. -/
  parts : List (ℕ × List UInt8)
  updates : List (List UInt8)
  delivered : List ℕ
  deliveredUpdates : List (List UInt8)

namespace Transfer

/-- A transfer that begins. -/
def start (resource : Resource) : Transfer := ⟨resource, [], [], [], [], []⟩

/-- What can happen next. Messages are named by their place among those sent so far. -/
inductive Event
  | buildRequest (capacity : ℕ)
  | buildRetryRequest (capacity : ℕ)
  | answerParts (request indexes_capacity : ℕ)
  | answerMap (request capacity : ℕ)
  | deliverPart (part : ℕ)
  | deliverUpdate (update : ℕ)
deriving DecidableEq

/-- The parts with the indexes, as far as the sender has them. -/
def answer (sender : ResourceSender) (indexes : List ℕ) : List (ℕ × List UInt8) :=
  indexes.filterMap (fun index => (sender.part index).toOption.map (fun part => (index, part)))

/-- What a request that was built leaves: the receiver, and the request on its way. -/
def sent (t : Transfer) (r : Except Status (List UInt8) × Resource) : Transfer :=
  { t with
    resource := r.2
    requests := t.requests ++ r.1.toOption.toList }

/-- One event. One that names a message that was not sent does nothing. -/
def step (crypto : Crypto) (sender : ResourceSender) (t : Transfer) : Event → Transfer
  | .buildRequest capacity => t.sent (t.resource.buildRequest capacity)
  | .buildRetryRequest capacity => t.sent (t.resource.buildRetryRequest capacity)
  | .answerParts request indexes_capacity =>
    match t.requests[request]? with
    | none => t
    | some request =>
      match sender.requestedParts request indexes_capacity with
      | .error _ => t
      | .ok indexes => { t with parts := t.parts ++ answer sender indexes }
  | .answerMap request capacity =>
    match t.requests[request]? with
    | none => t
    | some request =>
      { t with updates := t.updates ++ (sender.hashmapUpdate request capacity).toOption.toList }
  | .deliverPart part =>
    match t.parts[part]? with
    | none => t
    | some (index, part) =>
      { t with
        resource := (t.resource.receivePart crypto part).2
        delivered := index :: t.delivered }
  | .deliverUpdate update =>
    match t.updates[update]? with
    | none => t
    | some update =>
      { t with
        resource := (t.resource.applyHashmapUpdate update).2
        deliveredUpdates := update :: t.deliveredUpdates }

/-- What the event delivers is accepted, and changes nothing when it was delivered before. -/
def Accepted (crypto : Crypto) (t : Transfer) : Event → Prop
  | .deliverPart part => ∀ index bytes, t.parts[part]? = some (index, bytes) →
      (t.resource.receivePart crypto bytes).1 = .ok ∧
        (index ∈ t.delivered → (t.resource.receivePart crypto bytes).2 = t.resource)
  | .deliverUpdate update => ∀ bytes, t.updates[update]? = some bytes →
      (t.resource.applyHashmapUpdate bytes).1 = .ok ∧
        (bytes ∈ t.deliveredUpdates → (t.resource.applyHashmapUpdate bytes).2 = t.resource)
  | _ => True

/-! ## The sender's answers -/

section Answers

variable {p : Primitives} {bzip2 : Option Bzip2} {key : Octets 64} {sender : ResourceSender}

/-- Where the map hashes of a request for parts start. -/
theorem parseRequest_partsRequest (sender : ResourceSender) (wanted : List (Octets 4)) :
    sender.parseRequest (partsRequest sender.hash wanted) = .ok 33 := by
  have hlength : (partsRequest sender.hash wanted).length = 33 + wanted.length * 4 := by
    simp [partsRequest]
    omega
  have hslice : Bytes.slice (partsRequest sender.hash wanted) 1 32 = sender.hash.bytes := by
    exact take_left' sender.hash.length_eq
  show sender.checkRequest _ 1 33 = _
  rw [ResourceSender.checkRequest, hlength, hslice, if_neg (by omega), if_neg (not_not.2 rfl)]

/-- Where the map hashes of a request for a page start. -/
theorem parseRequest_mapRequest (sender : ResourceSender) (last : Octets 4)
    (wanted : List (Octets 4)) :
    sender.parseRequest (mapRequest last sender.hash wanted) = .ok 37 := by
  have hlength : (mapRequest last sender.hash wanted).length = 37 + wanted.length * 4 := by
    simp [mapRequest]
    omega
  have hslice : Bytes.slice (mapRequest last sender.hash wanted) 5 32 = sender.hash.bytes := by
    show ((last.bytes ++ sender.hash.bytes ++ writeMany wanted).drop 4).take 32 = _
    rw [append_assoc, drop_left' last.length_eq]
    exact take_left' sender.hash.length_eq
  show sender.checkRequest _ 5 37 = _
  rw [ResourceSender.checkRequest, hlength, hslice, if_neg (by omega), if_neg (not_not.2 rfl)]

/-- The indexes that are found are those of the wanted map hashes. -/
theorem mem_findParts {indexes_capacity : ℕ} {wanted : List (Octets 4)} {indexes found : List ℕ}
    (h : sender.findParts indexes_capacity wanted indexes = .ok found) {i : ℕ} (hi : i ∈ found) :
    i ∈ indexes ∨ ∃ hash ∈ wanted, sender.map_hashes[i]? = some hash := by
  induction wanted generalizing indexes with
  | nil =>
    cases h
    exact .inl hi
  | cons hash wanted ih =>
    rw [ResourceSender.findParts] at h
    split at h
    · exact (ih h).imp_right fun ⟨hash', hmem, hget⟩ =>
        ⟨hash', mem_cons_of_mem _ hmem, hget⟩
    · rename_i j hfind
      split at h
      · cases h
      rcases ih h with hmem | ⟨hash', hmem, hget⟩
      · rcases mem_append.1 hmem with hold | hnew
        · exact .inl hold
        · obtain rfl := mem_singleton.1 hnew
          exact .inr ⟨hash, mem_cons_self, getElem?_of_findIdx? hfind⟩
      · exact .inr ⟨hash', mem_cons_of_mem _ hmem, hget⟩

/-- The parts that a request asks for have map hashes that the receiver knows. -/
theorem requestedParts_known (hs : Prepared p bzip2 key sender) {resource : Resource}
    {delivered : List ℕ} (h : Follows sender delivered resource) {request : List UInt8}
    (hask : Asks sender resource request) {indexes_capacity : ℕ} {indexes : List ℕ}
    (hindexes : sender.requestedParts request indexes_capacity = .ok indexes) :
    ∀ i ∈ indexes, i < resource.known_hashes := by
  -- Behind either header the wanted hashes are read back.
  obtain ⟨wanted, hwanted, hfound⟩ : ∃ wanted, (∀ hash ∈ wanted, hash ∈ resource.map_hashes) ∧
      sender.findParts indexes_capacity wanted [] = .ok indexes := by
    unfold ResourceSender.requestedParts at hindexes
    cases hask with
    | parts wanted hwanted heq =>
      have hlength : (request.length - 33) / 4 = wanted.length := by
        rw [heq]
        simp [partsRequest]
      have hread : readMany 4 wanted.length (request.drop 33) = wanted := by
        have hdrop : request.drop 33 = writeMany wanted := by
          rw [heq]
          exact drop_left' (congrArg (· + 1) sender.hash.length_eq)
        simpa [hdrop] using readMany_writeMany wanted []
      rw [heq, parseRequest_partsRequest, ← heq] at hindexes
      dsimp only at hindexes
      rw [hlength, hread] at hindexes
      split at hindexes
      · cases hindexes
      · exact ⟨wanted, hwanted, hindexes⟩
    | map page last wanted hlast hpage hwanted heq =>
      have hlength : (request.length - 37) / 4 = wanted.length := by
        rw [heq]
        simp [mapRequest]
        omega
      have hread : readMany 4 wanted.length (request.drop 37) = wanted := by
        have hdrop : request.drop 37 = writeMany wanted := by
          rw [heq]
          exact drop_left' (by simp)
        simpa [hdrop] using readMany_writeMany wanted []
      rw [heq, parseRequest_mapRequest, ← heq] at hindexes
      dsimp only at hindexes
      rw [hlength, hread] at hindexes
      split at hindexes
      · cases hindexes
      · exact ⟨wanted, hwanted, hindexes⟩
  intro i hi
  obtain hnil | ⟨hash, hmem, hget⟩ := mem_findParts hfound hi
  · exact absurd hnil not_mem_nil
  · -- The hash is at one index only, and that is a known one.
    obtain ⟨j, hj⟩ := mem_iff_getElem?.1 (hwanted hash hmem)
    have hlt : j < resource.known_hashes := (List.getElem?_eq_some_iff.1 hj).1
    rw [h.map_get hlt] at hj
    obtain ⟨hi', hget'⟩ := List.getElem?_eq_some_iff.1 hget
    obtain ⟨hj', hgetj⟩ := List.getElem?_eq_some_iff.1 hj
    have heq := (List.Nodup.getElem_inj_iff hs.nodup).1 (hget'.trans hgetj.symm)
    omega

/-- The page that a request asks for is known to the receiver, or asked for. -/
theorem hashmapUpdate_open (hs : Prepared p bzip2 key sender) {resource : Resource}
    {request : List UInt8} (hask : Asks sender resource request) {capacity : ℕ}
    {update : List UInt8} (hupdate : sender.hashmapUpdate request capacity = .ok update) :
    ∃ page, update = sender.pageBytes page ∧ page * hashmapMaxEntries < sender.parts ∧
      PageOpen resource (page * hashmapMaxEntries) := by
  unfold ResourceSender.hashmapUpdate at hupdate
  cases hask with
  | parts wanted hwanted heq =>
    have hhead : request.head? ≠ some 0xff := by
      rw [heq]
      exact fun h => absurd h (by simp [partsRequest])
    rw [heq, parseRequest_partsRequest, ← heq] at hupdate
    rw [if_pos hhead] at hupdate
    cases hupdate
  | map page last wanted hlast hpage hwanted heq =>
    have hhead : ¬ request.head? ≠ some 0xff := by
      rw [heq]
      exact not_not.2 rfl
    have hanchor : ofList 4 (Bytes.slice request 1 4) = last := by
      have hslice : Bytes.slice request 1 4 = last.bytes := by
        rw [heq]
        show (last.bytes ++ sender.hash.bytes ++ writeMany wanted).take 4 = _
        rw [append_assoc]
        exact take_left' last.length_eq
      rw [hslice, ofList_bytes]
    have hpos : 0 < page * hashmapMaxEntries := Nat.mul_pos hlast.1 (by decide)
    have hnext : page * hashmapMaxEntries - 1 + 1 = page * hashmapMaxEntries := by omega
    rw [heq, parseRequest_mapRequest, ← heq] at hupdate
    rw [if_neg hhead, hanchor, findIdx?_of_nodup hs.nodup hlast.2] at hupdate
    dsimp only at hupdate
    rw [hnext, Nat.mul_mod_left, if_neg (not_not.2 rfl), Nat.mul_div_cancel _ (by decide),
      if_neg (not_le.2 hpage.1)] at hupdate
    split at hupdate
    · cases hupdate
    · exact ⟨page, (Except.ok.inj hupdate).symm, hpage⟩

end Answers

/-! ## The invariant of the system -/

/-- The receiver follows the sender, and is ready for every message on its way. -/
structure Tracked (sender : ResourceSender) (t : Transfer) : Prop where
  follows : Follows sender t.delivered t.resource
  requests : ∀ request ∈ t.requests, Asks sender t.resource request
  parts : ∀ part ∈ t.parts, part.1 < t.resource.known_hashes ∧ part.2 = partOf sender.wire part.1
  updates : ∀ update ∈ t.updates, ∃ page, update = sender.pageBytes page ∧
    page * hashmapMaxEntries < sender.parts ∧ PageOpen t.resource (page * hashmapMaxEntries)
  deliveredUpdates : ∀ update ∈ t.deliveredUpdates, ∃ page, update = sender.pageBytes page ∧
    page * hashmapMaxEntries < t.resource.known_hashes

namespace Tracked

variable {p : Primitives} {bzip2 : Option Bzip2} {key : Octets 64} {sender : ResourceSender}
  {t : Transfer}

section

variable (h : Tracked sender t)
include h

/-- A receiver that moved on is still ready for what is on its way. -/
theorem later {resource : Resource} {delivered : List ℕ}
    (hlater : Later t.resource resource) (hfollows : Follows sender delivered resource) :
    Tracked sender { t with resource, delivered } where
  follows := hfollows
  requests request hmem := (h.requests request hmem).later hlater
  parts part hmem := ⟨(h.parts part hmem).1.trans_le hlater.known, (h.parts part hmem).2⟩
  updates update hmem := by
    obtain ⟨page, heq, hlt, hopen⟩ := h.updates update hmem
    exact ⟨page, heq, hlt, hlater.page _ hopen⟩
  deliveredUpdates update hmem := by
    obtain ⟨page, heq, hlt⟩ := h.deliveredUpdates update hmem
    exact ⟨page, heq, hlt.trans_le hlater.known⟩

/-- A request that was built is on its way. -/
theorem sent {r : Except Status (List UInt8) × Resource}
    (hr : Follows sender t.delivered r.2 ∧ Later t.resource r.2 ∧
      ∀ request, r.1 = .ok request → Asks sender r.2 request) : Tracked sender (t.sent r) := by
  obtain ⟨hfollows, hlater, hasks⟩ := hr
  refine { h.later hlater hfollows with requests := ?_ }
  intro request hmem
  rcases mem_append.1 hmem with hold | hnew
  · exact (h.requests request hold).later hlater
  · apply hasks request
    cases hresult : r.1 with
    | error status => simp [hresult, Except.toOption] at hnew
    | ok built =>
      have : request = built := by simpa [hresult, Except.toOption] using hnew
      rw [this]

/-- What is delivered is accepted. -/
theorem accepted (hs : Prepared p bzip2 key sender) (hp : p.TokenSound)
    (event : Event) : Accepted p.toCrypto t event := by
  cases event with
  | deliverPart part =>
    intro index bytes hget
    obtain ⟨hlt, hbytes⟩ := h.parts _ (mem_of_getElem? hget)
    dsimp only at hlt hbytes
    obtain ⟨hok, -, -, hsame⟩ := h.follows.receivePart hs hp hlt rfl
    rw [hbytes]
    exact ⟨hok, hsame⟩
  | deliverUpdate update =>
    intro bytes hget
    obtain ⟨page, rfl, hlt, hopen⟩ := h.updates _ (mem_of_getElem? hget)
    obtain ⟨hok, -, -, -, hsame⟩ := h.follows.applyHashmapUpdate hs hlt hopen rfl
    refine ⟨hok, fun hmem => hsame ?_⟩
    -- The page that was delivered before has the same bytes, and so the same number.
    obtain ⟨page', heq, hknown⟩ := h.deliveredUpdates _ hmem
    have hread := Follows.parseHashmapUpdate_pageBytes hs hlt
    rw [heq, Follows.parseHashmapUpdate_pageBytes hs (hknown.trans_le h.follows.known_le)] at hread
    have hpage : page' = page := (Prod.ext_iff.1 (Option.some.inj hread)).1
    rwa [← hpage]
  | buildRequest capacity => trivial
  | buildRetryRequest capacity => trivial
  | answerParts request indexes_capacity => trivial
  | answerMap request capacity => trivial

/-- Every event keeps the invariant. -/
theorem step (hs : Prepared p bzip2 key sender) (hp : p.TokenSound)
    (event : Event) : Tracked sender (t.step p.toCrypto sender event) := by
  cases event with
  | buildRequest capacity => exact h.sent (h.follows.buildRequest rfl)
  | buildRetryRequest capacity => exact h.sent (h.follows.buildRetryRequest rfl)
  | answerParts request indexes_capacity =>
    rw [Transfer.step]
    split
    · exact h
    rename_i request hrequest
    split
    · exact h
    rename_i indexes hindexes
    have hknown := requestedParts_known hs h.follows
      (h.requests _ (mem_of_getElem? hrequest)) hindexes
    refine { h with parts := ?_ }
    intro part hmem
    rcases mem_append.1 hmem with hold | hnew
    · exact h.parts part hold
    · obtain ⟨i, hi, hpart⟩ := mem_filterMap.1 hnew
      have hlt := hknown i hi
      have hsend : sender.part i = .ok (partOf sender.wire i) :=
        if_neg (not_le.2 (hlt.trans_le h.follows.known_le))
      rw [hsend] at hpart
      cases hpart
      exact ⟨hlt, rfl⟩
  | answerMap request capacity =>
    rw [Transfer.step]
    split
    · exact h
    rename_i request hrequest
    refine { h with updates := ?_ }
    intro update hmem
    rcases mem_append.1 hmem with hold | hnew
    · exact h.updates update hold
    · have hupdate : sender.hashmapUpdate request capacity = .ok update := by
        cases hresult : sender.hashmapUpdate request capacity with
        | error status => simp [hresult, Except.toOption] at hnew
        | ok built =>
          have heq : update = built := by simpa [hresult, Except.toOption] using hnew
          rw [heq]
      exact hashmapUpdate_open hs (h.requests _ (mem_of_getElem? hrequest)) hupdate
  | deliverPart part =>
    rw [Transfer.step]
    split
    · exact h
    rename_i index bytes hget
    obtain ⟨hlt, hbytes⟩ := h.parts _ (mem_of_getElem? hget)
    dsimp only at hlt hbytes
    obtain ⟨-, hfollows, hlater, -⟩ := h.follows.receivePart hs hp hlt rfl
    rw [hbytes]
    exact h.later hlater hfollows
  | deliverUpdate update =>
    rw [Transfer.step]
    split
    · exact h
    rename_i bytes hget
    obtain ⟨page, rfl, hlt, hopen⟩ := h.updates _ (mem_of_getElem? hget)
    obtain ⟨-, hfollows, hlater, hknown, -⟩ := h.follows.applyHashmapUpdate hs hlt hopen rfl
    refine { h.later hlater hfollows with deliveredUpdates := ?_ }
    intro update hmem
    rcases mem_cons.1 hmem with rfl | hold
    · exact ⟨page, rfl, hknown⟩
    · exact (h.later hlater hfollows).deliveredUpdates update hold

end

/-- A transfer that begins with what the receiver accepts of the sender's advertisement. -/
theorem start (hs : Prepared p bzip2 key sender) {max_size : ℕ} {resource : Resource}
    (h : accept sender.announced max_size = .ok resource) :
    Tracked sender (Transfer.start resource) := by
  have hnone : ∀ {α : Type} {P : α → Prop}, ∀ a ∈ ([] : List α), P a :=
    fun a ha => absurd ha not_mem_nil
  suffices hfollows : Follows sender [] resource from ⟨hfollows, hnone, hnone, hnone, hnone⟩
  unfold accept at h
  split at h
  · cases h
  split at h
  · cases h
  dsimp only at h
  generalize (if (if max_size = 0 then maxSize else max_size) > maxSize then maxSize
    else if max_size = 0 then maxSize else max_size) = limit at h
  split at h
  · cases h
  rename_i hsize
  cases h
  have hmap : readMany 4 (sender.announced.hashmap.length / 4) sender.announced.hashmap =
      sender.firstPage := by
    show readMany 4 ((writeMany sender.firstPage).length / 4)
      (writeMany sender.firstPage) = _
    simpa using readMany_writeMany sender.firstPage []
  have hpos := hs.parts_pos
  have hentries : hashmapMaxEntries = 74 := rfl
  have hlength := hs.length_firstPage
  refine ⟨rfl, not_lt.1 hsize, ?_, ?_, ?_, ?_, hnone, rfl, nofun⟩
  · rw [hmap]
    exact take_prefix _ _
  · show 0 < (readMany 4 _ _).length
    rw [hmap]
    omega
  · show (readMany 4 _ _).length = _ ∨ _ ∣ (readMany 4 _ _).length ∧
      (readMany 4 _ _).length < _
    rw [hmap, hlength]
    rcases Nat.lt_or_ge hashmapMaxEntries sender.parts with hlt | hge
    · rw [min_eq_right hlt.le]
      exact .inr ⟨dvd_rfl, hlt⟩
    · exact .inl (min_eq_left hge)
  · show List.replicate sender.parts none = _
    unfold deliveredParts
    rw [map_eq_replicate_iff.2 fun i _ => if_neg not_mem_nil, length_range]

end Tracked

/-! ## Agreement -/

/-- A receiver that takes the advertisement of a sender agrees with it, whatever is lost, duplicated
and reordered. What is delivered is accepted, and changes nothing the second time; the parts are
complete exactly when each was delivered; and the receiver then assembles the sender's segment and
has a proof of it that the sender accepts. -/
theorem transfer_agreement {p : Primitives} {bzip2 : Option Bzip2} {key : Octets 64}
    {sender : ResourceSender} (hp : p.TokenSound) (hbzip2 : ∀ codec ∈ bzip2, codec.Sound)
    (hsender : Produced p bzip2 key sender) {capacity : ℕ} {bytes : List UInt8}
    (hbytes : sender.advertisement capacity = .ok bytes) :
    ∃ adv, advertisementParse bytes = .ok adv ∧
      ∀ max_size resource, accept adv max_size = .ok resource → ∀ events : List Event,
        let final := Run.final (step p.toCrypto sender) (start resource) events
        Run.Each (step p.toCrypto sender) (Accepted p.toCrypto) (start resource) events ∧
        (final.resource.partsComplete = true ↔ ∀ i < sender.parts, i ∈ final.delivered) ∧
        (final.resource.partsComplete = true → ∀ link capacity, link.derived_key = key →
          (link.state = .active ∨ link.state = .handshake) →
          sender.segment.length ≤ capacity →
          ∃ assembled proof,
            final.resource.assemble p bzip2 (some link) capacity =
              (.ok sender.segment, assembled) ∧
            assembled.buildProof = .ok proof ∧
            sender.validateProof p.toCrypto proof = .ok) := by
  have hs := hsender.prepared
  refine ⟨sender.announced, ?_, ?_⟩
  · unfold ResourceSender.advertisement at hbytes
    split_ifs at hbytes
    cases hbytes
    exact hs.advertisementParse hp
  intro max_size resource haccept events final
  have hstart := Tracked.start hs haccept
  have htracked : Tracked sender final :=
    Run.invariant (fun _ event h _ => h.step hs hp event) hstart (Run.each_true events)
  refine ⟨?_, htracked.follows.partsComplete_iff, ?_⟩
  · exact (Run.each_iff (fun _ event h => h.step hs hp event)
      (fun _ event h => iff_of_true trivial (h.accepted hs hp event)) events hstart).1
      (Run.each_true events)
  · intro hcomplete link capacity hkey hstate hroom
    have hall := htracked.follows.partsComplete_iff.1 hcomplete
    exact ⟨_, _, htracked.follows.assemble hs hp hbzip2 hall hkey hstate hroom, rfl,
      Follows.validateProof _ _⟩

open Link (plainPrimitives plainPrimitives_sound)

/-- An active link of the plain primitives. -/
def plainLink : Link :=
  { role := .initiator
    state := .active
    request_time := 0
    deadline := 0
    rtt := 0
    activated_at := 0
    mtu := 500
    mode := Link.modeAes256Cbc
    link_id := zero 16
    private_key := zero 32
    public_key := zero 32
    signing_private := zero 32
    signing_public := zero 32
    peer_public := zero 32
    peer_signing_public := zero 32
    derived_key := zero 64
    remote_identity := ⟨zero 32, zero 32, zero 16⟩ }

/-- A codec that puts a byte before the data. -/
def plainBzip2 : Bzip2 :=
  { compress := fun source _ => some (0 :: source)
    decompress := fun packed capacity =>
      if packed.length ≤ capacity + 1 then .data (packed.drop 1) else .outbuffFull }

/-- It decompresses what it compressed. -/
theorem plainBzip2_sound : plainBzip2.Sound where
  decompress_compress source bound packed capacity h hroom := by
    cases h
    exact if_pos (Nat.succ_le_succ hroom)

/-- The payload of a transfer in two parts. -/
def plainPayload : List UInt8 := List.replicate 450 7

/-- Its sender. -/
def plainSender : ResourceSender :=
  (ResourceSender.create plainPrimitives (some plainBzip2) plainLink plainPayload .default
    (fun _ => ⟨some (ofList 4 [3]), some (ofList 16 [1])⟩)).toOption.get
    (by decide +kernel)

/-- A transfer in which the first request is answered twice, and every part comes twice, the last
one first. -/
def plainEvents : List Event :=
  [.buildRequest 500, .answerParts 0 75, .answerParts 0 75, .deliverPart 1, .deliverPart 3,
    .buildRetryRequest 500, .deliverPart 0, .deliverPart 2]

/-- The value of a result that is one. -/
theorem eq_ok_of_toOption {ε α : Type} {result : Except ε α} {a : α}
    (h : result.toOption = some a) : result = .ok a := by
  cases result with
  | error e => cases h
  | ok b => rw [Option.some.inj h]

/-- The receiver has the payload after parts that came twice and out of order. -/
theorem transfer_agreement_out_of_order : ∃ adv resource assembled proof,
      advertisementParse plainSender.advertisementBytes = .ok adv ∧ accept adv 0 = .ok resource ∧
      (Run.final (step plainPrimitives.toCrypto plainSender) (start resource)
        plainEvents).resource.assemble plainPrimitives (some plainBzip2) (some plainLink) 450 =
          (.ok plainPayload, assembled) ∧ assembled.buildProof = .ok proof ∧
      plainSender.validateProof plainPrimitives.toCrypto proof = .ok := by
  have hsender : Produced plainPrimitives (some plainBzip2) (zero 64) plainSender :=
    .create rfl (eq_ok_of_toOption (Option.some_get _).symm)
  have hbytes : plainSender.advertisement 500 = .ok plainSender.advertisementBytes :=
    eq_ok_of_toOption (by decide +kernel)
  have hbzip2 : ∀ codec ∈ some plainBzip2, codec.Sound := by
    intro codec hcodec
    cases hcodec
    exact plainBzip2_sound
  obtain ⟨adv, hparse, hrun⟩ :=
    transfer_agreement plainPrimitives_sound.toTokenSound hbzip2 hsender hbytes
  have hadv : adv = plainSender.announced := by
    have hknown : (advertisementParse plainSender.advertisementBytes).toOption =
        some plainSender.announced := by decide +kernel
    rw [hparse] at hknown
    exact Option.some.inj hknown
  subst hadv
  have haccept : accept plainSender.announced 0 =
      .ok ((accept plainSender.announced 0).toOption.get (by decide +kernel)) :=
    eq_ok_of_toOption (Option.some_get _).symm
  obtain ⟨-, -, hassemble⟩ := hrun 0 _ haccept plainEvents
  obtain ⟨assembled, proof, hsegment, hproof, hvalid⟩ :=
    hassemble (by decide +kernel) plainLink 450 rfl (.inl rfl) (by decide +kernel)
  have hpayload : plainSender.segment = plainPayload := by decide +kernel
  rw [hpayload] at hsegment
  exact ⟨_, _, assembled, proof, hparse, haccept, hsegment, hproof, hvalid⟩

end Transfer

end Reticulum.Resource
