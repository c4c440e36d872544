import Reticulum.Nomad.Session

/-!
# The buffers of room names

A room name stands in a record of `RNS_RRC_DEFAULT_MAX_ROOM_BYTES` bytes, and the event of a room is
read into a buffer of that size. What bounds a name is the limit in the hub's welcome, which the hub
may raise to `RNS_RRC_MAX_ROOM_BYTES`. `rooms_bounded_iff` says for which runs all writes stay
inside.

All functions but two are quiet (`Quiet`): they write inside the buffers and track no new name. The
two are `normalized_room` for an event and `add_room`.
-/

namespace Reticulum.Rrc

open List

/-- What is written stays inside the buffer. -/
def Observation.Inside : Observation → Prop
  | .wrote buffer count => count ≤ buffer.size
  | .sent _ => True

instance : DecidablePred Observation.Inside := fun o =>
  match o with
  | .wrote buffer count => inferInstanceAs (Decidable (count ≤ buffer.size))
  | .sent _ => .isTrue trivial

namespace Session

/-- All writes were inside, and the names of the tracked rooms fit into their records. -/
def Bounded (s : Session) : Prop :=
  (∀ o ∈ s.log, o.Inside) ∧ ∀ room ∈ s.rooms, room.name.length ≤ Buffer.record.size

instance (s : Session) : Decidable s.Bounded := inferInstanceAs (Decidable (_ ∧ _))

/-- The session after a part of a call that writes inside the buffers and tracks no new name. -/
structure Quiet (s s' : Session) : Prop where
  kept : ∀ o ∈ s.log, o ∈ s'.log
  inside : ∀ o ∈ s'.log, o ∈ s.log ∨ o.Inside
  names : ∀ room ∈ s'.rooms, ∃ old ∈ s.rooms, old.name = room.name

variable {s s' s'' : Session}

/-- Nothing happened. -/
theorem Quiet.refl (s : Session) : s.Quiet s :=
  ⟨fun _ ho => ho, fun _ ho => .inl ho, fun room hroom => ⟨room, hroom, rfl⟩⟩

/-- One part of a call after another. -/
theorem Quiet.trans (h : s.Quiet s') (h' : s'.Quiet s'') : s.Quiet s'' where
  kept := fun o ho => h'.kept o (h.kept o ho)
  inside := fun o ho => (h'.inside o ho).elim (h.inside o) .inr
  names := fun room hroom => by
    obtain ⟨mid, hmid, hname⟩ := h'.names room hroom
    obtain ⟨old, hold, hname'⟩ := h.names mid hmid
    exact ⟨old, hold, hname'.trans hname⟩

/-- What was bounded stays bounded. -/
theorem Quiet.bounded (h : s.Quiet s') (hs : s.Bounded) : s'.Bounded := by
  refine ⟨fun o ho => (h.inside o ho).elim (hs.1 o) id, fun room hroom => ?_⟩
  obtain ⟨old, hold, hname⟩ := h.names room hroom
  rw [← hname]
  exact hs.2 old hold

/-- A session with the same log and the same rooms. -/
theorem Quiet.of_eq (hlog : s'.log = s.log) (hrooms : s'.rooms = s.rooms) : s.Quiet s' := by
  refine ⟨fun o ho => hlog ▸ ho, fun o ho => .inl (hlog ▸ ho), fun room hroom => ?_⟩
  exact ⟨room, hrooms ▸ hroom, rfl⟩

/-- A quiet part from a session with the same log and the same rooms. -/
theorem Quiet.of_same (h : s'.Quiet s'') (hlog : s'.log = s.log) (hrooms : s'.rooms = s.rooms) :
    s.Quiet s'' :=
  (Quiet.of_eq hlog hrooms).trans h

/-! ## The quiet functions -/

/-- A write inside its buffer. -/
theorem quiet_observe (s : Session) {o : Observation} (ho : o.Inside) : s.Quiet (s.observe o) where
  kept := fun _ hmem => mem_append_left _ hmem
  inside := fun o' hmem => (mem_append.mp hmem).imp_right fun hlast => by
    rwa [mem_singleton.mp hlast]
  names := fun room hroom => ⟨room, hroom, rfl⟩

/-- A room that is no longer tracked. -/
theorem quiet_removeRoom (s : Session) (index : ℕ) : s.Quiet (s.removeRoom index) where
  kept := fun _ ho => ho
  inside := fun _ ho => .inl ho
  names := fun room hroom => ⟨room, mem_of_mem_eraseIdx hroom, rfl⟩

/-- A change of a room that keeps its name. -/
theorem quiet_updateRoom (s : Session) (index : ℕ) {f : Room → Room}
    (hf : ∀ room, (f room).name = room.name) : s.Quiet (s.updateRoom index f) where
  kept := fun _ ho => ho
  inside := fun _ ho => .inl ho
  names := fun room hroom => by
    change room ∈ s.rooms.modify index f at hroom
    obtain ⟨i, hi, rfl⟩ := mem_iff_getElem.mp hroom
    have hi' : i < s.rooms.length := by rwa [length_modify] at hi
    refine ⟨s.rooms[i], getElem_mem hi', ?_⟩
    rw [getElem_modify]
    split
    · exact (hf _).symm
    · rfl

/-- A link that is cleaned up. -/
theorem quiet_cleanupLink (s : Session) : s.Quiet s.cleanupLink where
  kept := fun _ ho => ho
  inside := fun _ ho => .inl ho
  names := fun room hroom => by
    obtain ⟨old, hold, rfl⟩ := mem_map.mp hroom
    exact ⟨old, mem_of_mem_filter hold, rfl⟩

variable (tx : Transmission) (net : Network) {name : List UInt8}

section

variable (s : Session)

/-- An envelope is encoded inside the buffer, whatever comes of it. -/
theorem quiet_sendEnvelope (type : MessageType) (room body : List UInt8) (nick : Bool) :
    s.Quiet (s.sendEnvelope tx type room body nick).2 := by
  unfold sendEnvelope
  split
  · exact .refl s
  split
  · exact .refl s
  split
  · exact .refl s
  dsimp only
  split
  · exact .refl s
  split
  · exact quiet_observe s trivial
  · exact .refl s

/-- The envelope that joins a room. -/
theorem quiet_sendJoinRecord (index : ℕ) (key : List UInt8) :
    s.Quiet (s.sendJoinRecord tx index key).2 := by
  unfold sendJoinRecord
  split
  · exact .refl s
  · rename_i body _
    have hsent := quiet_sendEnvelope tx s .join (s.roomAt index).name body true
    split
    · rename_i heq
      rwa [heq] at hsent
    · rename_i heq
      rw [heq] at hsent
      exact hsent.trans (quiet_updateRoom _ index fun _ => rfl)

/-- The envelope that says hello. -/
theorem quiet_sendHello : s.Quiet (s.sendHello tx).2 := by
  have hsent := quiet_sendEnvelope tx s .hello [] helloBody true
  unfold sendHello
  split
  · rename_i heq
    rwa [heq] at hsent
  · rename_i heq
    rw [heq] at hsent
    exact hsent.trans (.of_eq rfl rfl)

/-- A connection starts from a clean link. -/
theorem quiet_connect (now_ms : ℕ) : s.Quiet (s.connect now_ms).2 := by
  unfold connect
  split
  · exact .refl s
  · exact (quiet_cleanupLink s).trans (.of_eq rfl rfl)

/-- A reconnection is planned, or the session stays disconnected. -/
theorem quiet_scheduleReconnect : s.Quiet s.scheduleReconnect := by
  unfold scheduleReconnect
  dsimp only
  split
  all_goals exact (quiet_cleanupLink s).trans (.of_eq rfl rfl)

/-- A failure cleans the link up. -/
theorem quiet_fail (status : Status) : s.Quiet (s.fail status) :=
  (quiet_cleanupLink (s.transition .failed status)).of_same rfl rfl

/-- The desired rooms are joined again. -/
theorem quiet_rejoin : s.Quiet (s.rejoin net) := by
  unfold rejoin
  generalize List.range s.rooms.length = indices
  induction indices generalizing s with
  | nil => exact .refl s
  | cons i indices ih =>
    rw [foldl_cons]
    refine .trans ?_ (ih _)
    split
    · exact quiet_sendJoinRecord _ s i _
    · exact .refl s

/-- A poll while the hub is looked for. -/
theorem quiet_pollDiscovering : s.Quiet (s.pollDiscovering net).2 := by
  unfold pollDiscovering
  split_ifs
  · exact .refl s
  · split
    · exact .of_eq rfl rfl
    · exact .of_eq rfl rfl
  · exact .of_eq rfl rfl
  · exact .refl s

/-- A poll while the link is made. -/
theorem quiet_pollLinking : s.Quiet (s.pollLinking net).2 := by
  unfold pollLinking
  split_ifs
  · exact .refl s
  · exact quiet_fail s _
  · have hsent := quiet_sendHello net.hello s
    split
    · rename_i heq
      rw [heq] at hsent
      exact hsent.trans (.of_eq rfl rfl)
    · rename_i heq
      rw [heq] at hsent
      exact hsent.trans (quiet_fail _ _)

/-- A poll while the hub has not answered. -/
theorem quiet_pollHello : s.Quiet (s.pollHello net).2 := by
  unfold pollHello
  dsimp only
  split_ifs
  · exact (quiet_rejoin net _).of_same rfl rfl
  · exact .of_eq rfl rfl
  · exact quiet_fail s _
  · have hsent := quiet_sendHello net.hello s
    split
    · rename_i heq
      rwa [heq] at hsent
    · rename_i heq
      rw [heq] at hsent
      exact hsent.trans (quiet_fail _ _)
  · exact .refl s

/-- Every poll is quiet. -/
theorem quiet_poll (now_ms : ℕ) : s.Quiet (s.poll net now_ms).2 := by
  unfold poll
  dsimp only
  have hread : s.Quiet { s with now_ms } := .of_eq rfl rfl
  refine hread.trans ?_
  split_ifs
  · exact quiet_scheduleReconnect _
  · exact quiet_connect _ now_ms
  · exact .refl _
  · have hdiscovering := quiet_pollDiscovering net { s with now_ms }
    split
    · rename_i s₂ heq
      rw [heq] at hdiscovering
      have hlinking := quiet_pollLinking net s₂
      split
      · rename_i s₃ heq'
        rw [heq'] at hlinking
        exact hdiscovering.trans (hlinking.trans (quiet_pollHello net s₃))
      · exact hdiscovering.trans hlinking
    · exact hdiscovering

/-- A name of the application fits into the buffer of its call. -/
theorem quiet_normalizedRoom_call (input : List UInt8) :
    s.Quiet (s.normalizedRoom .call input).2 := by
  unfold normalizedRoom
  dsimp only
  split_ifs with hinput hlength htext
  · exact .refl s
  · exact .refl s
  all_goals exact quiet_observe s (not_lt.mp (not_or.mp (not_or.mp hlength).2).2)

/-- Parting from a room forgets it. -/
theorem quiet_part (room : List UInt8) : s.Quiet (s.part tx room).2 := by
  unfold part
  split_ifs
  · exact .refl s
  · have hname := quiet_normalizedRoom_call s room
    split
    · rename_i heq
      rwa [heq] at hname
    · rename_i name s₁ heq
      rw [heq] at hname
      dsimp only
      have hsent := quiet_sendEnvelope tx s₁ .part name [] false
      split
      · rename_i heq'
        rw [heq'] at hsent
        exact hname.trans hsent
      · rename_i heq'
        rw [heq'] at hsent
        split
        · exact hname.trans hsent
        · exact hname.trans (hsent.trans (quiet_updateRoom _ _ fun _ => rfl))

/-- A message to a room. -/
theorem quiet_sendMessage (room message : List UInt8) (memory : Bool) :
    s.Quiet (s.sendMessage tx room message memory).2 := by
  unfold sendMessage
  split_ifs
  · exact .refl s
  · exact .refl s
  · exact .refl s
  · have hname := quiet_normalizedRoom_call s room
    split
    · rename_i heq
      rwa [heq] at hname
    · rename_i name s₁ heq
      rw [heq] at hname
      split
      · exact hname
      · exact hname.trans (quiet_sendEnvelope tx s₁ .message name _ true)
  · exact .refl s

/-- A ping with its nonce. -/
theorem quiet_ping (nonce : Option (Octets 8)) : s.Quiet (s.ping tx nonce).2 := by
  unfold ping
  split_ifs
  · exact .refl s
  · split
    · exact .refl s
    · exact quiet_sendEnvelope tx s .ping [] _ false

/-- A change of the link, whichever. -/
theorem quiet_linkStateChanged (link : ℕ) (state : LinkState) (reason : Status) :
    s.Quiet (s.linkStateChanged link state reason) := by
  unfold linkStateChanged
  by_cases hlink : some link ≠ s.link
  · rw [if_pos hlink]
    exact .refl s
  · rw [if_neg hlink]
    cases state <;> exact .of_eq rfl rfl

/-! ## Names that are written -/

/-- There is no record of the name, and there is room for one. -/
def Adds (s : Session) (name : List UInt8) : Prop :=
  s.findRoom name = none ∧ s.rooms.length < maxTrackedRooms ∧
    s.rooms.length < s.info.welcome.max_rooms

/-- What `add_room` writes: nothing, or the name into a new record. -/
theorem addRoom_cases (name : List UInt8) : (¬ s.Adds name ∧ (s.addRoom name).2 = s) ∨
      (s.Adds name ∧ (s.addRoom name).2 =
        { s with rooms := s.rooms ++ [newRoom name] }.observe (.wrote .record name.length)) := by
  unfold addRoom Adds
  cases s.findRoom name with
  | some index =>
    refine .inl ⟨?_, rfl⟩
    rintro ⟨hnone, -⟩
    cases hnone
  | none =>
    split_ifs with hfull
    · exact .inl ⟨by omega, rfl⟩
    · exact .inr ⟨⟨rfl, by omega, by omega⟩, rfl⟩

end

/-- A short name may be tracked. -/
theorem bounded_addRoom (hs : s.Bounded) (hname : name.length ≤ defaultMaxRoomBytes) :
    (s.addRoom name).2.Bounded := by
  rcases addRoom_cases s name with ⟨-, heq⟩ | ⟨-, heq⟩
  · rwa [heq]
  · rw [heq]
    refine ⟨fun o ho => ?_, fun room hroom => ?_⟩
    · rcases mem_append.mp ho with hold | hnew
      · exact hs.1 o hold
      · rw [mem_singleton.mp hnew]
        exact hname
    · rcases mem_append.mp hroom with hold | hnew
      · exact hs.2 room hold
      · rw [mem_singleton.mp hnew]
        exact hname

/-- The log only grows where a room is added. -/
theorem mem_log_addRoom {o : Observation} (ho : o ∈ s.log) : o ∈ (s.addRoom name).2.log := by
  rcases addRoom_cases s name with ⟨-, heq⟩ | ⟨-, heq⟩
  · rwa [heq]
  · rw [heq]
    exact mem_append_left _ ho

/-- Members come without a change of the name. -/
theorem name_foldl_addMember (members : List (Octets 16)) (room : Room) :
    (members.foldl Room.addMember room).name = room.name := by
  induction members generalizing room with
  | nil => rfl
  | cons member members ih =>
    rw [foldl_cons, ih]
    unfold Room.addMember
    split <;> rfl

/-- Members go without a change of the name. -/
theorem name_foldl_removeMember (members : List (Octets 16)) (room : Room) :
    (members.foldl Room.removeMember room).name = room.name := by
  induction members generalizing room with
  | nil => rfl
  | cons member members ih => rw [foldl_cons, ih, Room.removeMember]

/-- The event of a room is quiet, but that it may add the room. -/
theorem quiet_roomEvent (s : Session) (envelope : Envelope) (name : List UInt8) :
    s.Quiet (s.roomEvent envelope name) ∨ (s.addRoom name).2.Quiet (s.roomEvent envelope name) := by
  unfold roomEvent
  split
  · refine .inl ?_
    split
    · exact .refl s
    · split
      · exact quiet_removeRoom s _
      · exact quiet_updateRoom s _ fun _ => rfl
  split
  · exact .inl (.refl s)
  rename_i members _
  split
  · refine .inr ?_
    generalize s.addRoom name = added
    obtain ⟨_ | index, s₁⟩ := added
    · exact .refl s₁
    · refine quiet_updateRoom s₁ index fun room => ?_
      have hadded := name_foldl_addMember (members ++ [s₁.options.local_hash])
        { room with desired := true, joined := true, join_pending := false }
      rwa [foldl_append] at hadded
  split
  · refine .inl ?_
    split
    · exact .refl s
    · split
      · exact quiet_removeRoom s _
      · exact quiet_updateRoom s _ (name_foldl_removeMember members)
  · exact .inl (.refl s)

/-- A name that `normalized_room` writes: it is not empty, and within the limits. -/
def Written (s : Session) (input : List UInt8) : Prop :=
  (trimmed input).length ≠ 0 ∧ (trimmed input).length ≤ s.info.welcome.max_room_bytes ∧
    (trimmed input).length ≤ maxRoomBytes

/-- What `normalized_room` writes: nothing, or the name into the buffer. -/
theorem normalizedRoom_cases (buffer : Buffer) (s : Session) (input : List UInt8) :
    (¬ s.Written input ∧ ∃ status, s.normalizedRoom buffer input = (.error status, s)) ∨
      (s.Written input ∧ ∃ result, s.normalizedRoom buffer input =
          (result, s.observe (.wrote buffer (trimmed input).length)) ∧
        ∀ name, result = .ok name → name.length = (trimmed input).length) := by
  unfold normalizedRoom Written
  dsimp only
  split_ifs with hinput hlength htext
  · refine .inl ⟨fun hwritten => hwritten.1 ?_, _, rfl⟩
    rw [length_eq_zero_iff.mp hinput]
    rfl
  · exact .inl ⟨by omega, _, rfl⟩
  · refine .inr ⟨by omega, _, rfl, fun name hname => ?_⟩
    cases hname
    exact length_map _
  · exact .inr ⟨by omega, _, rfl, nofun⟩

/-! ## The calls that write -/

/-- The event of a room stays inside when its name is short, or is not written at all. -/
theorem bounded_applyRoomEvent_iff (hs : s.Bounded) (envelope : Envelope) :
    (s.applyRoomEvent envelope).Bounded ↔
      (s.Written envelope.room → (trimmed envelope.room).length ≤ defaultMaxRoomBytes) := by
  unfold applyRoomEvent
  rcases normalizedRoom_cases .event s envelope.room with
    ⟨hnot, status, heq⟩ | ⟨hwritten, result, heq, hresult⟩
  · rw [heq]
    exact iff_of_true hs fun hwritten => absurd hwritten hnot
  · rw [heq]
    set s₁ := s.observe (.wrote .event (trimmed envelope.room).length) with hs₁
    have hlast : .wrote .event (trimmed envelope.room).length ∈ s₁.log := mem_concat_self
    constructor
    · intro hbounded _
      cases result with
      | error status => exact hbounded.1 _ hlast
      | ok name => exact hbounded.1 _ ((quiet_roomEvent s₁ envelope name).elim (·.kept _ hlast)
        (·.kept _ (mem_log_addRoom hlast)))
    · intro hfits
      have hshort := hfits hwritten
      have hbounded : s₁.Bounded :=
        (quiet_observe s (show Observation.Inside (.wrote .event _) from hshort)).bounded hs
      cases result with
      | error status => exact hbounded
      | ok name =>
        have hadded := bounded_addRoom hbounded ((hresult name rfl).trans_le hshort)
        exact (quiet_roomEvent s₁ envelope name).elim (·.bounded hbounded) (·.bounded hadded)

/-- What a call of `rns_rrc_session_join` writes into a new record. -/
def Records (s : Session) (room key name : List UInt8) : Prop :=
  key.length ≤ maxRoomKeyBytes ∧ s.info.state = .connected ∧
    (s.normalizedRoom .call room).1 = .ok name ∧ s.Adds name

/-- A join of a room that is tracked. -/
theorem quiet_joinRecord (s : Session) (index : ℕ) (key : List UInt8) :
    s.Quiet (s.joinRecord tx index key).2 := by
  have hsent := quiet_sendJoinRecord tx s index key
  unfold joinRecord
  split
  · rename_i heq
    rw [heq] at hsent
    exact hsent.trans (quiet_updateRoom _ index fun _ => rfl)
  · rename_i heq
    rw [heq] at hsent
    split
    · exact hsent.trans (quiet_removeRoom _ index)
    · exact hsent

/-- A join stays inside when the name of a new record is short. -/
theorem bounded_join_iff (hs : s.Bounded) (tx : Transmission) (room key : List UInt8) :
    (s.join tx room key).2.Bounded ↔
      ∀ name, s.Records room key name → name.length ≤ defaultMaxRoomBytes := by
  unfold join Records
  by_cases hkey : maxRoomKeyBytes < key.length
  · rw [if_pos hkey]
    exact iff_of_true hs fun name hrecords => absurd hkey (not_lt.mpr hrecords.1)
  split_ifs with hstate
  · exact iff_of_true hs fun name hrecords => absurd hrecords.2.1 hstate
  have hname := quiet_normalizedRoom_call s room
  rcases normalizedRoom_cases .call s room with ⟨-, status, heq⟩ | ⟨-, result, heq, -⟩
  · rw [heq]
    exact iff_of_true hs fun name hrecords => by cases hrecords.2.2.1
  rw [heq] at hname ⊢
  have hbounded := hname.bounded hs
  cases result with
  | error status => exact iff_of_true hbounded fun name hrecords => by cases hrecords.2.2.1
  | ok name =>
    set s₁ := s.observe (.wrote .call (trimmed room).length) with hs₁
    -- Whatever follows the record of the room writes no other name.
    have hadded : ∀ s₂, (s₁.addRoom name).2.Quiet s₂ → (s₂.Bounded ↔ ∀ name',
        key.length ≤ maxRoomKeyBytes ∧ s.info.state = .connected ∧
          (.ok name : Except Status (List UInt8)) = .ok name' ∧ s.Adds name' →
        name'.length ≤ defaultMaxRoomBytes) := by
      intro s₂ hquiet
      constructor
      · rintro hafter name' ⟨-, -, hname', hadds⟩
        obtain rfl : name = name' := Except.ok.inj hname'
        rcases addRoom_cases s₁ name with ⟨hnot, -⟩ | ⟨-, hadded⟩
        · exact absurd hadds hnot
        · exact hafter.1 (.wrote .record name.length) (hquiet.kept _ (hadded ▸ mem_concat_self))
      · intro hfits
        refine hquiet.bounded ?_
        rcases addRoom_cases s₁ name with ⟨-, hsame⟩ | ⟨hadds, -⟩
        · rwa [hsame]
        · exact bounded_addRoom hbounded
            (hfits name ⟨not_lt.mp hkey, not_not.mp hstate, rfl, hadds⟩)
    dsimp only
    rcases hroom : s₁.addRoom name with ⟨_ | index, s₂⟩ <;> rw [hroom] at hadded
    · exact hadded s₂ (.refl s₂)
    · exact hadded _ (quiet_joinRecord tx s₂ index key)

/-- When a call stays inside the buffers. -/
def Fits (s : Session) : Call → Prop
  | .packet link context plaintext _ =>
    some link = s.link → context = 0 → ∀ envelope, envelopeParse plaintext = .ok envelope →
      envelope.type = .joined ∨ envelope.type = .parted ∨ envelope.type = .error →
      s.Written envelope.room → (trimmed envelope.room).length ≤ defaultMaxRoomBytes
  | .join room key _ => ∀ name, s.Records room key name → name.length ≤ defaultMaxRoomBytes
  | _ => True

/-- An envelope stays inside when it is no event of a room, or one that does. -/
theorem bounded_receiveEnvelope_iff (hs : s.Bounded) (tx : Transmission) (envelope : Envelope) :
    (s.receiveEnvelope tx envelope).Bounded ↔
      (envelope.type = .joined ∨ envelope.type = .parted ∨ envelope.type = .error →
        s.Written envelope.room → (trimmed envelope.room).length ≤ defaultMaxRoomBytes) := by
  have hevent := bounded_applyRoomEvent_iff hs envelope
  unfold receiveEnvelope
  cases htype : envelope.type with
  | joined => simpa [htype] using hevent
  | parted => simpa [htype] using hevent
  | error => simpa [htype] using hevent
  | welcome => exact iff_of_true ((Quiet.of_eq rfl rfl).bounded hs) (by simp)
  | notice =>
    refine iff_of_true ?_ (by simp)
    dsimp only
    split
    · split
      · split
        · exact (Quiet.of_eq rfl rfl).bounded hs
        · exact hs
      · exact hs
    · exact hs
  | ping =>
    refine iff_of_true ?_ (by simp)
    dsimp only
    split
    · exact (quiet_sendEnvelope tx s .pong [] _ false).bounded hs
    · exact hs
  | _ => exact iff_of_true hs (by simp)

/-- A packet that comes in keeps to the buffers exactly when it fits. -/
theorem bounded_packetReceived_iff (hs : s.Bounded) (tx : Transmission) (link : ℕ) (context : UInt8)
    (plaintext : List UInt8) : (s.packetReceived tx link context plaintext).Bounded ↔
      s.Fits (.packet link context plaintext tx) := by
  unfold packetReceived Fits
  split_ifs with hignored
  · refine iff_of_true hs fun hlink hcontext => ?_
    exact absurd hignored (not_or.mpr ⟨not_not.mpr hlink, not_not.mpr hcontext⟩)
  obtain ⟨hlink, hcontext⟩ := not_or.mp hignored
  cases hparse : envelopeParse plaintext with
  | error status =>
    exact iff_of_true hs fun _ _ envelope henvelope => by cases hparse.symm.trans henvelope
  | ok envelope =>
    refine (bounded_receiveEnvelope_iff hs tx envelope).trans ⟨fun hfits _ _ envelope' heq => ?_, ?_⟩
    · obtain rfl := Except.ok.inj (hparse.symm.trans heq)
      exact hfits
    · exact fun hfits => hfits (not_not.mp hlink) (not_not.mp hcontext) envelope hparse

/-- A call keeps the bounds when it fits. -/
theorem bounded_step_iff (hs : s.Bounded) (call : Call) : (s.step call).Bounded ↔ s.Fits call := by
  cases call with
  | connect now_ms => exact iff_of_true ((quiet_connect s now_ms).bounded hs) trivial
  | poll now_ms net => exact iff_of_true ((quiet_poll net s now_ms).bounded hs) trivial
  | disconnect =>
    refine iff_of_true (Quiet.bounded ?_ hs) trivial
    exact ((quiet_cleanupLink _).of_same rfl rfl).trans (.of_eq rfl rfl)
  | join room key tx => exact bounded_join_iff hs tx room key
  | part room tx => exact iff_of_true ((quiet_part tx s room).bounded hs) trivial
  | sendMessage room message memory tx =>
    exact iff_of_true ((quiet_sendMessage tx s room message memory).bounded hs) trivial
  | ping nonce tx => exact iff_of_true ((quiet_ping tx s nonce).bounded hs) trivial
  | linkState link state reason =>
    exact iff_of_true ((quiet_linkStateChanged s link state reason).bounded hs) trivial
  | packet link context plaintext tx => exact bounded_packetReceived_iff hs tx link context plaintext

/-- The runs in which every write into a buffer of a room name stays inside the buffer, and every
tracked name fits into its record: those in which no event of a room and no new record has a longer
name, whatever the limit of the hub. -/
theorem rooms_bounded_iff (options : SessionOptions) (calls : List Call) :
    (∀ past, past <+: calls → (Run.final step (create options) past).Bounded) ↔
      Run.Each step Fits (create options) calls := by
  have hcreate : (create options).Bounded :=
    ⟨fun o ho => absurd ho not_mem_nil, fun room hroom => absurd hroom not_mem_nil⟩
  have hstep : ∀ (s : Session) (call : Call), True → s.Bounded →
      ((s.step call).Bounded ↔ s.Fits call) := fun s call _ hs => bounded_step_iff hs call
  exact Run.forall_prefix_iff (fun _ _ _ => trivial) hstep calls trivial hcreate

/-- Options of a session that greets with no name. -/
def plainOptions : SessionOptions where
  local_hash := Octets.ofList 16 []
  nick := []
  auto_reconnect := false
  path_timeout_ms := 0
  hello_interval_ms := 0
  hello_max_attempts := 0

/-- A link that takes every envelope. -/
def plainTransmission : Transmission where
  link_active := true
  wallclock := .ok 0
  random := some (Octets.ofList 8 [])
  link_send := .ok

/-- A runtime that knows the path and opens the link. -/
def plainNetwork : Network where
  path_known := true
  link_open := .ok 0
  identify := .ok
  hello := plainTransmission
  rejoin := fun _ => plainTransmission

/-- The packet of an envelope from the hub. -/
def fromHub (type : MessageType) (room body : List UInt8) : Call :=
  .packet 0 0
    (Envelope.wire { Envelope.zero with version := 1, type, room, body_cbor := body })
    plainTransmission

/-- The hub raises the limit of room names to 255 bytes, and then announces a room of 65 bytes. -/
def raisedLimit : List Call :=
  [.connect 0, .poll 0 plainNetwork, fromHub .welcome [] [0xa1, 0x03, 0xa1, 0x01, 0x18, 0xff],
    fromHub .joined (List.replicate 65 0x61) []]

/-- The name of the room is written behind the end of the buffer and of the record. -/
theorem raised_limit_overruns :
    ¬ ∀ past, past <+: raisedLimit → (Run.final step (create plainOptions) past).Bounded := by
  intro hall
  have hbounded := hall raisedLimit prefix_rfl
  revert hbounded
  decide +kernel

end Session

end Reticulum.Rrc
