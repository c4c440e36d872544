import Reticulum.Base.Run
import Reticulum.Lxmf.Tickets

/-!
# How many tickets a store holds

The ticket store of `src/lxmf/tickets.c` over runs of calls. Outbound tickets, inbound tickets and
the times of the last deliveries share one table of `LXMF_TICKET_STORE_MAX_ENTRIES`, and
`lxmf_ticket_store_cleanup` removes outbound tickets that expired and inbound tickets whose grace
period is over. It never removes the time of a delivery, and the expiry of an outbound ticket is the
peer's choice: `capacity_iff` says when the table has room again.
-/

namespace Reticulum.Lxmf

open List Run Octets

/-- A call of the ticket store that can change it. What `save` returns is `LXMF_OK` where `saved` is
true and `LXMF_ERR_CRYPTO` where it is not. -/
inductive TicketCall
  | issue (peer : Octets 16) (now : ℕ) (random : Option (Octets 16)) (saved : Bool)
  | rememberOutbound (peer : Octets 16) (ticket : TicketEntry) (now : ℕ) (saved : Bool)
  | markDelivered (peer : Octets 16) (now : ℕ) (saved : Bool)
  | cleanup (now : ℕ) (saved : Bool)

/-- The time of a call. -/
def TicketCall.now : TicketCall → ℕ
  | .issue _ now _ _ | .rememberOutbound _ _ now _ | .markDelivered _ now _ | .cleanup now _ => now

/-- What `save` returns. -/
def saveStatus (saved : Bool) : Status := if saved then .ok else .crypto

theorem saveStatus_ne_bounds (saved : Bool) : saveStatus saved ≠ .bounds := by
  cases saved <;> decide

namespace TicketStore

/-- A store that was opened on no file. -/
def empty : TicketStore := { entries := [] }

/-- The store after a call. -/
def step (store : TicketStore) : TicketCall → TicketStore
  | .issue peer now random saved => (store.issue peer now random (saveStatus saved)).2
  | .rememberOutbound peer ticket now saved =>
    (store.rememberOutbound peer ticket now (saveStatus saved)).2
  | .markDelivered peer now saved => (store.markDelivered peer now (saveStatus saved)).2
  | .cleanup now saved => (store.cleanup now (saveStatus saved)).2

/-! ## What a call adds -/

/-- The entry that a call adds or writes over an older one of the same kind and peer. -/
def Adds (entry : StoredTicket) : TicketCall → Prop
  | .issue peer now random _ =>
    ∃ ticket, random = some ticket ∧
      entry = { kind := .inbound, peer, time := now + expirySeconds, ticket }
  | .rememberOutbound peer ticket now _ =>
    now < ticket.expires_at ∧
      entry = { kind := .outbound, peer, time := ticket.expires_at, ticket := ticket.ticket }
  | .markDelivered peer now _ =>
    entry = { kind := .lastDelivery, peer, time := now, ticket := zero 16 }
  | .cleanup _ _ => False

/-- What a call does: nothing; a new inbound ticket behind the others; an outbound ticket or the
time of a delivery in the place of the older one; or the expired entries removed. -/
inductive Stepped (store : TicketStore) (call : TicketCall) : TicketStore → Prop
  | same : Stepped store call store
  | issued {entry : StoredTicket} (hadds : Adds entry call) (hkind : entry.kind = .inbound)
      (hroom : store.entries.length ≠ maxEntries) :
      Stepped store call { entries := store.entries ++ [entry] }
  | written {entry : StoredTicket} {changed : TicketStore} (hadds : Adds entry call)
      (hkind : entry.kind ≠ .inbound) (hset : store.setOne entry = some changed) :
      Stepped store call changed
  | cleaned (now : ℕ) (saved : Bool) (hcall : call = .cleanup now saved) :
      Stepped store call { entries := store.entries.filter fun entry => !expired now entry }

variable {store : TicketStore} {n : ℕ}

/-- A change that is saved or taken back. -/
theorem Stepped.commit {changed : TicketStore} {call : TicketCall} (h : Stepped store call changed)
    (saved : Status) : Stepped store call (store.commit changed saved).2 := by
  unfold TicketStore.commit
  split
  · exact h
  · exact .same

/-- What a call can do. -/
theorem stepped (store : TicketStore) (call : TicketCall) :
    Stepped store call (store.step call) := by
  cases call with
  | issue peer now random saved =>
    rw [step]
    rcases store.issue_cases peer now (saveStatus saved) random with
      ⟨hsame, -⟩ | ⟨ticket, hticket, hroom, -, hissue⟩
    · rw [hsame]
      exact .same
    · rw [hissue]
      exact .issued ⟨ticket, hticket, rfl⟩ rfl hroom
  | rememberOutbound peer ticket now saved =>
    rw [step]
    rcases store.rememberOutbound_cases peer now (saveStatus saved) ticket with
      ⟨-, hsame⟩ | ⟨hfresh, -, hset⟩
    · rw [hsame]
      exact .same
    · exact .written ⟨hfresh, rfl⟩ nofun hset
  | markDelivered peer now saved =>
    unfold step markDelivered
    dsimp only
    split
    · exact .same
    rename_i changed hset
    refine .commit (.written ?_ ?_ hset) _
    · exact rfl
    · exact nofun
  | cleanup now saved =>
    unfold step cleanup
    dsimp only
    split
    · exact (Stepped.cleaned now saved rfl).commit _
    · exact .same

/-- Setting an entry writes over one of the same kind and peer, or puts it behind the others. -/
theorem setOne_cases {changed : TicketStore} {entry : StoredTicket}
    (h : store.setOne entry = some changed) :
    (∃ before old after, store.entries = before ++ old :: after ∧
        samePeer entry.kind entry.peer old = true ∧
        (∀ e ∈ before, samePeer entry.kind entry.peer e = false) ∧
        changed.entries = before ++ entry :: after) ∨
      ((∀ e ∈ store.entries, samePeer entry.kind entry.peer e = false) ∧
        store.entries.length ≠ maxEntries ∧ changed.entries = store.entries ++ [entry]) := by
  unfold setOne at h
  split at h
  · rename_i i hfind
    cases h
    left
    obtain ⟨hi, hsame, hbefore⟩ := findIdx?_eq_some_iff_getElem.mp hfind
    refine ⟨store.entries.take i, store.entries[i], store.entries.drop (i + 1), ?_, hsame, ?_, ?_⟩
    · rw [getElem_cons_drop, take_append_drop]
    · intro e he
      obtain ⟨j, hj, rfl⟩ := mem_take_iff_getElem.mp he
      simpa using hbefore j (by omega)
    · exact set_eq_take_append_cons_drop.trans (if_pos hi)
  · rename_i hfind
    split at h
    · cases h
    · rename_i hroom
      cases h
      right
      refine ⟨fun e he => ?_, hroom, rfl⟩
      simpa using findIdx?_eq_none_iff.mp hfind e he

/-- The table holds no more than its size. -/
def Sized (store : TicketStore) : Prop := store.entries.length ≤ maxEntries

theorem Sized.step (h : store.Sized) (call : TicketCall) : (store.step call).Sized := by
  unfold Sized at h ⊢
  have hstep := stepped store call
  generalize store.step call = next at hstep ⊢
  rcases hstep with _ | ⟨-, -, hroom⟩ | ⟨-, -, hset⟩ | _
  · exact h
  · rw [length_append, length_singleton]
    omega
  · obtain ⟨before, old, after, hentries, -, -, hchanged⟩ | ⟨-, hroom, hchanged⟩ :=
      setOne_cases hset
    · rw [hentries] at h
      rw [hchanged]
      simpa using h
    · rw [hchanged, length_append, length_singleton]
      omega
  · exact (length_filter_le _ _).trans h

/-! ## Room in the table -/

/-- A peer with a number. -/
def numberedPeer (n : ℕ) : Octets 16 := ⟨Bytes.beEncode 16 n, by simp⟩

theorem numberedPeer_injective {m : ℕ} (hm : m < 256 ^ 16) (hn : n < 256 ^ 16)
    (h : numberedPeer m = numberedPeer n) : m = n := by
  have hbytes : Bytes.beEncode 16 m = Bytes.beEncode 16 n := congrArg bytes h
  rw [← Bytes.beDecode_beEncode hm, hbytes, Bytes.beDecode_beEncode hn]

/-- Peers with the numbers below `n` are different. -/
theorem nodup_numberedPeer (hn : n ≤ 256 ^ 16) : ((List.range n).map numberedPeer).Nodup := by
  refine .map_on (fun x hx y hy hxy => ?_) nodup_range
  rw [mem_range] at hx hy
  exact numberedPeer_injective (by omega) (by omega) hxy

/-- There is a peer of which a table holds nothing. -/
theorem exists_new_peer (h : store.Sized) : ∃ peer, ∀ e ∈ store.entries, e.peer ≠ peer := by
  by_contra hall
  push Not at hall
  have hsub : (List.range 1025).map numberedPeer ⊆ store.entries.map StoredTicket.peer := by
    intro peer _
    obtain ⟨e, he, rfl⟩ := hall peer
    exact mem_map_of_mem he
  have hle := (nodup_numberedPeer (by norm_num)).length_le_of_subset hsub
  simp only [Sized, length_map, length_range, maxEntries] at hle h
  omega

/-- An entry that `lxmf_ticket_store_cleanup` keeps at a time, of those that are not inbound. -/
def survives (now : ℕ) (entry : StoredTicket) : Bool :=
  match entry.kind with
  | .outbound => now < entry.time
  | .inbound => false
  | .lastDelivery => true

/-- The grace period of every inbound ticket is over. -/
def Outlived (now : ℕ) (store : TicketStore) : Prop :=
  ∀ e ∈ store.entries, e.kind = .inbound → e.time + graceSeconds < now

/-- Calls that are early enough add no inbound ticket that would be kept. -/
theorem Outlived.step {now : ℕ} (h : Outlived now store) {call : TicketCall}
    (hcall : call.now + expirySeconds + graceSeconds < now) : Outlived now (store.step call) := by
  have hstep := stepped store call
  generalize store.step call = next at hstep ⊢
  rcases hstep with _ | ⟨hadds, -, -⟩ | ⟨-, hkind, hset⟩ | _
  · exact h
  · intro e he hinbound
    rcases mem_append.mp he with he | he
    · exact h e he hinbound
    · rw [mem_singleton.mp he] at hinbound ⊢
      cases call with
      | issue peer time random saved =>
        obtain ⟨ticket, -, rfl⟩ := hadds
        exact hcall
      | rememberOutbound peer ticket time saved =>
        obtain ⟨-, rfl⟩ := hadds
        cases hinbound
      | markDelivered peer time saved =>
        obtain rfl := hadds
        cases hinbound
      | cleanup time saved => exact hadds.elim
  · intro e he hinbound
    rcases mem_setOne hset he with he | rfl
    · exact h e he hinbound
    · exact absurd hinbound hkind
  · exact fun e he hinbound => h e (mem_of_mem_filter he) hinbound

/-- What a cleanup leaves when the grace period of every inbound ticket is over. -/
theorem entries_of_cleanup {now : ℕ} {store' : TicketStore} {saved : Status}
    (h : Outlived now store) (hcleanup : store.cleanup now saved = (.ok, store')) :
    store'.entries = store.entries.filter (survives now) := by
  have hkeeps : ∀ e ∈ store.entries, (!expired now e) = survives now e := by
    intro e he
    unfold expired survives
    cases hkind : e.kind with
    | outbound => simp [← decide_not]
    | inbound =>
      have htime := h e he hkind
      simp only [Bool.not_eq_false', decide_eq_true_eq]
      omega
    | lastDelivery => rfl
  have hfilter : store'.entries = store.entries.filter fun entry => !expired now entry := by
    unfold cleanup commit at hcleanup
    split at hcleanup
    · split_ifs at hcleanup with hsaved
      · rw [← (Prod.mk.inj hcleanup).2]
      · exact absurd (Prod.mk.inj hcleanup).1 hsaved
    · rename_i hnone
      rw [← (Prod.mk.inj hcleanup).2, filter_eq_self.mpr]
      intro e he
      simpa using fun hexpired => hnone (any_eq_true.mpr ⟨e, he, hexpired⟩)
  rw [hfilter]
  exact filter_congr hkeeps

/-- A call that asks for a new entry is refused for room exactly when the table is full, or the time
is so late that an expiry does not fit. -/
theorem no_bounds_iff (h : store.Sized) (later : ℕ) : (∀ peer ticket random saved,
      (store.issue peer later random (saveStatus saved)).1.1 ≠ .bounds ∧
        (store.rememberOutbound peer ticket later (saveStatus saved)).1 ≠ .bounds) ↔
      store.entries.length < maxEntries ∧ ¬ 2 ^ 64 - 1 - later < expirySeconds := by
  constructor
  · intro hall
    -- A peer without entries gets a new one, so it meets both tests.
    obtain ⟨peer, hpeer⟩ := exists_new_peer h
    have hissue := (hall peer ⟨0, .zero 16⟩ none true).1
    have hlast : store.recentlyDelivered peer later = false := by
      unfold recentlyDelivered findOne
      rw [find?_eq_none.mpr fun e he => by simp [samePeer, hpeer e he]]
    have hfound : (store.entries.find? fun entry => samePeer .inbound peer entry ∧
        later < entry.time ∧ renewSeconds < entry.time - later) = none :=
      find?_eq_none.mpr fun e he => by simp [samePeer, hpeer e he]
    unfold issue at hissue
    rw [hlast, hfound] at hissue
    by_contra hroom
    unfold Sized at h
    simp only [Bool.false_eq_true, if_false] at hissue
    rw [if_pos (by omega)] at hissue
    exact hissue rfl
  · rintro ⟨hroom, htime⟩ peer ticket random saved
    refine ⟨?_, ?_⟩
    · unfold issue
      split
      · exact nofun
      split
      · exact nofun
      rw [if_neg (by omega)]
      cases random with
      | none => exact nofun
      | some bytes =>
        dsimp only
        split
        · exact nofun
        · exact saveStatus_ne_bounds saved
    · unfold rememberOutbound
      split
      · exact nofun
      split
      · rename_i hnone
        unfold setOne at hnone
        split at hnone
        · cases hnone
        · rw [if_neg (by omega)] at hnone
          cases hnone
      · unfold commit
        split
        · exact nofun
        · exact saveStatus_ne_bounds saved

/-- After every run of calls and a cleanup that is later than the expiry and the grace period, calls
are never refused for room exactly when the peers that were ever marked as delivered and the
outbound tickets that did not expire are fewer than the table holds, unless the time is so late that
an expiry does not fit. -/
theorem capacity_iff (calls : List TicketCall) {now : ℕ}
    (hcalls : ∀ call ∈ calls, call.now + expirySeconds + graceSeconds < now) {saved : Bool}
    {store : TicketStore}
    (hcleanup : (final step empty calls).cleanup now (saveStatus saved) = (.ok, store))
    (later : ℕ) : (∀ peer ticket random saved,
      (store.issue peer later random (saveStatus saved)).1.1 ≠ .bounds ∧
        (store.rememberOutbound peer ticket later (saveStatus saved)).1 ≠ .bounds) ↔
      (final step empty calls).entries.countP (survives now) < maxEntries ∧
        ¬ 2 ^ 64 - 1 - later < expirySeconds := by
  have hlength : (final step empty calls).Sized :=
    invariant (fun _ call h _ => h.step call) (Nat.zero_le _) (each_true calls)
  have houtlived : Outlived now (final step empty calls) :=
    invariant (fun _ _ h hcall => h.step hcall) (by simp [Outlived, empty])
      (each_of_mem hcalls)
  have hentries := entries_of_cleanup houtlived hcleanup
  have hsized : store.Sized := by
    unfold Sized
    rw [hentries]
    exact (length_filter_le _ _).trans hlength
  rw [no_bounds_iff hsized, hentries, countP_eq_length_filter]

/-- Of an expired ticket, an outbound ticket that lives on and a delivery, the cleanup leaves two,
and there is room for another ticket. -/
theorem capacity_iff_issued :
    let s := final step empty [.issue (numberedPeer 1) 0 (some (zero 16)) true,
      .rememberOutbound (numberedPeer 2) ⟨9000000, zero 16⟩ 0 true,
      .markDelivered (numberedPeer 3) 0 true]
    let store := (s.cleanup 3000000 .ok).2
    s.entries.length = 3 ∧ store.entries.length = 2 ∧
      (store.issue (numberedPeer 1) 3000000 (some (zero 16)) .ok).1.1 ≠ .bounds := by
  intro s store
  refine ⟨by decide, by decide, ?_⟩
  have hcleanup : s.cleanup 3000000 (saveStatus true) = (.ok, store) :=
    Prod.ext (show _ = Status.ok by decide) rfl
  have hiff := capacity_iff _ (by simp [TicketCall.now, expirySeconds, graceSeconds]) hcleanup
    3000000
  exact (hiff.mpr ⟨by decide, by decide⟩ (numberedPeer 1) ⟨0, zero 16⟩
    (some (zero 16)) true).1

/-- Deliveries to the peers with the numbers below `n`. -/
def deliveries (n : ℕ) : List TicketCall :=
  (List.range n).map fun i => .markDelivered (numberedPeer i) 0 true

/-- The entry of a delivery. -/
def deliveryEntry (i : ℕ) : StoredTicket where
  kind := .lastDelivery
  peer := numberedPeer i
  time := 0
  ticket := zero 16

/-- Every delivery to another peer takes an entry. -/
theorem entries_deliveries (h : n ≤ maxEntries) :
    (final step empty (deliveries n)).entries = (List.range n).map deliveryEntry := by
  unfold maxEntries at h
  induction n with
  | zero => rfl
  | succ n ih =>
    have hentries := ih (by omega)
    have hnew : ∀ e ∈ (List.range n).map deliveryEntry,
        samePeer .lastDelivery (numberedPeer n) e = false := by
      intro e he
      obtain ⟨i, hi, rfl⟩ := mem_map.mp he
      rw [mem_range] at hi
      have hne : numberedPeer i ≠ numberedPeer n := fun heq =>
        absurd (numberedPeer_injective (by omega) (by omega) heq) (by omega)
      simp [samePeer, deliveryEntry, hne]
    rw [deliveries, range_succ, map_append, final_append]
    change ((final step empty (deliveries n)).step
      (.markDelivered (numberedPeer n) 0 true)).entries = _
    generalize final step empty (deliveries n) = store at hentries ⊢
    have hset : store.setOne (deliveryEntry n) =
        some { entries := store.entries ++ [deliveryEntry n] } := by
      unfold setOne
      rw [show (deliveryEntry n).kind = .lastDelivery from rfl,
        show (deliveryEntry n).peer = numberedPeer n from rfl, hentries,
        findIdx?_eq_none_iff.mpr hnew]
      rw [if_neg (by simp [maxEntries]; omega)]
    have hmark : (store.markDelivered (numberedPeer n) 0 .ok).2 =
        { entries := store.entries ++ [deliveryEntry n] } := by
      rw [markDelivered, show (⟨.lastDelivery, numberedPeer n, 0, zero 16⟩ : StoredTicket) =
        deliveryEntry n from rfl, hset]
      rfl
    rw [map_append, ← hentries]
    exact congrArg entries hmark

/-- After deliveries to as many peers as the table holds no ticket can be issued to another one. -/
theorem issue_after_deliveries (hn : n = maxEntries) (now : ℕ) :
    ∃ store, (final step empty (deliveries n)).cleanup now .ok = (.ok, store) ∧
      (store.issue (numberedPeer n) now (some (zero 16)) .ok).1.1 = .bounds := by
  have hentries := entries_deliveries hn.le
  generalize final step empty (deliveries n) = store at hentries ⊢
  have hkeeps : store.entries.any (expired now) = false := by
    rw [hentries, any_map]
    exact any_eq_false.mpr fun i _ => by simp [expired, deliveryEntry]
  have hnew : ∀ e ∈ store.entries, ∀ kind, samePeer kind (numberedPeer n) e = false := by
    rw [hentries]
    intro e he kind
    obtain ⟨i, hi, rfl⟩ := mem_map.mp he
    rw [mem_range] at hi
    unfold maxEntries at hn
    have hne : numberedPeer i ≠ numberedPeer n := fun heq =>
      absurd (numberedPeer_injective (by omega) (by omega) heq) (by omega)
    simp [samePeer, deliveryEntry, hne]
  refine ⟨store, by rw [cleanup, hkeeps]; rfl, ?_⟩
  have hlast : store.recentlyDelivered (numberedPeer n) now = false := by
    unfold recentlyDelivered findOne
    rw [find?_eq_none.mpr fun e he => by simp [hnew e he]]
  have hfound : (store.entries.find? fun entry => samePeer .inbound (numberedPeer n) entry ∧
      now < entry.time ∧ renewSeconds < entry.time - now) = none :=
    find?_eq_none.mpr fun e he => by simp [hnew e he]
  unfold issue
  rw [hlast, hfound]
  simp [hentries, hn]

/-- Deliveries to as many peers as the table holds, all at the time zero: a cleanup later than the
expiry and the grace period leaves no room for a ticket of another peer. -/
theorem deliveries_fill_table :
    ∃ store, (final step empty (deliveries 1024)).cleanup 3000000 .ok = (.ok, store) ∧
      (store.issue (numberedPeer 1024) 3000000 (some (zero 16)) .ok).1.1 = .bounds :=
  issue_after_deliveries rfl 3000000

end TicketStore

end Reticulum.Lxmf
