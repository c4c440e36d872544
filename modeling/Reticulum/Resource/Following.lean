import Reticulum.Resource.Prepared

/-!
# Receiving a prepared resource

What a receiver has when everything that it was given came from one prepared sender. `Follows` ties
its map, its parts and its counters to the sender and to the list of the indexes of the parts that
were delivered. Every call of the receiver keeps it, and says what it answers: a part whose map hash
is known is taken, the request that it builds asks for known parts or for the next page of the map,
and a page that is known or asked for is taken. With every part delivered the receiver assembles the
sender's segment and its proof convinces the sender.

A page is asked for only when every known part is there, so no request for parts is built until it
has come (`Follows.waiting`): this is what keeps a page that comes late from being refused.
-/

namespace Reticulum.Resource

open List Octets Nat
open ResourceSender (Prepared partOf segmentFlags compressedSegment)

/-! ## Lists without duplicates -/

variable {α : Type*} {l : List α} {i : ℕ} {a : α}

/-- In a list without duplicates a search for an entry ends where the entry is. -/
theorem findIdx?_of_nodup [DecidableEq α] (hl : l.Nodup)
    (hi : l[i]? = some a) : l.findIdx? (fun b => a = b) = some i := by
  obtain ⟨hlt, hget⟩ := List.getElem?_eq_some_iff.1 hi
  rw [findIdx?_eq_some_iff_getElem]
  refine ⟨hlt, decide_eq_true hget.symm, ?_⟩
  intro j hj
  have hne : l[j] ≠ l[i] := fun heq => by
    have := (List.Nodup.getElem_inj_iff hl).1 heq
    omega
  simpa [← hget] using hne.symm

/-- Where a search for an entry ends, the entry is. -/
theorem getElem?_of_findIdx? [DecidableEq α]
    (h : l.findIdx? (fun b => a = b) = some i) : l[i]? = some a := by
  obtain ⟨hlt, hget, -⟩ := findIdx?_eq_some_iff_getElem.1 h
  rw [getElem?_eq_getElem hlt, ← of_decide_eq_true hget]

/-! ## The invariant -/

/-- The parts of a sender, with nothing for those that were not delivered. -/
def deliveredParts (sender : ResourceSender) (delivered : List ℕ) : List (Option (List UInt8)) :=
  (range sender.parts).map
    (fun i => if i ∈ delivered then some (partOf sender.wire i) else none)

/-- The receiver has the parts of the sender that were delivered, and nothing else. -/
structure Follows (sender : ResourceSender) (delivered : List ℕ) (resource : Resource) : Prop where
  advertisement : resource.advertisement = sender.announced
  max_size : sender.source.length ≤ resource.max_size
  map : resource.map_hashes <+: sender.map_hashes
  known_pos : 0 < resource.known_hashes
  /-- The map is known up to the end of a page. -/
  page : resource.known_hashes = sender.parts ∨
    hashmapMaxEntries ∣ resource.known_hashes ∧ resource.known_hashes < sender.parts
  parts : resource.parts = deliveredParts sender delivered
  delivered_known : ∀ i ∈ delivered, i < resource.known_hashes
  received : resource.received = delivered.toFinset.card
  waiting : resource.waiting → ∀ i < resource.known_hashes, i ∈ delivered

/-- The page of the map that starts at `start` is known, or asked for. -/
def PageOpen (resource : Resource) (start : ℕ) : Prop :=
  start < resource.known_hashes ∨ start = resource.known_hashes ∧ resource.waiting

/-- Nothing that was known or asked for is forgotten. -/
structure Later (resource resource' : Resource) : Prop where
  map : resource.map_hashes <+: resource'.map_hashes
  page : ∀ start, PageOpen resource start → PageOpen resource' start

variable {p : Primitives} {bzip2 : Option Bzip2} {key : Octets 64} {sender : ResourceSender}
  {delivered : List ℕ} {resource r r' : Resource}

/-- The map only grows. -/
theorem Later.known (h : Later r r') : r.known_hashes ≤ r'.known_hashes :=
  h.map.length_le

theorem Later.refl (r : Resource) : Later r r := ⟨prefix_refl _, fun _ h => h⟩

namespace Follows

variable {i : ℕ}

section

variable (h : Follows sender delivered resource)
include h

/-- A receiver that differs only in what it has asked for and how often follows the sender too. -/
theorem congr (requested : List Bool) (retries_used : ℕ) :
    Follows sender delivered { resource with requested, retries_used } :=
  { h with }

/-- The known part of the map is not longer than the map. -/
theorem known_le : resource.known_hashes ≤ sender.parts := by
  rcases h.page with hall | ⟨-, hlt⟩
  · exact hall.le
  · exact hlt.le

/-- The advertisement has the hash of the sender. -/
theorem hash_eq : resource.advertisement.hash = sender.hash := h.advertisement ▸ rfl

/-- The advertisement has the number of the sender's parts. -/
theorem parts_eq : resource.advertisement.parts = sender.parts := h.advertisement ▸ rfl

/-- The map hash that the receiver has of a known part is the sender's. -/
theorem map_get (hi : i < resource.known_hashes) :
    resource.map_hashes[i]? = sender.map_hashes[i]? :=
  (prefix_iff_getElem?.1 h.map i hi).symm ▸ getElem?_eq_getElem hi

/-- A part is there when it was delivered. -/
theorem getD_parts (hi : i < sender.parts) :
    resource.parts.getD i none = if i ∈ delivered then some (partOf sender.wire i) else none := by
  rw [h.parts, deliveredParts, getD_eq_getElem?_getD, getElem?_map,
    getElem?_range hi, Option.map_some, Option.getD_some]

/-- A part is missing when it was not delivered. -/
theorem missing_iff (hi : i < sender.parts) : resource.missing i = true ↔ i ∉ delivered := by
  rw [missing, h.getD_parts hi]
  split_ifs with hmem <;> simp [hmem]

end

/-! ## Parts -/

/-- Marking a part as delivered. -/
theorem deliveredParts_set (hi : i < sender.parts) :
    (deliveredParts sender delivered).set i (some (partOf sender.wire i)) =
      deliveredParts sender (i :: delivered) := by
  apply ext_getElem?
  intro j
  rw [getElem?_set]
  simp only [deliveredParts, length_map, length_range, getElem?_map]
  by_cases hj : j < sender.parts
  · rw [getElem?_range hj, Option.map_some, Option.map_some]
    by_cases hij : i = j
    · subst hij
      simp [hi]
    · simp [hij, Ne.symm hij]
  · have hij : i ≠ j := by omega
    rw [if_neg hij, getElem?_eq_none (by simpa using hj)]
    rfl

/-- A part that the receiver knows the map hash of is taken; a second time it changes nothing. -/
theorem receivePart (h : Follows sender delivered resource) (hs : Prepared p bzip2 key sender)
    (hp : p.TokenSound) (hi : i < resource.known_hashes) {r : Status × Resource}
    (hr : resource.receivePart p.toCrypto (partOf sender.wire i) = r) :
    r.1 = .ok ∧ Follows sender (i :: delivered) r.2 ∧ Later resource r.2 ∧
      (i ∈ delivered → r.2 = resource) := by
  have hparts := hi.trans_le h.known_le
  obtain ⟨hpos, hmax⟩ := hs.length_partOf hp hparts
  -- The map hash of the part is the one at its index, and at no other.
  have hget : resource.map_hashes[i]? =
      some (mapHash p.toCrypto (partOf sender.wire i) resource.advertisement.random_hash) := by
    rw [h.map_get hi, hs.map_get hparts, h.advertisement]
    rfl
  have hfind := findIdx?_of_nodup (hs.nodup.sublist h.map.sublist) hget
  have hknown : ∀ j ∈ i :: delivered, j < resource.known_hashes :=
    forall_mem_cons.2 ⟨hi, h.delivered_known⟩
  have hwaiting : resource.waiting → ∀ j < resource.known_hashes, j ∈ i :: delivered :=
    fun hw j hj => mem_cons_of_mem _ (h.waiting hw j hj)
  rw [Resource.receivePart, if_neg hpos.ne', if_neg hmax.not_gt] at hr
  dsimp only at hr
  rw [hfind] at hr
  dsimp only at hr
  rw [h.getD_parts hparts] at hr
  by_cases hmem : i ∈ delivered
  · rw [if_pos hmem] at hr
    dsimp only at hr
    rw [if_pos rfl] at hr
    subst hr
    refine ⟨rfl, { h with parts := ?_, delivered_known := hknown, received := ?_, waiting := hwaiting },
      .refl _, fun _ => rfl⟩
    · rw [h.parts]
      refine map_congr_left fun j _ => ?_
      by_cases hj : j = i
      · subst hj
        simp [hmem]
      · simp [hj]
    · rw [h.received, toFinset_cons, Finset.insert_eq_of_mem (mem_toFinset.2 hmem)]
  · rw [if_neg hmem] at hr
    subst hr
    refine ⟨rfl, { h with parts := ?_, delivered_known := hknown, received := ?_, waiting := hwaiting },
      ⟨prefix_refl _, fun _ h => h⟩, fun hin => absurd hin hmem⟩
    · rw [h.parts, deliveredParts_set hparts]
    · rw [h.received, toFinset_cons, Finset.card_insert_of_notMem (by simpa using hmem)]

/-- The parts are complete exactly when every one was delivered. -/
theorem partsComplete_iff (h : Follows sender delivered resource) :
    resource.partsComplete = true ↔ ∀ i < sender.parts, i ∈ delivered := by
  have hsub : delivered.toFinset ⊆ .range sender.parts := by
    intro i hi
    rw [Finset.mem_range]
    exact (h.delivered_known i (mem_toFinset.1 hi)).trans_le h.known_le
  rw [partsComplete, decide_eq_true_iff, h.received, h.parts_eq]
  constructor
  · intro hcard i hi
    have heq := Finset.eq_of_subset_of_card_le hsub (by rw [Finset.card_range, hcard])
    rw [← mem_toFinset, heq, Finset.mem_range]
    exact hi
  · intro hall
    have heq : delivered.toFinset = .range sender.parts := by
      refine Finset.Subset.antisymm hsub fun i hi => ?_
      exact mem_toFinset.2 (hall i (Finset.mem_range.1 hi))
    rw [heq, Finset.card_range]

/-! ## Requests -/

end Follows

/-- A request of the receiver: for known parts, or for the next page of the map, which asks for
known parts too. -/
inductive Asks (sender : ResourceSender) (resource : Resource) (request : List UInt8) : Prop
  | parts (wanted : List (Octets 4)) (hwanted : ∀ hash ∈ wanted, hash ∈ resource.map_hashes)
      (heq : request = partsRequest sender.hash wanted)
  | map (page : ℕ) (last : Octets 4) (wanted : List (Octets 4))
      (hlast : 0 < page ∧ sender.map_hashes[page * hashmapMaxEntries - 1]? = some last)
      (hpage : page * hashmapMaxEntries < sender.parts ∧
        PageOpen resource (page * hashmapMaxEntries))
      (hwanted : ∀ hash ∈ wanted, hash ∈ resource.map_hashes)
      (heq : request = mapRequest last sender.hash wanted)

/-- A request stays good. -/
theorem Asks.later {request : List UInt8}
    (h : Asks sender r request) (hlater : Later r r') : Asks sender r' request := by
  cases h with
  | parts wanted hwanted heq =>
    exact .parts wanted (fun hash hh => hlater.map.subset (hwanted hash hh)) heq
  | map page last wanted hlast hpage hwanted heq =>
    exact .map page last wanted hlast ⟨hpage.1, hlater.page _ hpage.2⟩
      (fun hash hh => hlater.map.subset (hwanted hash hh)) heq

/-- What building a request can do: it fails, asks for missing parts, or, when no known part is
missing, for the next page. -/
theorem buildRequest_cases (resource : Resource) (capacity : ℕ) :
    (∃ status, resource.buildRequest capacity = (.error status, resource)) ∨
    (resource.missingParts ≠ [] ∧ ∃ requested, resource.buildRequest capacity =
      (.ok (partsRequest resource.advertisement.hash
        (resource.missingParts.map resource.mapHashAt)),
        { resource with requested, waiting := false })) ∨
    (resource.missingParts = [] ∧ resource.outstandingParts = 0 ∧
      resource.known_hashes < resource.advertisement.parts ∧
      ∃ k, resource.buildRequest capacity =
        (.ok (mapRequest (resource.mapHashAt (resource.known_hashes - 1))
          resource.advertisement.hash (resource.map_hashes.drop k)),
          { resource with waiting := true })) := by
  unfold buildRequest
  dsimp only
  split
  · exact .inl ⟨_, rfl⟩
  split
  · rename_i hmissing
    split
    · exact .inl ⟨_, rfl⟩
    · exact .inr (.inl ⟨hmissing, _, rfl⟩)
  rename_i hmissing
  split
  · exact .inl ⟨_, rfl⟩
  rename_i houtstanding
  split
  · exact .inl ⟨_, rfl⟩
  rename_i hknown
  generalize (if resource.known_hashes < window then resource.known_hashes else window) = n
  split
  · exact .inl ⟨_, rfl⟩
  · exact .inr (.inr ⟨not_not.1 hmissing, not_not.1 houtstanding, not_le.1 hknown, _, rfl⟩)

/-- A part that is asked for is known, and has not come. -/
theorem mem_missingParts (h : i ∈ resource.missingParts) :
    i < resource.known_hashes ∧ resource.missing i = true := by
  have hmem := mem_of_mem_take h
  simp only [mem_filter, mem_range, Bool.and_eq_true] at hmem
  exact ⟨hmem.1, hmem.2.1⟩

/-- With nothing to ask for and nothing outstanding, every known part is there. -/
theorem not_missing (hmissing : resource.missingParts = [])
    (houtstanding : resource.outstandingParts = 0) (hi : i < resource.known_hashes) :
    resource.missing i = false := by
  unfold missingParts at hmissing
  rw [houtstanding] at hmissing
  have hnone := (take_eq_nil_iff.1 hmissing).resolve_left (by decide)
  have hrequested := eq_nil_of_length_eq_zero houtstanding
  rw [filter_eq_nil_iff] at hnone
  rw [outstanding, filter_eq_nil_iff] at hrequested
  have h₁ := hnone i (mem_range.2 hi)
  have h₂ := hrequested i (mem_range.2 hi)
  cases hm : resource.missing i
  · rfl
  · cases hq : resource.isRequested i <;> simp [hm, hq] at h₁ h₂

namespace Follows

section

variable (h : Follows sender delivered resource)
include h

/-- The map hash of a known part is in the map. -/
theorem mapHashAt_mem {i : ℕ}
    (hi : i < resource.known_hashes) : resource.mapHashAt i ∈ resource.map_hashes ∧
      sender.map_hashes[i]? = some (resource.mapHashAt i) := by
  have hget : resource.map_hashes[i]? = some (resource.mapHashAt i) := by
    rw [mapHashAt, getD_eq_getElem?_getD, getElem?_eq_getElem hi, Option.getD_some]
  exact ⟨mem_of_getElem? hget, (h.map_get hi).symm.trans hget⟩

variable {capacity : ℕ} {r : Except Status (List UInt8) × Resource}

/-- A request that is built asks for known parts or for the next page. -/
theorem buildRequest (hr : resource.buildRequest capacity = r) :
    Follows sender delivered r.2 ∧ Later resource r.2 ∧
      ∀ request, r.1 = .ok request → Asks sender r.2 request := by
  rcases buildRequest_cases resource capacity with ⟨status, heq⟩ | ⟨hmissing, requested, heq⟩ |
      ⟨hmissing, houtstanding, hknown, k, heq⟩
  · rw [heq] at hr
    subst hr
    exact ⟨h, .refl _, nofun⟩
  · -- A part is missing, so the receiver is not waiting for a page.
    obtain ⟨i, hi⟩ := exists_mem_of_ne_nil _ hmissing
    obtain ⟨hknown, hi⟩ := mem_missingParts hi
    have hwaiting : resource.waiting = false := by
      rw [h.missing_iff (hknown.trans_le h.known_le)] at hi
      by_contra hw
      exact hi (h.waiting (Bool.eq_true_of_not_eq_false hw) i hknown)
    rw [heq] at hr
    subst hr
    refine ⟨{ h with waiting := nofun }, ⟨prefix_refl _, ?_⟩, ?_⟩
    · rintro start (hlt | ⟨-, hw⟩)
      · exact .inl hlt
      · rw [hwaiting] at hw
        exact nomatch hw
    · intro request hok
      cases hok
      rw [h.hash_eq]
      refine .parts _ ?_ rfl
      intro hash hmem
      obtain ⟨j, hj, rfl⟩ := mem_map.1 hmem
      exact (h.mapHashAt_mem (mem_missingParts hj).1).1
  · -- Every known part is there, and the known map ends with a page.
    have hall : ∀ i < resource.known_hashes, i ∈ delivered := by
      intro i hi
      by_contra hmem
      rw [← h.missing_iff (hi.trans_le h.known_le), not_missing hmissing houtstanding hi] at hmem
      exact nomatch hmem
    rw [h.parts_eq] at hknown
    obtain ⟨⟨page, hpage⟩, -⟩ := h.page.resolve_left hknown.ne
    rw [mul_comm] at hpage
    have hpos := h.known_pos
    rw [heq] at hr
    subst hr
    refine ⟨{ h with waiting := fun _ => hall }, ⟨prefix_refl _, ?_⟩, ?_⟩
    · rintro start (hlt | ⟨rfl, -⟩)
      · exact .inl hlt
      · exact .inr ⟨rfl, rfl⟩
    · intro request hok
      cases hok
      have hlast := (h.mapHashAt_mem (sub_lt hpos one_pos)).2
      have hpage_pos : 0 < page := by
        rcases Nat.eq_zero_or_pos page with rfl | hpos'
        · omega
        · exact hpos'
      rw [h.hash_eq]
      refine .map page _ _ ⟨hpage_pos, ?_⟩ ⟨?_, ?_⟩ ?_ rfl
      · rw [← hpage]
        exact hlast
      · rw [← hpage]
        exact hknown
      · rw [← hpage]
        exact .inr ⟨rfl, rfl⟩
      · exact fun hash hmem => mem_of_mem_drop hmem

/-- A request that is built again asks for known parts or for the next page. -/
theorem buildRetryRequest (hr : resource.buildRetryRequest capacity = r) :
    Follows sender delivered r.2 ∧ Later resource r.2 ∧
      ∀ request, r.1 = .ok request → Asks sender r.2 request := by
  unfold Resource.buildRetryRequest at hr
  split at hr
  · subst hr
    exact ⟨h, .refl _, nofun⟩
  split at hr
  · subst hr
    exact ⟨h, .refl _, nofun⟩
  dsimp only at hr
  -- Taking back what was asked for changes nothing that the invariant speaks of.
  have hbuild := (h.congr (resource.outstanding.foldl (fun requested i => requested.set i false)
    resource.requested) resource.retries_used).buildRequest
      (show Resource.buildRequest _ capacity = _ from rfl)
  split at hr
  · rename_i status cleared heq
    rw [heq] at hbuild
    subst hr
    refine ⟨hbuild.1.congr _ _, ⟨hbuild.2.1.map, hbuild.2.1.page⟩, nofun⟩
  · rename_i request resource' heq
    rw [heq] at hbuild
    subst hr
    refine ⟨hbuild.1.congr _ _, ⟨hbuild.2.1.map, hbuild.2.1.page⟩, fun request hok => ?_⟩
    exact (hbuild.2.2 request hok).later ⟨prefix_refl _, fun _ h => h⟩

end

/-! ## Pages -/

variable {page : ℕ}

/-- A page of the map is read back. -/
theorem parseHashmapUpdate_pageBytes (hs : Prepared p bzip2 key sender)
    (hpage : page * hashmapMaxEntries < sender.parts) :
    parseHashmapUpdate (sender.pageBytes page) sender.hash = some (page, writeMany
      ((sender.map_hashes.drop (page * hashmapMaxEntries)).take hashmapMaxEntries)) := by
  have hentries : hashmapMaxEntries = 74 := rfl
  have hparts : sender.parts ≤ 18000 := hs.parts_le
  have hlt : page < 2 ^ 64 := by
    rw [hentries] at hpage
    omega
  generalize hmap : writeMany
    ((sender.map_hashes.drop (page * hashmapMaxEntries)).take hashmapMaxEntries) = map
  have hlength : map.length < 2 ^ 32 := by
    rw [← hmap, length_writeMany, length_take]
    omega
  have hsize : ¬ (sender.pageBytes page).length < 35 := by
    have hb : 2 ≤ mpBinHeaderSize map.length := by
      unfold mpBinHeaderSize
      split_ifs <;> omega
    rw [ResourceSender.pageBytes, hmap]
    simp only [length_append, length_eq, length_cons, length_mpPutUint, length_mpPutBin]
    omega
  have htake : (sender.pageBytes page).take 32 = sender.hash.bytes :=
    take_left' sender.hash.length_eq
  have hdrop : (sender.pageBytes page).drop 32 = 0x92 :: (mpPutUint page ++ mpPutBin map) := by
    rw [ResourceSender.pageBytes, hmap]
    exact drop_left' sender.hash.length_eq
  have hbin : mpBin (mpPutBin map) = some (map, []) := by
    simpa using mpBin_mpPutBin hlength []
  rw [parseHashmapUpdate, if_neg hsize, if_neg (not_not.2 htake), hdrop]
  simp [mpUint_mpPutUint hlt, hbin]

/-- A page that is known or asked for is taken; one that is known changes nothing. -/
theorem applyHashmapUpdate (h : Follows sender delivered resource)
    (hs : Prepared p bzip2 key sender) (hpage : page * hashmapMaxEntries < sender.parts)
    (hopen : PageOpen resource (page * hashmapMaxEntries)) {r : Status × Resource}
    (hr : resource.applyHashmapUpdate (sender.pageBytes page) = r) :
    r.1 = .ok ∧ Follows sender delivered r.2 ∧ Later resource r.2 ∧
      page * hashmapMaxEntries < r.2.known_hashes ∧
      (page * hashmapMaxEntries < resource.known_hashes → r.2 = resource) := by
  have hentries : hashmapMaxEntries = 74 := rfl
  have hlength := hs.length_map
  generalize hstart : page * hashmapMaxEntries = start at *
  -- The page has as many hashes as are left, and at most a full page.
  generalize hcount : (if sender.parts - start > hashmapMaxEntries then hashmapMaxEntries
    else sender.parts - start) = count at *
  have hcount_pos : 0 < count ∧ start + count ≤ sender.parts ∧ count ≤ 74 ∧
      (count = 74 ∨ start + count = sender.parts) := by
    rw [← hcount]
    split_ifs <;> omega
  have hslice : (sender.map_hashes.drop start).take hashmapMaxEntries =
      (sender.map_hashes.drop start).take count := by
    rcases hcount_pos.2.2.2 with heq | heq
    · rw [heq, hentries]
    · rw [take_of_length_le, take_of_length_le] <;> rw [length_drop] <;> omega
  have hpagelen : ((sender.map_hashes.drop start).take count).length = count := by
    rw [length_take, length_drop]
    omega
  have hparse := parseHashmapUpdate_pageBytes hs (hstart ▸ hpage : page * hashmapMaxEntries < _)
  rw [hstart, hslice] at hparse
  -- No check of the update refuses the page.
  have hsize : ¬ ((writeMany ((sender.map_hashes.drop start).take count)).length = 0 ∨
      (writeMany ((sender.map_hashes.drop start).take count)).length ≠ count * 4) := by
    rw [length_writeMany, hpagelen]
    omega
  have hinside : ¬ (start ≥ 2 ^ 64 ∨ start ≥ sender.parts) := by
    have hparts : sender.parts ≤ 18000 := hs.parts_le
    omega
  rw [Resource.applyHashmapUpdate, h.hash_eq, hparse] at hr
  dsimp only at hr
  rw [hstart, h.parts_eq, if_neg hinside, hcount, if_neg hsize] at hr
  by_cases hknown : start < resource.known_hashes
  · -- A known page: the known map ends with a page, so it has all of it.
    have hend : start + count ≤ resource.known_hashes := by
      rcases h.page with hall | ⟨⟨pages, hpages⟩, -⟩
      · omega
      · have hlt : page < pages := by
          rw [hpages, ← hstart, mul_comm] at hknown
          exact Nat.lt_of_mul_lt_mul_left hknown
        have hle : (page + 1) * hashmapMaxEntries ≤ pages * hashmapMaxEntries :=
          mul_le_mul_right _ hlt
        rw [hpages, mul_comm]
        rw [succ_mul, hstart] at hle
        omega
    have hsame : (resource.map_hashes.drop start).take count =
        (sender.map_hashes.drop start).take count := by
      obtain ⟨rest, hrest⟩ := h.map
      have hlen : start + count ≤ resource.map_hashes.length := hend
      rw [← hrest, drop_append_of_le_length (by omega),
        take_append_of_le_length (by rw [length_drop]; omega)]
    rw [if_pos hknown, hsame, if_pos ⟨hend, rfl⟩] at hr
    subst hr
    exact ⟨rfl, h, .refl _, hknown, fun _ => rfl⟩
  · -- The page that was asked for: the map goes on with its hashes.
    obtain ⟨heq, hwaiting⟩ := hopen.resolve_left hknown
    have hwait : ¬ (!resource.waiting ∨ start ≠ resource.known_hashes) := by
      simp [hwaiting, heq]
    rw [if_neg hknown, if_neg hwait] at hr
    have hread : readMany 4 count
        (writeMany ((sender.map_hashes.drop start).take count)) =
          (sender.map_hashes.drop start).take count := by
      have := readMany_writeMany ((sender.map_hashes.drop start).take count) []
      rwa [hpagelen, append_nil] at this
    have hmap : resource.map_hashes ++ (sender.map_hashes.drop start).take count =
        sender.map_hashes.take (start + count) := by
      have hprefix := prefix_iff_eq_take.1 h.map
      rw [take_add, heq]
      exact congrArg (· ++ _) hprefix
    rw [hread, hmap] at hr
    have hprefix := take_prefix (start + count) sender.map_hashes
    have hknown' : (sender.map_hashes.take (start + count)).length = start + count := by
      rw [length_take]
      omega
    generalize sender.map_hashes.take (start + count) = hashes at hr hmap hprefix hknown'
    have hgrown : ∀ {k}, k ≤ start → k < hashes.length := by omega
    subst hr
    refine ⟨rfl, { h with
      map := hprefix
      known_pos := hgrown (zero_le _)
      page := ?_
      delivered_known := fun i hi => hgrown ((h.delivered_known i hi).le.trans heq.ge)
      waiting := nofun }, ⟨?_, ?_⟩, hgrown le_rfl, fun hlt => absurd hlt hknown⟩
    · -- The map ends with the page, which is full unless it is the last one.
      show hashes.length = _ ∨ _ ∣ hashes.length ∧ hashes.length < _
      rw [hknown']
      rcases lt_or_ge (start + count) sender.parts with hlt | hge
      · have hfull : count = hashmapMaxEntries := by omega
        refine .inr ⟨?_, hlt⟩
        rw [← hstart, hfull, ← succ_mul]
        exact Dvd.intro_left _ rfl
      · exact .inl (by omega)
    · rw [← hmap]
      exact prefix_append _ _
    · rintro k (hlt | ⟨rfl, -⟩)
      · exact .inl (hgrown (hlt.le.trans heq.ge))
      · exact .inl (hgrown heq.ge)

/-! ## Assembly -/

/-- The parts of a wire, one after the other, are the wire. -/
theorem flatten_partOf (wire : List UInt8) (n : ℕ) :
    ((range n).map (partOf wire)).flatten = wire.take (n * partMax) := by
  induction n with
  | zero => simp
  | succ n ih =>
    rw [range_succ, map_append, flatten_append, ih, succ_mul, take_add]
    simp [partOf, Bytes.slice]

/-- With every part delivered the receiver has the sender's wire. -/
theorem wire_eq (h : Follows sender delivered resource) (hs : Prepared p bzip2 key sender)
    (hp : p.TokenSound) (hall : ∀ i < sender.parts, i ∈ delivered) :
    resource.wire = sender.wire := by
  have hparts : resource.parts = ((range sender.parts).map (partOf sender.wire)).map some := by
    rw [h.parts, deliveredParts, map_map]
    refine map_congr_left fun i hi => ?_
    rw [if_pos (hall i (mem_range.1 hi)), Function.comp_apply]
  have hsome : (((range sender.parts).map (partOf sender.wire)).map some).reduceOption =
      (range sender.parts).map (partOf sender.wire) := by
    show filterMap id _ = _
    simp
  rw [wire, hparts, hsome, flatten_partOf]
  exact take_of_length_le (hs.parts_bounds hp).1

end Follows

/-- What a decompressor promises: what was compressed comes back, into a buffer that holds it. -/
structure Bzip2.Sound (bzip2 : Bzip2) : Prop where
  decompress_compress : ∀ source bound packed capacity,
    bzip2.compress source bound = some packed → source.length ≤ capacity →
      bzip2.decompress packed capacity = .data source

namespace Follows

/-- Only a build with bzip2 compresses, and what it keeps is shorter than the segment. -/
theorem compressedSegment_eq_some {auto_compress : Bool} {segment packed : List UInt8}
    (h : compressedSegment bzip2 auto_compress segment = .ok (some packed)) :
    ∃ codec, bzip2 = some codec ∧ ∃ bound, codec.compress segment bound = some packed ∧
      packed.length < segment.length := by
  unfold compressedSegment ResourceSender.compressedCopy at h
  split at h
  swap
  · cases h
  cases bzip2 with
  | none => cases h
  | some codec =>
    dsimp only at h
    split at h
    · cases h
    split at h
    · cases h
    rename_i candidate hpacked
    have hkeep := Except.ok.inj h
    split at hkeep
    · rename_i hshorter
      cases hkeep
      exact ⟨codec, rfl, _, hpacked, hshorter⟩
    · cases hkeep

variable {capacity : ℕ}

/-- What a segment was packed to is unpacked again. -/
theorem unpack (h : Follows sender delivered resource) (hs : Prepared p bzip2 key sender)
    (hbzip2 : ∀ codec ∈ bzip2, codec.Sound) {compressed : Option (List UInt8)}
    (hcompressed : compressedSegment bzip2 sender.auto_compress sender.segment = .ok compressed)
    (hflags : sender.flags = segmentFlags compressed.isSome (decide (sender.total_segments > 1))
      sender.is_response) (hcapacity : sender.segment.length ≤ capacity) :
    Resource.unpack bzip2 resource (compressed.getD sender.segment) capacity =
      .ok sender.segment := by
  obtain ⟨hsource, hsegment⟩ := Prepared.length_segment sender
  have hmax := h.max_size
  have hdata : resource.advertisement.data_size = sender.source.length := h.advertisement ▸ rfl
  have hle : sender.source.length ≤ 8 * 1024 * 1024 := hs.source_le
  have hflag : resource.advertisement.compressed = compressed.isSome := by
    rw [h.advertisement]
    show decide (sender.flags &&& 0x02 ≠ 0) = _
    rw [hflags]
    exact (Prepared.flags _ _ _).2.1
  unfold Resource.unpack
  rw [hflag, hdata]
  cases compressed with
  | none =>
    have hfits : ¬ (capacity < sender.segment.length ∨ sender.segment.length > resource.max_size ∨
        sender.segment.length > sender.source.length) := by omega
    rw [if_neg (by simp), Option.getD_none, if_neg hfits]
  | some packed =>
    obtain ⟨codec, rfl, bound, hpacked, hshorter⟩ := compressedSegment_eq_some hcompressed
    have huint : uintMax = 2 ^ 32 - 1 := rfl
    rw [if_pos Option.isSome_some, Option.getD_some]
    dsimp only
    generalize hlimit : (if (if capacity > resource.max_size then resource.max_size
      else capacity) > sender.source.length then sender.source.length
      else if capacity > resource.max_size then resource.max_size else capacity) = limit
    have hbounds : sender.segment.length ≤ limit ∧ limit ≤ sender.source.length := by
      rw [← hlimit]
      split_ifs <;> omega
    rw [if_neg (by omega), if_neg (by omega),
      (hbzip2 codec rfl).decompress_compress _ _ _ _ hpacked hbounds.1]

/-- With every part delivered the receiver assembles the segment, over a link with the key, into a
buffer that holds it, and has a proof that the sender accepts. -/
theorem assemble (h : Follows sender delivered resource) (hs : Prepared p bzip2 key sender)
    (hp : p.TokenSound) (hbzip2 : ∀ codec ∈ bzip2, codec.Sound)
    (hall : ∀ i < sender.parts, i ∈ delivered) {link : Link} (hkey : link.derived_key = key)
    (hstate : link.state = .active ∨ link.state = .handshake)
    (hcapacity : sender.segment.length ≤ capacity) :
    resource.assemble p bzip2 (some link) capacity =
      (.ok sender.segment, { resource with
        proof := some (proofOf p.toCrypto sender.hash sender.segment) }) := by
  obtain ⟨compressed, iv, hcompressed, hflags, hsealed⟩ := hs.wire_eq
  obtain ⟨hsource, hsegment⟩ := Prepared.length_segment sender
  have hmax := h.max_size
  have hcomplete := h.partsComplete_iff.2 hall
  have hwire := h.wire_eq hs hp hall
  have hadv := h.advertisement
  have henc : resource.advertisement.encrypted = true := by
    rw [hadv]
    show decide (sender.flags &&& 0x01 ≠ 0) = true
    rw [hflags]
    exact decide_eq_true (Prepared.flags _ _ _).1
  have hsize : ¬ sender.wire.length ≠ resource.advertisement.transfer_size := by
    rw [hadv]
    exact not_not.2 rfl
  have hdrop : (sender.random_hash.bytes ++ compressed.getD sender.segment).drop 4 =
      compressed.getD sender.segment := drop_left' sender.random_hash.length_eq
  have hlong : 4 ≤ (sender.random_hash.bytes ++ compressed.getD sender.segment).length := by simp
  generalize sender.random_hash.bytes ++ compressed.getD sender.segment = plaintext
    at hsealed hdrop hlong
  -- The token opens: it is at least as long as a token has to be.
  have hdecrypt : link.decrypt p sender.wire sender.wire.length = some plaintext := by
    have hlength := hp.length_seal key iv plaintext
    have hcover := (hs.parts_bounds hp).1
    have hparts : sender.parts ≤ 18000 := hs.parts_le
    rw [show partMax = 464 from rfl] at hcover
    rw [← hsealed] at hlength
    rw [Link.decrypt, if_pos hstate, hkey, tokenDecrypt, if_neg (by omega), hsealed, hp.open_seal]
  have hplain : ¬ (plaintext.length < 4 ∨
      False ∧ plaintext.take 4 ≠ resource.advertisement.random_hash.bytes) := by
    simp [hlong]
  have hunpack := h.unpack hs hbzip2 hcompressed hflags hcapacity
  have hfits : ¬ (sender.segment.length > resource.max_size ∨
      sender.segment.length > resource.advertisement.data_size) := by
    rw [hadv]
    show ¬ (_ ∨ sender.segment.length > sender.source.length)
    omega
  have hhash : ¬ p.sha256 (sender.segment ++ resource.advertisement.random_hash.bytes) ≠
      resource.advertisement.hash := by
    rw [hadv, not_not]
    exact hs.hash_eq.symm
  unfold Resource.assemble
  simp only [hcomplete, Bool.not_true, Bool.false_eq_true, if_false, hwire, if_neg hsize, henc,
    if_true, hdecrypt]
  rw [if_neg hplain, hdrop, hunpack]
  dsimp only
  rw [if_neg hfits, if_neg hhash, hadv]
  rfl

/-- The sender accepts the proof of its segment. -/
theorem validateProof (crypto : Crypto) (sender : ResourceSender) :
    sender.validateProof crypto (proofOf crypto sender.hash sender.segment) = .ok := by
  have htake : (proofOf crypto sender.hash sender.segment).take 32 = sender.hash.bytes :=
    take_left' sender.hash.length_eq
  have hdrop : (proofOf crypto sender.hash sender.segment).drop 32 =
      (crypto.sha256 (sender.segment ++ sender.hash.bytes)).bytes :=
    drop_left' sender.hash.length_eq
  have hlength : (proofOf crypto sender.hash sender.segment).length = 64 := by
    simp [proofOf]
  rw [ResourceSender.validateProof, hlength, htake, hdrop, if_neg (by simp), if_pos rfl]

end Follows

end Reticulum.Resource
