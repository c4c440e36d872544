import Mathlib.Tactic

/-!
# Tables of slots

A fixed table of slots that are free or hold one entry is a `List (Option α)`: its length is the
capacity and never changes. `Holds t i a` says that slot `i` holds `a`. The scans are those that
such tables are used with: the first entry with a property (`find`), the first free slot
(`firstFree`), the slot that a new entry replaces (`victim`: the first free one, else the first with
the least key), and the sweep that frees every dead entry (`sweep`). Each comes with one lemma that
says what it returns, and no proof above this module looks inside a scan.
-/

namespace Slots

open List

variable {α : Type*}

/-- Slot `i` of the table holds `a`. -/
def Holds (t : List (Option α)) (i : ℕ) (a : α) : Prop := t[i]? = some (some a)

/-- The first slot whose entry satisfies `p`, with that entry. -/
def find (p : α → Bool) : List (Option α) → Option (ℕ × α)
  | [] => none
  | none :: t => (find p t).map fun x => (x.1 + 1, x.2)
  | some a :: t => if p a then some (0, a) else (find p t).map fun x => (x.1 + 1, x.2)

/-- The first free slot. -/
def firstFree : List (Option α) → Option ℕ
  | [] => none
  | none :: _ => some 0
  | some _ :: t => (firstFree t).map (· + 1)

/-- The scan for the slot that a new entry replaces, from slot `i` on: it stops at the first slot
that is free or whose entry is `dead`, and otherwise keeps in `oldest` the first slot with the least
key. -/
def victimLoop {κ : Type*} [LT κ] [DecidableLT κ] (dead : α → Bool) (key : α → κ) :
    ℕ → Option (ℕ × κ) → List (Option α) → ℕ
  | _, oldest, [] => (oldest.map Prod.fst).getD 0
  | i, _, none :: _ => i
  | i, oldest, some a :: t =>
    if dead a then i
    else
      match oldest with
      | none => victimLoop dead key (i + 1) (some (i, key a)) t
      | some (j, k) =>
        if key a < k then victimLoop dead key (i + 1) (some (i, key a)) t
        else victimLoop dead key (i + 1) (some (j, k)) t

/-- The slot that a new entry replaces: the first that is free or dead, else the first with the
least key. -/
def victim {κ : Type*} [LT κ] [DecidableLT κ] (dead : α → Bool) (key : α → κ)
    (t : List (Option α)) : ℕ :=
  victimLoop dead key 0 none t

/-- How many slots are in use. -/
def used (t : List (Option α)) : ℕ := t.countP Option.isSome

/-- The entries in use, in slot order. -/
def entries (t : List (Option α)) : List α := t.filterMap id

/-- Frees every slot whose entry satisfies `dead`. -/
def sweep (dead : α → Bool) (t : List (Option α)) : List (Option α) :=
  t.map (Option.filter fun a => !dead a)

/-- Entries in different slots have different keys. -/
def DistinctKeys {κ : Type*} (key : α → κ) (t : List (Option α)) : Prop :=
  ∀ i j a b, Holds t i a → Holds t j b → key a = key b → i = j

section Holds

variable {t : List (Option α)} {i j : ℕ} {a b : α}

/-- A slot that holds an entry is a slot of the table. -/
theorem Holds.lt (h : Holds t i a) : i < t.length := by
  by_contra hge
  rw [Holds, getElem?_eq_none (by omega)] at h
  cases h

/-- A slot holds at most one entry. -/
theorem Holds.unique (h : Holds t i a) (h' : Holds t i b) : a = b := by
  unfold Holds at h h'
  rw [h] at h'
  simpa using h'

variable {x : Option α}

@[simp]
theorem holds_cons_zero : Holds (x :: t) 0 a ↔ x = some a := by
  simp [Holds]

@[simp]
theorem holds_cons_succ : Holds (x :: t) (i + 1) a ↔ Holds t i a := by
  simp [Holds]

/-- What a table holds after one slot is written: the new content there, the old one elsewhere. -/
theorem holds_set :
    Holds (t.set i x) j a ↔ (j = i ∧ i < t.length ∧ x = some a) ∨ (j ≠ i ∧ Holds t j a) := by
  unfold Holds
  by_cases hij : j = i
  · subst hij
    by_cases hlt : j < t.length
    · simp [hlt]
    · simp [hlt]
  · simp [hij, getElem?_set_ne (Ne.symm hij)]

/-- A slot just written holds what was written. -/
theorem holds_set_self (h : i < t.length) : Holds (t.set i (some a)) i a :=
  holds_set.2 (.inl ⟨rfl, h, rfl⟩)

/-- A table of free slots holds nothing. -/
theorem not_holds_replicate {n : ℕ} : ¬ Holds (List.replicate n (none : Option α)) i a := by
  unfold Holds
  rw [getElem?_replicate]
  split_ifs <;> simp

/-- An entry is listed exactly when a slot holds it. -/
theorem mem_entries : a ∈ entries t ↔ ∃ i, Holds t i a := by
  unfold entries Holds
  rw [mem_filterMap]
  simp [mem_iff_getElem?]

/-- A table whose entries are mapped holds their images. -/
theorem holds_map {β : Type*} {f : α → β} {b : β} :
    Holds (t.map (Option.map f)) i b ↔ ∃ a, Holds t i a ∧ f a = b := by
  unfold Holds
  rw [getElem?_map]
  rcases t[i]? with _ | _ | c <;> simp

variable {κ : Type*} {key : α → κ}

/-- Writing an entry with the key of the one that is there leaves the keys as they are. -/
theorem map_set_of_holds (h : Holds t i a) (hkey : key b = key a) :
    (t.set i (some b)).map (Option.map key) = t.map (Option.map key) := by
  refine ext_getElem? fun j => ?_
  rw [getElem?_map, getElem?_map]
  by_cases hj : j = i
  · subst hj
    rw [getElem?_set_self h.lt, show t[j]? = some (some a) from h]
    simp [hkey]
  · rw [getElem?_set_ne (Ne.symm hj)]

/-- Changing every entry but for its key leaves the keys as they are. -/
theorem map_map_of_key {f : α → α} (h : ∀ a, key (f a) = key a) :
    (t.map (Option.map f)).map (Option.map key) = t.map (Option.map key) := by
  rw [map_map]
  refine map_congr_left fun x _ => ?_
  cases x with
  | none => rfl
  | some a => simp [h]

/-- The entries after one more was put into a free slot. -/
theorem mem_entries_set_some (h : t[i]? = some none) :
    b ∈ entries (t.set i (some a)) ↔ b = a ∨ b ∈ entries t := by
  have hlt : i < t.length := (List.getElem?_eq_some_iff.1 h).1
  rw [mem_entries, mem_entries]
  constructor
  · rintro ⟨j, hj⟩
    rcases holds_set.1 hj with ⟨-, -, hx⟩ | ⟨-, hj⟩
    · exact .inl (Option.some.inj hx).symm
    · exact .inr ⟨j, hj⟩
  · rintro (rfl | ⟨j, hj⟩)
    · exact ⟨i, holds_set_self hlt⟩
    · refine ⟨j, holds_set.2 (.inr ⟨?_, hj⟩)⟩
      rintro rfl
      rw [Holds, h] at hj
      cases hj

/-- The entries after a slot was freed, when no other slot has its entry. -/
theorem mem_entries_set_none (hd : DistinctKeys id t) (h : Holds t i a) :
    b ∈ entries (t.set i none) ↔ b ∈ entries t ∧ b ≠ a := by
  rw [mem_entries, mem_entries]
  constructor
  · rintro ⟨j, hj⟩
    rcases holds_set.1 hj with ⟨-, -, hx⟩ | ⟨hne, hj⟩
    · cases hx
    · refine ⟨⟨j, hj⟩, ?_⟩
      rintro rfl
      exact hne (hd j i b b hj h rfl)
  · rintro ⟨⟨j, hj⟩, hne⟩
    refine ⟨j, holds_set.2 (.inr ⟨?_, hj⟩)⟩
    rintro rfl
    exact hne (hj.unique h)

/-- After a sweep the slots that were not dead hold what they held. -/
theorem holds_sweep {dead : α → Bool} :
    Holds (sweep dead t) i a ↔ Holds t i a ∧ dead a = false := by
  unfold Holds sweep
  rw [getElem?_map]
  rcases t[i]? with _ | _ | b
  · simp
  · simp
  · simp only [Option.map_some, Option.some.injEq, Option.filter_eq_some_iff]
    constructor
    all_goals
      rintro ⟨rfl, h⟩
      exact ⟨rfl, by simpa using h⟩

end Holds

section Capacity

variable {t : List (Option α)}

@[simp]
theorem length_sweep (dead : α → Bool) : (sweep dead t).length = t.length := by
  simp [sweep]

/-- There are as many entries as slots in use. -/
theorem length_entries : (entries t).length = used t := by
  induction t with
  | nil => rfl
  | cons x t ih => cases x <;> simp_all [entries, used]

variable {i : ℕ} {a : α}

/-- Freeing a slot in use leaves one slot less in use. -/
theorem used_set_none (h : Holds t i a) : used (t.set i none) + 1 = used t := by
  have hlt := h.lt
  have hi : t[i] = some a := by
    have h' : t[i]? = some (some a) := h
    rw [getElem?_eq_getElem hlt] at h'
    simpa using h'
  have hpos : 0 < t.countP Option.isSome := countP_pos_iff.2 ⟨t[i], getElem_mem hlt, by simp [hi]⟩
  unfold used
  rw [countP_set hlt]
  simp only [hi, Option.isSome_some, if_true, Option.isSome_none, Bool.false_eq_true, if_false]
  omega

/-- Filling a free slot leaves one slot more in use. -/
theorem used_set_some (h : t[i]? = some none) : used (t.set i (some a)) = used t + 1 := by
  obtain ⟨hlt, hi⟩ := List.getElem?_eq_some_iff.1 h
  unfold used
  rw [countP_set hlt]
  simp [hi]

/-- A set whose elements are labels of slots in use has at most as many elements as there are slots
in use. -/
theorem card_le_used {f : ℕ → ℕ} {s : Finset ℕ}
    (h : ∀ b ∈ s, ∃ i a, Holds t i a ∧ f i = b) : s.card ≤ used t := by
  induction t generalizing f s with
  | nil =>
    have hs : s = ∅ := Finset.eq_empty_of_forall_notMem fun b hb => by
      obtain ⟨i, a, hi, -⟩ := h b hb
      simp [Holds] at hi
    simp [hs]
  | cons x t ih =>
    rcases x with _ | c
    · have hle : s.card ≤ used t := ih (f := fun i => f (i + 1)) fun b hb => by
        obtain ⟨_ | i, a, hi, hb⟩ := h b hb
        · simp at hi
        · exact ⟨i, a, by simpa using hi, hb⟩
      simpa [used] using hle
    · have hle : (s.erase (f 0)).card ≤ used t := ih (f := fun i => f (i + 1)) fun b hb => by
          obtain ⟨hne, hb⟩ := Finset.mem_erase.1 hb
          obtain ⟨_ | i, a, hi, hb⟩ := h b hb
          · exact absurd hb.symm hne
          · exact ⟨i, a, by simpa using hi, hb⟩
      have hpred := Finset.pred_card_le_card_erase (s := s) (a := f 0)
      have hu : used (some c :: t) = used t + 1 := by simp [used]
      omega

/-- The slots in use are at most all slots. -/
theorem used_le_length : used t ≤ t.length := countP_le_length

/-- A table without a free slot is in use in all its slots. -/
theorem used_eq_length (h : ∀ i < t.length, ∃ a, Holds t i a) : used t = t.length := by
  refine countP_eq_length.2 fun x hx => ?_
  obtain ⟨i, hi, rfl⟩ := getElem_of_mem hx
  obtain ⟨a, ha⟩ := h i hi
  rw [Holds, getElem?_eq_getElem hi] at ha
  rw [Option.some.inj ha]
  rfl

end Capacity

section Find

variable {t : List (Option α)} {p : α → Bool}

variable {i : ℕ} {a : α}

/-- What `find` returns: the first slot whose entry satisfies `p`. -/
theorem find_eq_some (h : find p t = some (i, a)) :
    Holds t i a ∧ p a = true ∧ ∀ j b, j < i → Holds t j b → p b = false := by
  induction t generalizing i with
  | nil => simp [find] at h
  | cons x t ih =>
    rcases x with _ | c
    · simp only [find, Option.map_eq_some_iff] at h
      obtain ⟨⟨k, d⟩, hk, heq⟩ := h
      obtain ⟨rfl, rfl⟩ : k + 1 = i ∧ d = a := by simpa using heq
      obtain ⟨hh, hp, hmin⟩ := ih hk
      refine ⟨by simpa using hh, hp, fun j b hj hb => ?_⟩
      rcases j with _ | j
      · simp at hb
      · exact hmin j b (by omega) (by simpa using hb)
    · by_cases hc : p c = true
      · simp only [find, hc, if_true, Option.some.injEq, Prod.mk.injEq] at h
        obtain ⟨rfl, rfl⟩ := h
        exact ⟨by simp, hc, fun j b hj => absurd hj (by omega)⟩
      · simp only [find, hc, if_false, Option.map_eq_some_iff, Bool.false_eq_true] at h
        obtain ⟨⟨k, d⟩, hk, heq⟩ := h
        obtain ⟨rfl, rfl⟩ : k + 1 = i ∧ d = a := by simpa using heq
        obtain ⟨hh, hp, hmin⟩ := ih hk
        refine ⟨by simpa using hh, hp, fun j b hj hb => ?_⟩
        rcases j with _ | j
        · obtain rfl : c = b := by simpa using hb
          simpa using hc
        · exact hmin j b (by omega) (by simpa using hb)

/-- `find` finds nothing exactly when no entry satisfies `p`. -/
theorem find_eq_none_iff : find p t = none ↔ ∀ i a, Holds t i a → p a = false := by
  constructor
  · intro h
    induction t with
    | nil => intro i a ha; simp [Holds] at ha
    | cons x t ih =>
      intro i a ha
      rcases x with _ | c
      · simp only [find, Option.map_eq_none_iff] at h
        rcases i with _ | i
        · simp at ha
        · exact ih h i a (by simpa using ha)
      · by_cases hc : p c = true
        · simp [find, hc] at h
        · simp only [find, hc, if_false, Option.map_eq_none_iff, Bool.false_eq_true] at h
          rcases i with _ | i
          · obtain rfl : c = a := by simpa using ha
            simpa using hc
          · exact ih h i a (by simpa using ha)
  · intro h
    rcases hf : find p t with _ | ⟨i, a⟩
    · rfl
    · obtain ⟨hh, hp, -⟩ := find_eq_some hf
      rw [h i a hh] at hp
      cases hp

/-- `find` returns an entry with the property, or one in a slot before it. -/
theorem find_of_holds_or (h : Holds t i a) (hp : p a = true) :
    find p t = some (i, a) ∨ ∃ j b, j < i ∧ find p t = some (j, b) := by
  rcases hf : find p t with _ | ⟨j, b⟩
  · rw [find_eq_none_iff.1 hf i a h] at hp
    cases hp
  · obtain ⟨hb, -, hmin⟩ := find_eq_some hf
    obtain hlt | rfl | hlt := lt_trichotomy i j
    · rw [hmin i a hlt h] at hp
      cases hp
    · rw [hb.unique h]
      exact .inl rfl
    · exact .inr ⟨j, b, hlt, rfl⟩

/-- `find` returns an entry with the property exactly when no slot before it has one. -/
theorem find_eq_some_iff (h : Holds t i a) (hp : p a = true) :
    find p t = some (i, a) ↔ ∀ j b, j < i → Holds t j b → p b = false := by
  constructor
  · intro hf
    exact (find_eq_some hf).2.2
  · intro hfirst
    obtain hf | ⟨j, b, hlt, hf⟩ := find_of_holds_or h hp
    · exact hf
    · obtain ⟨hb, hpb, -⟩ := find_eq_some hf
      rw [hfirst j b hlt hb] at hpb
      cases hpb

/-- When an entry with the property satisfies `P`, the entry that `find` returns does exactly when
one found in a slot before it does. -/
theorem find_satisfies_iff {P : α → Prop} (h : Holds t i a) (hp : p a = true) (ha : P a) :
    (∃ j b, find p t = some (j, b) ∧ P b) ↔ ∀ j b, j < i → find p t = some (j, b) → P b := by
  constructor
  · rintro ⟨k, c, hc, hPc⟩ j b - hb
    obtain ⟨-, rfl⟩ := Prod.mk.inj (Option.some.inj (hc.symm.trans hb))
    exact hPc
  · intro hbefore
    obtain hf | ⟨j, b, hlt, hf⟩ := find_of_holds_or h hp
    · exact ⟨i, a, hf, ha⟩
    · exact ⟨j, b, hf, hbefore j b hlt hf⟩

/-- Where keys are distinct, the entry with a key is the one that `find` returns for it. -/
theorem find_of_holds {κ : Type*} [DecidableEq κ] {key : α → κ} (hd : DistinctKeys key t)
    (h : Holds t i a) : find (fun b => decide (key b = key a)) t = some (i, a) := by
  rcases hf : find (fun b => decide (key b = key a)) t with _ | ⟨j, b⟩
  · have := find_eq_none_iff.1 hf i a h
    simp at this
  · obtain ⟨hb, hkey, -⟩ := find_eq_some hf
    obtain rfl := hd j i b a hb h (by simpa using hkey)
    rw [hb.unique h]

/-- The first free slot is free, and every slot before it is in use. -/
theorem firstFree_eq_some (h : firstFree t = some i) : t[i]? = some none := by
  induction t generalizing i with
  | nil => simp [firstFree] at h
  | cons x t ih =>
    rcases x with _ | c
    · obtain rfl : 0 = i := by simpa [firstFree] using h
      rfl
    · simp only [firstFree, Option.map_eq_some_iff] at h
      obtain ⟨k, hk, rfl⟩ := h
      simpa using ih hk

/-- There is no free slot exactly when all are in use. -/
theorem firstFree_eq_none_iff : firstFree t = none ↔ used t = t.length := by
  induction t with
  | nil => simp [firstFree, used]
  | cons x t ih =>
    have hle := used_le_length (t := t)
    rcases x with _ | c
    · have hu : used (none :: t) = used t := by simp [used]
      simp only [firstFree, hu, length_cons, reduceCtorEq, false_iff]
      omega
    · have hu : used (some c :: t) = used t + 1 := by simp [used]
      simp [firstFree, hu, ih]

end Find

section Victim

variable {κ : Type*} [LinearOrder κ] (dead : α → Bool) (key : α → κ)

/-- What the scan returns from slot `i` on, when the slots before hold live entries and `oldest` has
the least key of them: a free or dead slot, or the slot of the least key of all. -/
theorem victimLoop_spec {t rest : List (Option α)} (ht : t ≠ []) {i : ℕ} (oldest : Option (ℕ × κ))
    (hrest : t.drop i = rest)
    (hlive : ∀ j < i, ∃ a, Holds t j a ∧ dead a = false) (hstart : oldest = none → i = 0)
    (hbest : ∀ x, oldest = some x → (∃ a, Holds t x.1 a ∧ key a = x.2) ∧
      ∀ j < i, ∀ b, Holds t j b → x.2 ≤ key b) :
    let r := victimLoop dead key i oldest rest
    t[r]? = some none ∨ (∃ a, Holds t r a ∧ dead a = true) ∨
      ((∀ j < t.length, ∃ a, Holds t j a ∧ dead a = false) ∧
        ∃ a, Holds t r a ∧ ∀ j b, Holds t j b → key a ≤ key b) := by
  induction rest generalizing i oldest with
  | nil =>
    have hend : t.length ≤ i := drop_eq_nil_iff.1 hrest
    rcases oldest with _ | x
    · rw [hstart rfl] at hend
      exact absurd (length_eq_zero_iff.1 (Nat.le_zero.1 hend)) ht
    · obtain ⟨⟨a, ha, hkey⟩, hleast⟩ := hbest x rfl
      refine .inr (.inr ⟨fun j hj => hlive j (hj.trans_le hend), a, ha, fun j b hb => ?_⟩)
      exact hkey.trans_le (hleast j (hb.lt.trans_le hend) b hb)
  | cons y rest ih =>
    have hy : t[i]? = some y := by rw [← head?_drop, hrest, head?_cons]
    have hnext : t.drop (i + 1) = rest := by rw [← tail_drop, hrest, tail_cons]
    rcases y with _ | c
    · exact .inl hy
    by_cases hdead : dead c = true
    · refine .inr (.inl ⟨c, ?_, hdead⟩)
      simpa [victimLoop, hdead, Holds] using hy
    rw [Bool.not_eq_true] at hdead
    have hlive' : ∀ j < i + 1, ∃ a, Holds t j a ∧ dead a = false := by
      intro j hj
      rcases Nat.lt_succ_iff_lt_or_eq.1 hj with hj | rfl
      · exact hlive j hj
      · exact ⟨c, hy, hdead⟩
    -- The best slot for the rest of the scan is that of `c` or the old one.
    obtain ⟨best, heq, hholds, hc, hold⟩ : ∃ best : ℕ × κ,
        victimLoop dead key i oldest (some c :: rest) =
          victimLoop dead key (i + 1) (some best) rest ∧
        (∃ a, Holds t best.1 a ∧ key a = best.2) ∧ best.2 ≤ key c ∧
        ∀ j < i, ∀ b, Holds t j b → best.2 ≤ key b := by
      rcases oldest with _ | x
      · refine ⟨(i, key c), by simp [victimLoop, hdead], ⟨c, hy, rfl⟩, le_rfl, fun j hj => ?_⟩
        rw [hstart rfl] at hj
        exact absurd hj (Nat.not_lt_zero j)
      · obtain ⟨hx, hleast⟩ := hbest x rfl
        by_cases hlt : key c < x.2
        · exact ⟨(i, key c), by simp [victimLoop, hdead, hlt], ⟨c, hy, rfl⟩, le_rfl,
            fun j hj b hb => hlt.le.trans (hleast j hj b hb)⟩
        · exact ⟨x, by simp [victimLoop, hdead, hlt], hx, not_lt.1 hlt, hleast⟩
    rw [heq]
    refine ih (some best) hnext hlive' nofun fun x hx => ?_
    obtain rfl := Option.some.inj hx
    refine ⟨hholds, fun j hj b hb => ?_⟩
    rcases Nat.lt_succ_iff_lt_or_eq.1 hj with hj | rfl
    · exact hold j hj b hb
    · rwa [← Option.some.inj (Option.some.inj (hy.symm.trans hb))]

/-- The slot that a new entry replaces is free or dead, or all slots hold live entries and its own
has the least key. -/
theorem victim_spec {t : List (Option α)} (ht : t ≠ []) : victim dead key t < t.length ∧
      (t[victim dead key t]? = some none ∨ (∃ a, Holds t (victim dead key t) a ∧ dead a = true) ∨
        ((∀ j < t.length, ∃ a, Holds t j a ∧ dead a = false) ∧
          ∃ a, Holds t (victim dead key t) a ∧ ∀ j b, Holds t j b → key a ≤ key b)) := by
  have hspec := victimLoop_spec dead key ht none drop_zero nofun (fun _ => rfl) nofun
  refine ⟨?_, hspec⟩
  rcases hspec with hfree | ⟨a, ha, -⟩ | ⟨-, a, ha, -⟩
  · exact (List.getElem?_eq_some_iff.1 hfree).1
  · exact ha.lt
  · exact ha.lt

end Victim

section Keys

variable {κ : Type*} {key : α → κ} {t : List (Option α)}

/-- Freeing a slot keeps keys distinct. -/
theorem DistinctKeys.set_none (h : DistinctKeys key t) (i : ℕ) :
    DistinctKeys key (t.set i none) := by
  intro j k a b ha hb hkey
  obtain ⟨-, -, hx⟩ | ⟨-, ha⟩ := holds_set.1 ha
  · cases hx
  obtain ⟨-, -, hx⟩ | ⟨-, hb⟩ := holds_set.1 hb
  · cases hx
  exact h j k a b ha hb hkey

/-- Writing an entry keeps keys distinct when no other slot has its key. -/
theorem DistinctKeys.set_some (h : DistinctKeys key t) {i : ℕ} {a : α}
    (hnew : ∀ j b, Holds t j b → key b = key a → j = i) : DistinctKeys key (t.set i (some a)) := by
  intro j k b c hb hc hkey
  rcases holds_set.1 hb with ⟨hji, -, hx⟩ | ⟨hji, hb⟩ <;>
    rcases holds_set.1 hc with ⟨hki, -, hy⟩ | ⟨hki, hc⟩
  · rw [hji, hki]
  · obtain rfl : a = b := by simpa using hx
    exact absurd (hnew k c hc hkey.symm) hki
  · obtain rfl : a = c := by simpa using hy
    exact absurd (hnew j b hb hkey) hji
  · exact h j k b c hb hc hkey

/-- A table of free slots has distinct keys. -/
theorem distinctKeys_replicate (n : ℕ) :
    DistinctKeys key (List.replicate n (none : Option α)) := fun _ _ _ _ ha =>
  absurd ha not_holds_replicate

/-- The keys of the entries in use, listed, have no repetition. -/
theorem DistinctKeys.nodup_entries (h : DistinctKeys key t) : ((entries t).map key).Nodup := by
  unfold entries
  rw [map_filterMap]
  unfold List.Nodup
  rw [pairwise_filterMap, pairwise_iff_getElem]
  intro i j hi hj hij x hx y hy hxy
  obtain ⟨a, ha, rfl⟩ : ∃ a, t[i] = some a ∧ key a = x := by simpa using hx
  obtain ⟨b, hb, rfl⟩ : ∃ b, t[j] = some b ∧ key b = y := by simpa using hy
  have hai : Holds t i a := by rw [Holds, getElem?_eq_getElem hi, ha]
  have hbj : Holds t j b := by rw [Holds, getElem?_eq_getElem hj, hb]
  have := h i j a b hai hbj hxy
  omega

end Keys

end Slots
