import Mathlib.Tactic

/-!
# Rings of numbered buckets

A history of amounts by number (an epoch, a minute) that is kept in a fixed ring: number `k` has its
bucket in slot `k % n`, and a bucket remembers its number, so that a slot is taken over when a later
number comes round to it. `Buckets.add` adds to the bucket of a number and `Buckets.total` sums the
buckets whose numbers lie in an interval.

The ring is right about a stretch of numbers shorter than one turn (`Buckets.Keeps`): what is added
to a number of the stretch is found there, and what a slot loses was before the stretch. The sum
over an interval inside the stretch is then the sum of the history (`Keeps.total_eq`).

Amounts may come from intervals that are cut at the multiples of a unit: `share` is the length of an
interval that falls to a number.
-/

namespace Buckets

open Finset Nat Function Option

/-- A bucket in use: its number and its amount. -/
structure Bucket where
  number : ℕ
  amount : ℕ
deriving DecidableEq

/-- The amount of number `k` in its slot, zero when the slot is free or has another number. -/
def amountAt (ring : List (Option Bucket)) (k : ℕ) : ℕ :=
  match ring[k % ring.length]? with
  | some (some b) => if b.number = k then b.amount else 0
  | _ => 0

/-- Adds an amount to number `k`, whose slot is taken over if it has another number. -/
def add (ring : List (Option Bucket)) (k v : ℕ) : List (Option Bucket) :=
  ring.set (k % ring.length) (some ⟨k, amountAt ring k + v⟩)

/-- The sum of the buckets with numbers from `lo` to `hi`. -/
def total (ring : List (Option Bucket)) (lo hi : ℕ) : ℕ :=
  (ring.map fun x => x.elim 0 fun b => if lo ≤ b.number ∧ b.number ≤ hi then b.amount else 0).sum

@[simp]
theorem length_add (ring : List (Option Bucket)) (k v : ℕ) :
    (add ring k v).length = ring.length := by
  simp [add]

/-- The ring holds the history `A` from number `lo` on: a bucket is in the slot of its number with
the amount of the history, every number from `lo` with an amount has its bucket, and no number is
above `hi`, which is less than a turn after `lo`. -/
structure Keeps (ring : List (Option Bucket)) (A : ℕ → ℕ) (lo hi : ℕ) : Prop where
  pos : 0 < ring.length
  turn : hi < lo + ring.length
  slot : ∀ (i : ℕ) (b : Bucket), ring[i]? = some (some b) →
    b.number % ring.length = i ∧ b.amount = A b.number
  present : ∀ k, lo ≤ k → A k ≠ 0 → ring[k % ring.length]? = some (some ⟨k, A k⟩)
  above : ∀ k, hi < k → A k = 0
  bucket_le : ∀ (i : ℕ) (b : Bucket), ring[i]? = some (some b) → b.number ≤ hi

variable {ring : List (Option Bucket)} {A : ℕ → ℕ} {lo hi : ℕ}

/-- The amount of a number of the stretch is that of the history. -/
theorem Keeps.amountAt_eq (h : Keeps ring A lo hi) {k : ℕ} (hk : lo ≤ k) :
    amountAt ring k = A k := by
  unfold amountAt
  by_cases hA : A k = 0
  · rcases hslot : ring[k % ring.length]? with _ | _ | b
    · simp [hA]
    · simp [hA]
    · by_cases hb : b.number = k
      · simp [hb, (h.slot _ b hslot).2]
      · simp [hb, hA]
  · rw [h.present k hk hA]
    simp

/-- The stretch may move up, as long as it stays shorter than a turn. -/
theorem Keeps.mono (h : Keeps ring A lo hi) {lo' hi' : ℕ} (hlo : lo ≤ lo') (hhi : hi ≤ hi')
    (hturn : hi' < lo' + ring.length) : Keeps ring A lo' hi' :=
  { pos := h.pos
    turn := hturn
    slot := h.slot
    present := fun k hk => h.present k (hlo.trans hk)
    above := fun k hk => h.above k (hhi.trans_lt hk)
    bucket_le := fun i b hb => (h.bucket_le i b hb).trans hhi }

/-- Two numbers of a stretch in one slot are the same. -/
theorem eq_of_mod_eq {n j k : ℕ} (hmod : j % n = k % n) (hj : j < k + n) (hk : k < j + n) :
    j = k := by
  rcases le_total j k with hle | hle
  · have hdvd : n ∣ k - j := (modEq_iff_dvd' hle).1 hmod
    rcases Nat.eq_zero_or_pos (k - j) with hzero | hpos
    · omega
    · have := le_of_dvd hpos hdvd
      omega
  · have hdvd : n ∣ j - k := (modEq_iff_dvd' hle).1 hmod.symm
    rcases Nat.eq_zero_or_pos (j - k) with hzero | hpos
    · omega
    · have := le_of_dvd hpos hdvd
      omega

/-- Adding to a number of the stretch adds to the history. -/
theorem Keeps.add (h : Keeps ring A lo hi) {k v : ℕ} (hlo : lo ≤ k) (hhi : k ≤ hi) :
    Keeps (add ring k v) (Function.update A k (A k + v)) lo hi := by
  have hlt : k % ring.length < ring.length := mod_lt _ h.pos
  have hset : (Buckets.add ring k v)[k % ring.length]? = some (some ⟨k, A k + v⟩) := by
    simp [Buckets.add, hlt, h.amountAt_eq hlo]
  have hother : ∀ i, i ≠ k % ring.length → (Buckets.add ring k v)[i]? = ring[i]? :=
    fun i hi => List.getElem?_set_ne hi.symm
  refine ⟨by simpa using h.pos, by simpa using h.turn, fun i b hb => ?_, fun j hj hne => ?_,
    fun j hj => ?_, fun i b hb => ?_⟩
  · rw [length_add]
    by_cases hi : i = k % ring.length
    · subst hi
      obtain rfl := some.inj (some.inj (hset.symm.trans hb))
      simp
    · rw [hother i hi] at hb
      obtain ⟨hmod, hamount⟩ := h.slot i b hb
      have hne : b.number ≠ k := fun heq => hi (by rw [← hmod, heq])
      exact ⟨hmod, by rw [update_of_ne hne]; exact hamount⟩
  · rw [length_add]
    by_cases hjk : j = k
    · subst hjk
      rw [update_self]
      exact hset
    · rw [update_of_ne hjk] at hne ⊢
      -- A number of the stretch with an amount has a slot of its own.
      have hjhi : j ≤ hi := by
        by_contra hgt
        exact hne (h.above j (by omega))
      have hslot : j % ring.length ≠ k % ring.length := fun heq =>
        hjk (eq_of_mod_eq heq (by have := h.turn; omega) (by have := h.turn; omega))
      rw [hother _ hslot]
      exact h.present j hj hne
  · rw [update_of_ne (by omega)]
    exact h.above j hj
  · by_cases hi : i = k % ring.length
    · subst hi
      obtain rfl := some.inj (some.inj (hset.symm.trans hb))
      exact hhi
    · rw [hother i hi] at hb
      exact h.bucket_le i b hb

/-- The sum of a ring over an interval of the stretch is the sum of the history. -/
theorem Keeps.total_eq (h : Keeps ring A lo hi) {a b : ℕ} (ha : lo ≤ a) :
    total ring a b = ∑ k ∈ Finset.Icc a b, A k := by
  -- Each slot contributes what the numbers of the interval in that slot have.
  have hslot : ∀ i < ring.length, (ring[i]?.join.elim 0 fun c =>
      if a ≤ c.number ∧ c.number ≤ b then c.amount else 0) =
      ∑ k ∈ Finset.Icc a b with k % ring.length = i, A k := by
    intro i hi
    rcases hring : ring[i]? with _ | _ | c
    · rw [List.getElem?_eq_none_iff] at hring
      omega
    · symm
      apply sum_eq_zero
      intro k hk
      rw [mem_filter, mem_Icc] at hk
      by_contra hne
      have hk' := h.present k (ha.trans hk.1.1) hne
      rw [hk.2, hring] at hk'
      cases hk'
    · obtain ⟨hmod, hamount⟩ := h.slot i c hring
      have hzero : ∀ k ∈ (Finset.Icc a b).filter (· % ring.length = i), k ≠ c.number → A k = 0 := by
        intro k hk hkc
        rw [mem_filter, mem_Icc] at hk
        by_contra hne
        have hk' := h.present k (ha.trans hk.1.1) hne
        rw [hk.2, hring] at hk'
        exact hkc (by rw [some.inj (some.inj hk')])
      simp only [join_some, elim_some]
      by_cases hin : a ≤ c.number ∧ c.number ≤ b
      · rw [if_pos hin, sum_eq_single c.number hzero, hamount]
        intro hout
        exact absurd (mem_filter.2 ⟨mem_Icc.2 hin, hmod⟩) hout
      · rw [if_neg hin]
        symm
        apply sum_eq_zero
        intro k hk
        refine hzero k hk fun hkc => hin ?_
        rw [mem_filter, mem_Icc] at hk
        rw [← hkc]
        exact hk.1
  have hsum : total ring a b = ∑ i ∈ .range ring.length, (ring[i]?.join.elim 0 fun c =>
      if a ≤ c.number ∧ c.number ≤ b then c.amount else 0) := by
    unfold total
    rw [sum_range, ← Fin.sum_univ_fun_getElem]
    apply sum_congr rfl
    intro i _
    rw [List.getElem?_eq_getElem i.2, join_some]
  rw [hsum, sum_congr rfl fun i hi => hslot i (mem_range.1 hi)]
  exact sum_fiberwise_of_maps_to (fun k _ => mem_range.2 (mod_lt k h.pos)) A

/-- The empty ring holds the empty history. -/
theorem keeps_replicate {n : ℕ} (hturn : hi < lo + n) (hn : 0 < n) :
    Keeps (List.replicate n none) (fun _ => 0) lo hi := by
  have hno : ∀ (i : ℕ) (b : Bucket),
      (List.replicate n (none : Option Bucket))[i]? ≠ some (some b) := by
    intro i b hb
    rw [List.getElem?_replicate] at hb
    split_ifs at hb
    cases hb
  exact ⟨by simpa, by simpa, fun i b hb => absurd hb (hno i b), fun k _ hk => absurd rfl hk,
    fun _ _ => rfl, fun i b hb => absurd hb (hno i b)⟩

/-! ## Intervals cut at the multiples of a unit -/

/-- How much of the interval of some length from `start` on lies in the `k`-th unit. -/
def share (unit start length k : ℕ) : ℕ :=
  min (start + length) ((k + 1) * unit) - max start (k * unit)

/-- The share of the unit in which an interval starts, and those of the interval that is left, which
starts at the next unit. -/
theorem share_step {unit j offset : ℕ} (hoffset : offset < unit) (length k : ℕ) :
    share unit (j * unit + offset) length k = (if k = j then min length (unit - offset) else 0) +
        share unit ((j + 1) * unit) (length - min length (unit - offset)) k := by
  unfold share
  rcases lt_trichotomy k j with hlt | rfl | hgt
  · have hk : (k + 1) * unit ≤ j * unit := mul_le_mul_right _ hlt
    have hj : (j + 1) * unit = j * unit + unit := succ_mul j unit
    rw [if_neg hlt.ne]
    omega
  · have hk : (k + 1) * unit = k * unit + unit := succ_mul k unit
    rw [if_pos rfl]
    omega
  · have hk : (j + 1) * unit ≤ k * unit := mul_le_mul_right _ hgt
    have hj : (j + 1) * unit = j * unit + unit := succ_mul j unit
    rw [if_neg hgt.ne']
    omega

/-- An empty interval has no share. -/
theorem share_zero (unit start k : ℕ) : share unit start 0 k = 0 := by
  unfold share
  omega

/-- Nothing of an interval lies before the unit in which it starts. -/
theorem share_eq_zero_of_lt {unit start length k : ℕ} (h : k < start / unit) :
    share unit start length k = 0 := by
  have hk : (k + 1) * unit ≤ start := (mul_le_mul_right _ h).trans (div_mul_le_self _ _)
  unfold share
  omega

/-- The shares of an interval add up to no more than its length. -/
theorem sum_share_le (unit start length a b : ℕ) :
    ∑ k ∈ Finset.Icc a b, share unit start length k ≤ length := by
  -- The shares of the units up to a point are the part of the interval before that point.
  have hprefix : ∀ n, ∑ k ∈ .range n, share unit start length k =
      min (start + length) (max start (n * unit)) - start := by
    intro n
    induction n with
    | zero => simp
    | succ n ih =>
      have hn : (n + 1) * unit = n * unit + unit := succ_mul n unit
      rw [sum_range_succ, ih]
      unfold share
      omega
  have hsub : Finset.Icc a b ⊆ .range (b + 1) := by
    intro k hk
    rw [mem_Icc] at hk
    rw [mem_range]
    omega
  calc ∑ k ∈ Finset.Icc a b, share unit start length k
      ≤ ∑ k ∈ .range (b + 1), share unit start length k := sum_le_sum_of_subset hsub
    _ = min (start + length) (max start ((b + 1) * unit)) - start := hprefix (b + 1)
    _ ≤ length := by omega

end Buckets
