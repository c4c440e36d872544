import Mathlib.Tactic

/-!
# Serial numbers

A counter that wraps at `m` names the `a`-th item by `a % m`. Two items are compared through the
wrapped difference of their names: `distance m s base` is how far `s` lies ahead of `base` on the
circle of `m` names. When the items are less than half the circle apart, the wrapped names order
them as their true positions do.
-/

namespace Serial

/-- How far the name `s` lies ahead of the name `base`, on a circle of `m` names. -/
def distance (m s base : ℕ) : ℕ := (s + (m - base)) % m

/-- The distance between the names of two items is their true difference modulo the circle. -/
theorem distance_mod (m a e : ℕ) (hm : 0 < m) :
    (distance m (a % m) (e % m) : ℤ) = ((a : ℤ) - e) % m := by
  have he : e % m ≤ m := (Nat.mod_lt e hm).le
  have hcast : ((a % m + (m - e % m) : ℕ) : ℤ) = (a : ℤ) % m - (e : ℤ) % m + m := by
    push_cast [Nat.cast_sub he]
    ring
  unfold distance
  rw [Int.natCast_mod, hcast, Int.add_emod_right, ← Int.sub_emod]

/-- An item ahead by less than the circle is at its true distance. -/
theorem distance_of_le {m a e : ℕ} (hle : e ≤ a) (hlt : a < e + m) :
    distance m (a % m) (e % m) = a - e := by
  have h := distance_mod m a e (by omega)
  rw [Int.emod_eq_of_lt (by omega) (by omega)] at h
  omega

/-- An item behind by at most the circle is at the circle less its true distance. -/
theorem distance_of_lt {m a e : ℕ} (hlt : a < e) (hle : e ≤ a + m) :
    (distance m (a % m) (e % m) = m - (e - a)) := by
  have h := distance_mod m a e (by omega)
  rw [← Int.add_emod_right] at h
  rw [Int.emod_eq_of_lt (by omega) (by omega)] at h
  omega

/-- Half-range order: for items within half a circle of each other, the item named `a % m` is
behind exactly when its distance is at least the half circle. -/
theorem half_le_distance_iff {half a e : ℕ} (hlo : e ≤ a + half) (hhi : a < e + half) :
    half ≤ distance (2 * half) (a % (2 * half)) (e % (2 * half)) ↔ a < e := by
  rcases Nat.lt_or_ge a e with h | h
  · rw [distance_of_lt h (by omega)]
    omega
  · rw [distance_of_le h (by omega)]
    omega

/-- Items less than a circle apart that have the same name are the same item. -/
theorem eq_of_mod_eq {m a b : ℕ} (h : a % m = b % m) (hab : a < b + m) (hba : b < a + m) :
    a = b := by
  rcases Nat.le_total b a with hle | hle
  · have hd := distance_of_le hle hab
    have hself := distance_of_le (le_refl b) (show b < b + m by omega)
    rw [h, hself] at hd
    omega
  · have hd := distance_of_le hle hba
    have hself := distance_of_le (le_refl a) (show a < a + m by omega)
    rw [← h, hself] at hd
    omega

end Serial
