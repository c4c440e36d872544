import Mathlib.Tactic

/-!
# Logs

A log is a list of entries, oldest first. `Log.Always P` says that at every entry `P` holds of the
entries before it and of the entry, which is how a rule about what may be done when is stated of a
log. A log grows by one entry at a time, and `Log.always_concat` is all that such growth needs.
-/

namespace Log

open List

variable {α : Type*}

/-- At every entry of the log, `P` holds of what was before it and of the entry. -/
def Always (P : List α → α → Prop) (log : List α) : Prop :=
  ∀ before x after, log = before ++ x :: after → P before x

theorem always_nil (P : List α → α → Prop) : Always P [] := by
  intro before x after h
  simp at h

/-- A rule holds of a log with one more entry when it holds of the log and of the new entry. -/
theorem always_concat {P : List α → α → Prop} {log : List α} {x : α} (h : Always P log)
    (hx : P log x) : Always P (log ++ [x]) := by
  intro before y after heq
  rcases eq_nil_or_concat after with rfl | ⟨after, z, rfl⟩
  · obtain ⟨rfl, hy⟩ := append_inj' heq rfl
    obtain rfl := head_eq_of_cons_eq hy
    exact hx
  · rw [concat_eq_append, ← cons_append, ← append_assoc] at heq
    exact h before y after (append_inj' heq rfl).1

/-- A rule that holds of a log holds of every part it starts with. -/
theorem Always.of_append {P : List α → α → Prop} {log rest : List α}
    (h : Always P (log ++ rest)) : Always P log := by
  intro before x after heq
  exact h before x (after ++ rest) (by rw [heq, append_assoc, cons_append])

/-- A log keeps a rule that is weaker than one it keeps. -/
theorem Always.mono {P Q : List α → α → Prop} {log : List α} (h : Always P log)
    (hPQ : ∀ before x, P before x → Q before x) : Always Q log :=
  fun before x after heq => hPQ before x (h before x after heq)

end Log
