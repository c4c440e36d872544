import Mathlib.Tactic

/-!
# Runs of a machine

A machine is a step function `step : S → A → S` on states and calls. `Run.final` is the state after
a list of calls, and `Run.Each` says that a property of the state before a call and of the call
holds at every call of a run. `Run.invariant` is the induction that all safety proofs share: what
holds at the start and is kept by every step holds in every state reached.
-/

namespace Run

open List

variable {S A : Type*} (step : S → A → S)

/-- The state after a list of calls. -/
def final (s : S) (calls : List A) : S := calls.foldl step s

/-- At every call of the run, `P` holds of the state before the call and of the call. -/
def Each (P : S → A → Prop) : S → List A → Prop
  | _, [] => True
  | s, a :: calls => P s a ∧ Each P (step s a) calls

@[simp]
theorem final_nil (s : S) : final step s [] = s := rfl

@[simp]
theorem final_cons (s : S) (a : A) (calls : List A) :
    final step s (a :: calls) = final step (step s a) calls := rfl

/-- A run in two parts ends where the second part ends from where the first one did. -/
theorem final_append (s : S) (xs ys : List A) :
    final step s (xs ++ ys) = final step (final step s xs) ys := foldl_append

variable {step}

variable {s : S} {calls : List A} {P : S → A → Prop}

/-- What always holds holds at every call. -/
theorem each_true (calls : List A) : Each step (fun _ _ => True) s calls := by
  induction calls generalizing s with
  | nil => trivial
  | cons a calls ih => exact ⟨trivial, ih⟩

/-- What holds of every call of the list holds at every call of the run. -/
theorem each_of_mem {P : A → Prop} (h : ∀ a ∈ calls, P a) : Each step (fun _ a => P a) s calls := by
  induction calls generalizing s with
  | nil => trivial
  | cons a calls ih =>
    rw [forall_mem_cons] at h
    exact ⟨h.1, ih h.2⟩

/-- A property holds at every call of a run in two parts when it does in both. -/
theorem each_append {xs ys : List A} :
    Each step P s (xs ++ ys) ↔ Each step P s xs ∧ Each step P (final step s xs) ys := by
  induction xs generalizing s with
  | nil => simp [Each]
  | cons a xs ih => simp [Each, ih, and_assoc]

/-- A property holds at every call of a run when it holds at the last call of every part of it. -/
theorem each_iff_forall_prefix :
    Each step P s calls ↔ ∀ past a, past ++ [a] <+: calls → P (final step s past) a := by
  constructor
  · rintro h past a ⟨rest, rfl⟩
    rw [each_append, each_append] at h
    exact h.1.2.1
  · intro h
    induction calls generalizing s with
    | nil => trivial
    | cons a calls ih =>
      refine ⟨h [] a (prefix_append [a] calls), ih ?_⟩
      intro past b hpast
      exact h (a :: past) b ((prefix_cons_inj a).mpr hpast)

/-- Two properties hold at every call of a run together when each does. -/
theorem Each.and {Q : S → A → Prop} (hP : Each step P s calls) (hQ : Each step Q s calls) :
    Each step (fun s a => P s a ∧ Q s a) s calls := by
  induction calls generalizing s with
  | nil => trivial
  | cons a calls ih => exact ⟨⟨hP.1, hQ.1⟩, ih hP.2 hQ.2⟩

/-- A weaker property holds at every call when a stronger one does. -/
theorem Each.mono {Q : S → A → Prop} (hP : Each step P s calls) (hPQ : ∀ s a, P s a → Q s a) :
    Each step Q s calls := by
  induction calls generalizing s with
  | nil => trivial
  | cons a calls ih => exact ⟨hPQ s a hP.1, ih hP.2⟩

/-- What holds at the start and is kept by every allowed step holds after every run whose steps
are allowed. -/
theorem invariant {Inv : S → Prop} {Ok : S → A → Prop}
    (hstep : ∀ s a, Inv s → Ok s a → Inv (step s a)) {s : S} {calls : List A} (h0 : Inv s)
    (hok : Each step Ok s calls) : Inv (final step s calls) := by
  induction calls generalizing s with
  | nil => exact h0
  | cons a calls ih => exact ih (hstep s a h0 hok.1) hok.2

/-- Two properties that agree at every call of a state of the invariant hold at every call of the
same runs. -/
theorem each_iff {Inv : S → Prop} {Q : S → A → Prop} (hstep : ∀ s a, Inv s → Inv (step s a))
    (hPQ : ∀ s a, Inv s → (P s a ↔ Q s a)) (calls : List A) (h0 : Inv s) :
    Each step P s calls ↔ Each step Q s calls := by
  induction calls generalizing s with
  | nil => exact .rfl
  | cons a calls ih => exact and_congr (hPQ s a h0) (ih (hstep s a h0))

/-- A property holds in every state of a run when every call keeps it, if for each call of a state
of the invariant where it holds there is a condition for that. -/
theorem forall_prefix_iff {Inv P : S → Prop} {Q : S → A → Prop}
    (hstep : ∀ s a, Inv s → Inv (step s a)) (hPQ : ∀ s a, Inv s → P s → (P (step s a) ↔ Q s a))
    {s : S} (calls : List A) (h0 : Inv s) (hP : P s) :
    (∀ past, past <+: calls → P (final step s past)) ↔ Each step Q s calls := by
  induction calls generalizing s with
  | nil =>
    refine iff_of_true (fun past hpast => ?_) trivial
    rw [prefix_nil.mp hpast]
    exact hP
  | cons a calls ih =>
    constructor
    · intro hall
      have hP' := hall [a] (prefix_append [a] calls)
      refine ⟨(hPQ s a h0 hP).mp hP', (ih (hstep s a h0) hP').mp fun past hpast => ?_⟩
      exact hall (a :: past) ((prefix_cons_inj a).mpr hpast)
    · rintro ⟨hQ, hrest⟩ past hpast
      rcases past with _ | ⟨b, past⟩
      · exact hP
      · obtain ⟨rfl, hrest'⟩ := cons_prefix_cons.mp hpast
        exact (ih (hstep s b h0) ((hPQ s b h0 hP).mpr hQ)).mpr hrest past hrest'

end Run
