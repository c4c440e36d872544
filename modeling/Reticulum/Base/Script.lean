import Mathlib.Tactic

/-!
# Scripts of writes

An operation on a store that can fail between two of its writes is a script: the records that it
writes one after the other, and the status that it returns behind the last one. A run stops at the
first record that is not written. `Script.run_rule` is the induction over runs: a script that is at
its end, a record that is not written, and one that is. `Script.Ran` says which of the records a run
left, by its status.
-/

/-- Records to write one after the other, and the status behind them. -/
inductive Script (R E : Type*)
  | stop (status : E)
  | write (record : R) (next : Script R E)

namespace Script

open List

variable {R E S : Type*}

/-- The records of a script. -/
def records : Script R E → List R
  | stop _ => []
  | write record next => record :: next.records

/-- The status behind all of them. -/
def status : Script R E → E
  | stop status => status
  | write _ next => next.status

/-- A script that has a first record starts with it. -/
theorem exists_of_head {script : Script R E} {record : R} (h : script.records.head? = some record) :
    ∃ next, script = write record next := by
  cases script with
  | stop => cases h
  | write _ next =>
    cases h
    exact ⟨next, rfl⟩

/-- Other records before those of a script. -/
def after (next : Script R E) (records : List R) : Script R E := records.foldr write next

theorem records_after (next : Script R E) (xs : List R) :
    (next.after xs).records = xs ++ next.records := by
  induction xs with
  | nil => rfl
  | cons x xs ih => exact congrArg (x :: ·) ih

theorem status_after (next : Script R E) (xs : List R) : (next.after xs).status = next.status := by
  induction xs with
  | nil => rfl
  | cons x xs ih => exact ih

variable [DecidableEq E] (ok : E) (append : S → R → E × S)

/-- A run on a store, which stops at the first record whose write does not return `ok`. -/
def run : Script R E → S → E × S
  | stop status, s => (status, s)
  | write record next, s =>
    if (append s record).1 = ok then next.run (append s record).2 else append s record

variable {ok append}

theorem run_of_ok {record : R} {s s' : S} (h : append s record = (ok, s')) (next : Script R E) :
    (write record next).run ok append s = next.run ok append s' := by
  rw [run, h, if_pos rfl]

theorem run_of_failed {record : R} {s : S} (h : (append s record).1 ≠ ok) (next : Script R E) :
    (write record next).run ok append s = append s record := if_neg h

variable (ok append)

theorem run_write_stop (record : R) (s : S) :
    (write record (stop ok)).run ok append s = append s record := by
  unfold run
  split_ifs with hok
  · rw [← hok]
    rfl
  · rfl

/-- The induction over runs. -/
theorem run_rule {motive : S → Script R E → E × S → Prop}
    (hstop : ∀ s status, motive s (stop status) (status, s))
    (hfailed : ∀ s record next, (append s record).1 ≠ ok →
      motive s (write record next) (append s record))
    (hwritten : ∀ s record next r, (append s record).1 = ok → motive (append s record).2 next r →
      motive s (write record next) r)
    (script : Script R E) (s : S) : motive s script (script.run ok append s) := by
  induction script generalizing s with
  | stop status => exact hstop s status
  | write record next ih =>
    unfold run
    split_ifs with hok
    · exact hwritten s record next _ hok (ih _)
    · exact hfailed s record next hok

/-- What a run did to the contents of a store, on which a record acts by `apply`. -/
structure Ran {C : Type*} (apply : C → R → C) (script : Script R E) (status : E) (before after : C) :
    Prop where
  /-- With `ok` all records are written. -/
  written : status = ok → script.status = ok ∧ after = script.records.foldl apply before
  /-- With another status the first ones are, and not all of them where `ok` would have come
  next. -/
  failed : status ≠ ok → ∃ done, done <+: script.records ∧ after = done.foldl apply before ∧
    (script.status = ok → done ≠ script.records)

/-- Where a write changes the contents just when it returns `ok`, a run ends in this way. -/
theorem ran_run {C : Type*} {apply : C → R → C} {contents : S → C}
    (happend : ∀ s record, contents (append s record).2 =
      if (append s record).1 = ok then apply (contents s) record else contents s)
    (script : Script R E) (s : S) :
    Ran ok apply script (script.run ok append s).1 (contents s) (contents (script.run ok append s).2)
    := by
  refine run_rule (motive := fun s script r => Ran ok apply script r.1 (contents s) (contents r.2))
    ok append (fun s status => ?_) (fun s record next hnot => ?_)
    (fun s record next r hok hrest => ?_) script s
  · exact ⟨fun hok => ⟨hok, rfl⟩, fun hnot => ⟨[], prefix_rfl, rfl, fun hok => absurd hok hnot⟩⟩
  · refine ⟨fun hok => absurd hok hnot, fun _ => ⟨[], nil_prefix, ?_, fun _ => nofun⟩⟩
    rw [happend, if_neg hnot]
    rfl
  · have hcontents := happend s record
    rw [if_pos hok] at hcontents
    obtain ⟨hwritten, hfailed⟩ := hrest
    rw [hcontents] at hwritten hfailed
    refine ⟨hwritten, fun hnot => ?_⟩
    obtain ⟨done, hdone, hafter, hall⟩ := hfailed hnot
    exact ⟨record :: done, (prefix_cons_inj record).mpr hdone, hafter,
      fun hok hsame => hall hok (cons.inj hsame).2⟩

end Script
