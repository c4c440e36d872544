import Mathlib.Logic.Relation
import Reticulum.Runtime.Calls

/-!
# What a link of the runtime can do to its receipts

`View` is what matters of a link for its request receipts and for the resource that comes in: which
receipts are registered, their states, what the resource that comes in is for, and which callbacks
have ended a request or a resource. `Move` lists what can happen to it in one place, and the
functions of the runtime are sequences of moves, in `Runtime.Outcomes`. What is invariant is then
proved of the moves and never of the functions again.

One thing is not a move. When the next segment of a resource cannot be accepted, its request is
ended again though it may have ended before, and the application is called though the resource
stays: this is `Fault`.
-/

namespace Reticulum.Runtime

open Resource (Bzip2 Advertisement)

/-- A callback that ends a request, which is one with a last state, or a resource that was taken on
for the application. -/
inductive Ending
  | request (receipt : ℕ)
  | received (serial : ℕ)
deriving DecidableEq

/-- What an observation ends. -/
def Observation.ending : Observation → Option Ending
  | .request receipt last _ _ => if last = .pending then none else some (.request receipt)
  | .received (some serial) _ _ _ => some (.received serial)
  | _ => none

/-- A link as its receipts and the resource that comes in see it. -/
structure View where
  requests : List (Option ℕ)
  states : List RequestState
  freed : List ℕ
  /-- Whether no resource comes in. -/
  idle : Bool
  receipt : Option ℕ
  /-- The resource of the application that comes in. -/
  serial : Option ℕ
  taken : ℕ
  dangling : Bool
  endings : List Ending
deriving DecidableEq

/-- The view of a link. -/
def RuntimeLink.view (s : RuntimeLink) : View :=
  { requests := s.requests
    states := s.receipts.map RequestReceipt.state
    freed := s.freed
    idle := s.incoming.resource.isNone && s.incoming.assembled.isNone
    receipt := s.incoming.receipt
    serial := bif s.incoming.application then some s.incoming.serial else none
    taken := s.taken
    dangling := s.dangling
    endings := s.log.filterMap Observation.ending }

/-- A receipt is read or written. -/
def View.touch (v : View) (receipt : ℕ) : View :=
  if receipt ∈ v.freed then { v with dangling := true } else v

/-- The registered receipts are freed with the link. -/
def View.closed (v : View) : View :=
  { v with
    requests := v.requests.map (fun _ => none)
    freed := v.requests.reduceOption ++ v.freed }

/-- What can happen to a view. -/
inductive Move : View → View → Prop
  /-- A receipt is read that is registered, or that the resource comes in for. -/
  | touch (v : View) (r : ℕ) (h : some r ∈ v.requests ∨ v.receipt = some r) : Move v (v.touch r)
  /-- A pending request ends. -/
  | conclude (v : View) (r : ℕ) (state : RequestState) (hpending : v.states[r]? = some .pending)
      (hstate : state ≠ .pending) :
      Move v { v with
        states := v.states.set r state
        endings := v.endings ++ [.request r] }
  /-- A resource that is not for the application is dropped. -/
  | release (v : View) (h : v.serial = none) : Move v { v with idle := true, receipt := none }
  /-- A resource for the application ends. -/
  | finish (v : View) (k : ℕ) (h : v.serial = some k) :
      Move v { v with
        idle := true
        receipt := none
        serial := none
        endings := v.endings ++ [.received k] }
  /-- A resource is taken on as the response of a request. -/
  | takeReceipt (v : View) (r : ℕ) (hidle : v.idle = true) (h : some r ∈ v.requests) :
      Move v { v with idle := false, receipt := some r, serial := none }
  /-- A resource is taken on for the application. -/
  | takeApplication (v : View) (hidle : v.idle = true) :
      Move v { v with
        idle := false
        receipt := none
        serial := some v.taken
        taken := v.taken + 1 }
  /-- A request is made. -/
  | register (v : View) (slot : ℕ) (h : v.requests[slot]? = some none) :
      Move v { v with
        states := v.states ++ [.pending]
        requests := v.requests.set slot (some v.states.length) }

/-- The next segment of a resource could not be accepted, though its request has ended or it is for
the application. -/
inductive Fault : View → View → Prop
  | request (v : View) (r : ℕ) (hr : v.receipt = some r) (h : v.states[r]? ≠ some .pending) :
      Fault v { v with
        states := v.states.set r .failed
        endings := v.endings ++ [.request r] }
  | received (v : View) (k : ℕ) (h : v.serial = some k) :
      Fault v { v with endings := v.endings ++ [.received k] }

/-- What a call can do: moves, and in a call that `refuses` a segment a fault as the last thing. -/
def Outcome (refuses : Bool) (v w : View) : Prop :=
  if refuses then ∃ u, Relation.ReflTransGen Move v u ∧ Fault u w
  else Relation.ReflTransGen Move v w

/-- A sequence of moves. -/
abbrev Steps : View → View → Prop := Relation.ReflTransGen Move

/-- One move is a sequence. -/
theorem Move.steps {v w : View} (h : Move v w) : Steps v w := .single h

/-- Views that are equal are a sequence of no moves. -/
theorem Steps.of_eq {v w : View} (h : v = w) : Steps v w := h ▸ .refl

/-- Moves before what a call does. -/
theorem Outcome.after {refuses : Bool} {u v w : View} (hfirst : Steps u v)
    (h : Outcome refuses v w) : Outcome refuses u w := by
  cases refuses with
  | false => exact hfirst.trans h
  | true =>
    obtain ⟨x, hsteps, hfault⟩ := h
    exact ⟨x, hfirst.trans hsteps, hfault⟩

/-- What a resource that comes in is for: nothing when there is none, and not both a request and
the application. -/
structure View.Sane (v : View) : Prop where
  idle : v.idle = true → v.receipt = none ∧ v.serial = none
  receipt : ∀ r, v.receipt = some r → v.serial = none

/-- A read changes nothing but what it says of pointers that dangle. -/
@[simp]
theorem View.touch_eq (v : View) (r : ℕ) :
    v.touch r = { v with dangling := v.dangling || decide (r ∈ v.freed) } := by
  unfold View.touch
  split
  · simp [*]
  · simp [*]

/-- A move keeps what a resource is for in order. -/
theorem Move.sane {v w : View} (h : Move v w) (hv : v.Sane) : w.Sane := by
  cases h with
  | touch r h => exact ⟨by simpa using hv.idle, by simpa using hv.receipt⟩
  | conclude r state hpending hstate => exact ⟨hv.idle, hv.receipt⟩
  | release h => exact ⟨fun _ => ⟨rfl, h⟩, nofun⟩
  | finish k h => exact ⟨fun _ => ⟨rfl, rfl⟩, nofun⟩
  | takeReceipt r hidle h => exact ⟨Bool.noConfusion, fun _ _ => rfl⟩
  | takeApplication hidle => exact ⟨Bool.noConfusion, nofun⟩
  | register slot h => exact ⟨hv.idle, hv.receipt⟩

/-- Moves keep what a resource is for in order. -/
theorem Steps.sane {v w : View} (h : Steps v w) (hv : v.Sane) : w.Sane := by
  induction h with
  | refl => exact hv
  | tail _ hmove ih => exact hmove.sane ih

/-- What ends nothing may be told. -/
theorem RuntimeLink.view_tell (s : RuntimeLink) {o : Observation} (h : o.ending = none) :
    (s.tell o).view = s.view := by
  simp [view, tell, h]

@[simp]
theorem RuntimeLink.view_linkNotify (s : RuntimeLink) (state : LinkState) (reason : Status) :
    (s.linkNotify state reason).view = s.view := view_tell s rfl

end Reticulum.Runtime
