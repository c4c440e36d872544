import Mathlib.Tactic

/-!
# Status codes

`rns_status_t` of `include/reticulum/status.h`, which every fallible call returns.
-/

namespace Reticulum

/-- `rns_status_t`. -/
inductive Status
  | ok
  | invalidArgument
  | noMemory
  | io
  | timeout
  | crypto
  | protocol
  | notFound
  | invalidState
  | unsupported
  | overflow
  | quarantined
deriving DecidableEq, Repr

end Reticulum
