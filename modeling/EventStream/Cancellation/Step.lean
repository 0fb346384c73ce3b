import EventStream.Cancellation.Basic
/-!
# Steps of a cancellation pair

What the owners of the handles and of the signal can do, as data, so that whole histories can be
written down.

## Main definitions

* `Cancellation.Step` — one use of a handle or of the signal
* `Cancellation.Answer` — what such a use tells
* `Cancellation.step` — the effect of a step
-/

namespace EventStream.Cancellation

/-- One use of a cancellation pair. -/
inductive Step where
  /-- Cancels through a handle, or through the first live one after it. -/
  | fire (handle : Nat) (reason : String)
  /-- Asks the signal for the reason. -/
  | check
  /-- Asks the signal whether it has been cancelled. -/
  | isCancelled
  /-- Clones the first live handle. -/
  | cloneHandle
  /-- Drops a handle. -/
  | dropHandle (handle : Nat)
  /-- Starts over with a fresh pair. -/
  | renew
deriving DecidableEq, Repr

/-- What a use of a cancellation pair tells. -/
inductive Answer where
  /-- Nothing. -/
  | silent
  /-- The reason that the signal sees, if any. -/
  | reason (reason : Option String)
  /-- A truth value. -/
  | flag (flag : Bool)
  /-- The length of the table of handles. -/
  | handles (count : Nat)
deriving DecidableEq, Repr

/-- What a step tells, and the pair after it. -/
def step (k : Cancellation) : Step → Answer × Cancellation
  | .fire handle reason => (.silent, k.fireFrom handle reason)
  | .check => (.reason k.check.1, k.check.2)
  | .isCancelled => (.flag k.isCancelled.1, k.isCancelled.2)
  | .cloneHandle => (.handles k.cloneHandle.handles.length, k.cloneHandle)
  | .dropHandle handle => (.flag (k.dropHandle handle).1, (k.dropHandle handle).2)
  | .renew => (.silent, {})

end EventStream.Cancellation
