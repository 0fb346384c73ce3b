import EventStream.Cancellation.Mailbox
/-!
# Cancellation

A delivery can be cancelled from outside. The one who cancels holds a handle, the delivery watches a
signal. Handles can be cloned and dropped; all of them reach the signal through one mailbox, which
closes when the last handle is dropped. The signal remembers the first reason that it finds in the
mailbox and then closes it, so later reasons are lost.

## Main definitions

* `Cancellation` — the handles, the mailbox and what the signal remembers
* `Cancellation.fireFrom`, `Cancellation.fire` — cancel through a live handle
* `Cancellation.check`, `Cancellation.isCancelled` — what the signal sees
* `Cancellation.cloneHandle`, `Cancellation.dropHandle` — change the handles
-/

namespace EventStream

/-- A signal together with the handles that can cancel it. -/
@[ext] structure Cancellation where
  /-- The handles in the order of their making; `false` stands for a handle that is gone. -/
  handles : List Bool := [true]
  /-- The mailbox between the handles and the signal. -/
  mailbox : Mailbox := {}
  /-- The reason that the signal remembers. -/
  reason : Option String := none
deriving DecidableEq, Repr

namespace Cancellation

/-- The reason of a cancellation for which none was given. -/
def defaultReason : String := "cancelled by caller"

/-- Some handle at this place of the table or after it is live. -/
def HasLiveFrom (k : Cancellation) (handle : Nat) : Prop :=
  true ∈ k.handles.drop handle

instance (k : Cancellation) (handle : Nat) : Decidable (k.HasLiveFrom handle) :=
  inferInstanceAs (Decidable (true ∈ k.handles.drop handle))

/-- Cancels with a reason through a given handle, or through the first live one after it. Without a
live handle nothing happens. -/
def fireFrom (k : Cancellation) (handle : Nat) (reason : String) : Cancellation :=
  if k.HasLiveFrom handle then { k with mailbox := k.mailbox.offer reason } else k

/-- Cancels with a reason through the first live handle. -/
def fire (k : Cancellation) (reason : String) : Cancellation :=
  k.fireFrom 0 reason

/-- Cancels several times, in order. -/
def fireAll (k : Cancellation) (reasons : List String) : Cancellation :=
  reasons.foldl fire k

/-- The reason that the signal sees. The first one that it finds is remembered for good. -/
def check (k : Cancellation) : Option String × Cancellation :=
  match k.reason with
  | some reason => (some reason, k)
  | none =>
    match k.mailbox.take with
    | (some reason, mailbox) =>
      (some reason, { k with mailbox := mailbox.close, reason := some reason })
    | (none, _) => (none, k)

/-- Whether the signal sees a reason. -/
def isCancelled (k : Cancellation) : Bool × Cancellation :=
  let (reason, k) := k.check
  (reason.isSome, k)

/-- Adds a clone of the first live handle; without one the new entry is a dead handle. -/
def cloneHandle (k : Cancellation) : Cancellation :=
  { k with handles := k.handles ++ [decide (k.HasLiveFrom 0)] }

/-- Drops a handle, and tells whether it was live. The last live handle closes the mailbox. -/
def dropHandle (k : Cancellation) (handle : Nat) : Bool × Cancellation :=
  if k.handles[handle]? = some true then
    let handles := k.handles.set handle false
    (true, { k with
      handles
      mailbox := if true ∈ handles then k.mailbox else k.mailbox.close })
  else (false, k)

end Cancellation

end EventStream
