import EventStream.Delivery.Outcome
import EventStream.Proofs.Event.Completing
import EventStream.Proofs.Line.Reads
/-!
# What a body has to tell

Pulling from a body brings lines until the body ends, a failure comes, or a line is not UTF-8. These
lines, and the failure if there is one, follow from the content of the body alone. So do the events
that the lines complete, and the draft that they leave behind: whether that draft becomes an event
depends on how the body stops.

## Main definitions

* `upToFailure` — the lines in front of the first failure, and that failure
* `Body.lineReads`, `Body.lines`, `Body.failure` — the same for all that pulling from a body brings
* `Body.completed`, `Body.pending` — the events that these lines complete, and the draft they leave
* `Body.outcome` — all that a body has to tell

## Main results

* `upToFailure_append_of_some`, `upToFailure_append_of_none` — nothing counts behind a failure
* `lines_failure_of_some`, `lines_failure_of_none` — the same for a body
-/

namespace EventStream

/-- The lines in front of the first failure, and this failure, if there is one. -/
def upToFailure : List (Except Fault String) → List String × Option Fault
  | [] => ([], none)
  | .error fault :: _ => ([], some fault)
  | .ok line :: more => (line :: (upToFailure more).1, (upToFailure more).2)

namespace Body

/-- What pulling brings, one line or failure after the other. -/
def lineReads (b : Body) : List (Except Fault String) :=
  (b.content.reads false (Arrival.bytes b.arrivals)).map Read.line

/-- The lines that are read before the body stops or a line cannot be read. -/
def lines (b : Body) : List String := (upToFailure b.lineReads).1

/-- The failure that ends the reading, of the body or of a line; nothing where the body just
ends. -/
def failure (b : Body) : Option Fault := (upToFailure b.lineReads).2

/-- The events that lines complete. The end of the body may complete one more. -/
def completed (b : Body) : List Event := (Draft.feedAll {} b.lines).1

/-- The draft that is left behind the last line. -/
def pending (b : Body) : Draft := (Draft.feedAll {} b.lines).2

/-- All that a body has to tell: the events that lines complete, and at its end the one that is
pending, unless a failure comes before. -/
def outcome (b : Body) : Outcome where
  events := b.completed ++ if b.failure = none then b.pending.finish.1.toList else []
  error := b.failure.map .io

end Body

variable {reads more : List (Except Fault String)} {fault : Fault} {b : Body}

theorem upToFailure_append_of_some (h : (upToFailure reads).2 = some fault)
    (more : List (Except Fault String)) : upToFailure (reads ++ more) = upToFailure reads := by
  induction reads with
  | nil => cases h
  | cons read reads ih =>
    cases read with
    | error fault => rfl
    | ok line => rw [List.cons_append, upToFailure, ih h, upToFailure]

theorem upToFailure_append_of_none (h : (upToFailure reads).2 = none)
    (more : List (Except Fault String)) :
    upToFailure (reads ++ more) =
      ((upToFailure reads).1 ++ (upToFailure more).1, (upToFailure more).2) := by
  induction reads with
  | nil => rfl
  | cons read reads ih =>
    cases read with
    | error fault => cases h
    | ok line => rw [List.cons_append, upToFailure, ih h, upToFailure, List.cons_append]

namespace Body

/-- Where a failure comes early, nothing of the body counts behind it. -/
theorem lines_failure_of_some (h : b.lineReads = reads ++ more)
    (hfault : (upToFailure reads).2 = some fault) :
    b.lines = (upToFailure reads).1 ∧ b.failure = some fault := by
  unfold lines failure
  rw [h, upToFailure_append_of_some hfault]
  exact ⟨rfl, hfault⟩

/-- Where only lines come at first, the rest of the body adds its own. -/
theorem lines_failure_of_none (h : b.lineReads = reads ++ more)
    (hnone : (upToFailure reads).2 = none) :
    b.lines = (upToFailure reads).1 ++ (upToFailure more).1 ∧ b.failure = (upToFailure more).2 := by
  unfold lines failure
  rw [h, upToFailure_append_of_none hnone]
  exact ⟨rfl, rfl⟩

theorem outcome_of_end (h : b.failure = none) :
    b.outcome = ⟨b.completed ++ b.pending.finish.1.toList, none⟩ := by
  simp [outcome, h]

theorem outcome_of_failure (h : b.failure = some fault) :
    b.outcome = ⟨b.completed, some (.io fault)⟩ := by
  simp [outcome, h]

theorem events_outcome (b : Body) : b.outcome.events =
    b.completed ++ if b.outcome.error = none then b.pending.finish.1.toList else [] := by
  simp [outcome]

/-- Two bodies have the same to tell if their lines come to the same and they fail alike. -/
theorem outcome_congr_feedAll {b' : Body}
    (hlines : Draft.feedAll {} b.lines = Draft.feedAll {} b'.lines)
    (hfailure : b.failure = b'.failure) : b.outcome = b'.outcome := by
  simp only [outcome, completed, pending, hlines, hfailure]

theorem outcome_congr {b' : Body} (hlines : b.lines = b'.lines)
    (hfailure : b.failure = b'.failure) : b.outcome = b'.outcome :=
  outcome_congr_feedAll (congrArg _ hlines) hfailure

end Body

end EventStream
