import EventStream.Delivery.Outcome
import EventStream.Event.Draft
import EventStream.Line.Pull
/-!
# Delivering events to a handler

Events can be delivered one by one to a handler. The signal is checked before each line and nowhere
else; once a check finds that it has fired, no further line is read. A line that is being read while
the signal fires is still handled, and so is the end of the stream: the handler may be called once
more. The handler itself may cancel.

## Main definitions

* `Handler` — what the receiver of events does
* `Connection.deliverFrom` — delivers from the middle of a stream
* `Connection.deliver` — delivers from the start of a stream

## Main results

* `deliverFrom_of_cancelled`, `deliverFrom_of_end`, `deliverFrom_of_fault`, `deliverFrom_of_line` —
  what delivering does once the signal has fired, and with each kind of pull otherwise
-/

namespace EventStream

/-- The receiver of events, described by the reasons with which it cancels, in order, when the last
of the given events reaches it. -/
abbrev Handler := List Event → List String

namespace Connection

/-- The reason that the signal of the connection sees. -/
def check (c : Connection) : Option String × Connection :=
  (c.cancellation.check.1, { c with cancellation := c.cancellation.check.2 })

/-- The events delivered and the connection after one more event, if there is one, has been handed
to the handler. -/
def handle (c : Connection) (handler : Handler) (events : List Event) :
    Option Event → List Event × Connection
  | none => (events, c)
  | some event =>
    let events := events ++ [event]
    (events, { c with cancellation := c.cancellation.fireAll (handler events) })

@[simp] theorem body_check (c : Connection) : c.check.2.body = c.body := rfl

@[simp] theorem body_handle (c : Connection) (handler : Handler) (events : List Event)
    (event : Option Event) : (c.handle handler events event).2.body = c.body := by
  cases event <;> rfl

/-- Delivers events, given the splitter, the draft and the events so far. -/
def deliverFrom (c : Connection) (handler : Handler) (s : Splitter) (d : Draft)
    (events : List Event) : Outcome × Connection :=
  match _hcheck : c.check with
  | (some reason, c) => (⟨events, some (.cancelled reason)⟩, c)
  | (none, c) =>
    match _hpull : s.pull c with
    | ⟨none, _, c⟩ =>
      let (events, c) := c.handle handler events d.finish.1
      (⟨events, none⟩, c)
    | ⟨some (.error fault), _, c⟩ => (⟨events, some (.io fault)⟩, c)
    | ⟨some (.ok line), s, c⟩ =>
      match _hhandle : c.handle handler events (d.feed line).1 with
      | (events, c) => c.deliverFrom handler s (d.feed line).2 events
termination_by s.remaining c
decreasing_by
  -- neither the check nor the handler touches the body, so only the pull counts
  have hlt := Splitter.remaining_pull_lt (congrArg Pull.line _hpull)
  have hcheck := congrArg (·.2.body) _hcheck
  have hhandle := congrArg (·.2.body) _hhandle
  simp only [body_check, body_handle] at hcheck hhandle
  simp only [_hpull, Splitter.remaining] at hlt
  simp only [Splitter.remaining, hcheck, ← hhandle]
  exact hlt

/-- Delivers the events of a body to a handler until the body ends or the signal fires. -/
def deliver (c : Connection) (contentType : Option String) (handler : Handler) :
    Outcome × Connection :=
  match checkContentType contentType with
  | .error e => (⟨[], some e⟩, c)
  | .ok () => c.deliverFrom handler {} {} []

variable {c : Connection} {handler : Handler} {s : Splitter} {d : Draft} {events : List Event}

theorem deliver_of_not_announces {contentType : Option String} (h : ¬ Announces contentType)
    (c : Connection) (handler : Handler) :
    c.deliver contentType handler = (⟨[], some (.contentType contentType)⟩, c) := by
  rw [deliver, checkContentType_of_not_announces h]

theorem deliverFrom_of_cancelled {reason : String} (h : c.check.1 = some reason) :
    c.deliverFrom handler s d events = (⟨events, some (.cancelled reason)⟩, c.check.2) := by
  rw [deliverFrom]
  split
  · next heq =>
    rw [heq] at h ⊢
    cases h
    rfl
  · simp_all

theorem deliverFrom_of_end (hcheck : c.check.1 = none) (h : (s.pull c.check.2).line = none) :
    c.deliverFrom handler s d events =
      (⟨((s.pull c.check.2).connection.handle handler events d.finish.1).1, none⟩,
        ((s.pull c.check.2).connection.handle handler events d.finish.1).2) := by
  rw [deliverFrom]
  split
  · simp_all
  · split <;> simp_all

theorem deliverFrom_of_fault {fault : Fault} (hcheck : c.check.1 = none)
    (h : (s.pull c.check.2).line = some (.error fault)) :
    c.deliverFrom handler s d events =
      (⟨events, some (.io fault)⟩, (s.pull c.check.2).connection) := by
  rw [deliverFrom]
  split
  · simp_all
  · split <;> simp_all

theorem deliverFrom_of_line {line : String} (hcheck : c.check.1 = none)
    (h : (s.pull c.check.2).line = some (.ok line)) :
    c.deliverFrom handler s d events =
      ((s.pull c.check.2).connection.handle handler events (d.feed line).1).2.deliverFrom handler
        (s.pull c.check.2).splitter (d.feed line).2
        ((s.pull c.check.2).connection.handle handler events (d.feed line).1).1 := by
  rw [deliverFrom]
  split
  · simp_all
  · split <;> simp_all

end Connection

end EventStream
