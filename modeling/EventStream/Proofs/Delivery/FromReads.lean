import EventStream.Delivery.Collect
import EventStream.Delivery.Deliver
import EventStream.Proofs.Line.Passed
import EventStream.Proofs.Line.Reads
/-!
# Deliveries as functions of the reads

A delivery works through the reads of a body one by one. Given the list of these reads, collecting
and delivering are plain recursions on a list: no splitter, no chunks, no body. Here the loops over
a connection are shown to be these recursions, and to leave the body where the last read left it.

## Main definitions

* `collectReads` — collecting from reads
* `deliverReads` — delivering from reads

## Main results

* `collectFrom_of_facing`, `deliverFrom_of_facing` — a loop over a body that faces some reads is
  the recursion on these reads
* `collect_of_announces`, `deliver_of_announces` — the same from the start of a body
-/

namespace EventStream

/-- Collects from reads: the outcome, and the text left after the last read. -/
def collectReads (limit : Option Nat) :
    List Read → Draft → List Event → Outcome × Option (List UInt8)
  | [], d, events => (⟨events ++ d.finish.1.toList, none⟩, none)
  | ⟨.error fault, rest⟩ :: _, _, events => (⟨events, some (.io fault)⟩, rest)
  | ⟨.ok line, rest⟩ :: reads, d, events =>
    match d.feed line with
    | (none, d) => collectReads limit reads d events
    | (some event, d) =>
      if Reached limit (events ++ [event]).length then (⟨events ++ [event], none⟩, rest)
      else collectReads limit reads d (events ++ [event])

/-- The cancellation pair after one more event, if there is one, has been handed to the handler. -/
def Cancellation.handed (k : Cancellation) (handler : Handler) (events : List Event) :
    Option Event → Cancellation
  | none => k
  | some event => k.fireAll (handler (events ++ [event]))

/-- Delivers from reads, given the text that is left before the first: the outcome, the
cancellation pair, and the text left after the last read. -/
def deliverReads (handler : Handler) :
    List Read → Cancellation → Option (List UInt8) → Draft → List Event →
      Outcome × Cancellation × Option (List UInt8)
  | [], k, rest, d, events =>
    match k.check.1 with
    | some reason => (⟨events, some (.cancelled reason)⟩, k.check.2, rest)
    | none =>
      (⟨events ++ d.finish.1.toList, none⟩, k.check.2.handed handler events d.finish.1, none)
  | ⟨line, next⟩ :: reads, k, rest, d, events =>
    match k.check.1, line with
    | some reason, _ => (⟨events, some (.cancelled reason)⟩, k.check.2, rest)
    | none, .error fault => (⟨events, some (.io fault)⟩, k.check.2, next)
    | none, .ok line =>
      deliverReads handler reads (k.check.2.handed handler events (d.feed line).1) next
        (d.feed line).2 (events ++ (d.feed line).1.toList)

section Equations

variable {limit : Option Nat} {handler : Handler} {reads : List Read} {k : Cancellation}
  {rest next : Option (List UInt8)} {d : Draft} {events : List Event} {line : String}

theorem collectReads_of_none (h : (d.feed line).1 = none) :
    collectReads limit (⟨.ok line, rest⟩ :: reads) d events =
      collectReads limit reads (d.feed line).2 events := by
  rw [collectReads]
  split <;> simp_all

theorem collectReads_of_reached {event : Event} (h : (d.feed line).1 = some event)
    (hreached : Reached limit (events ++ [event]).length) :
    collectReads limit (⟨.ok line, rest⟩ :: reads) d events =
      (⟨events ++ [event], none⟩, rest) := by
  rw [collectReads]
  split <;> simp_all

theorem collectReads_of_not_reached {event : Event} (h : (d.feed line).1 = some event)
    (hreached : ¬ Reached limit (events ++ [event]).length) :
    collectReads limit (⟨.ok line, rest⟩ :: reads) d events =
      collectReads limit reads (d.feed line).2 (events ++ [event]) := by
  rw [collectReads]
  split <;> simp_all

theorem deliverReads_of_cancelled {reason : String} (h : k.check.1 = some reason) :
    deliverReads handler reads k rest d events =
      (⟨events, some (.cancelled reason)⟩, k.check.2, rest) := by
  cases reads with
  | nil => simp only [deliverReads, h]
  | cons read reads => simp only [deliverReads, h]

theorem deliverReads_nil (h : k.check.1 = none) :
    deliverReads handler [] k rest d events =
      (⟨events ++ d.finish.1.toList, none⟩, k.check.2.handed handler events d.finish.1, none) := by
  simp only [deliverReads, h]

theorem deliverReads_error (h : k.check.1 = none) (fault : Fault) :
    deliverReads handler (⟨.error fault, next⟩ :: reads) k rest d events =
      (⟨events, some (.io fault)⟩, k.check.2, next) := by
  simp only [deliverReads, h]

theorem deliverReads_ok (h : k.check.1 = none) :
    deliverReads handler (⟨.ok line, next⟩ :: reads) k rest d events =
      deliverReads handler reads (k.check.2.handed handler events (d.feed line).1) next
        (d.feed line).2 (events ++ (d.feed line).1.toList) := by
  simp only [deliverReads, h]

end Equations

namespace Connection

open Splitter

variable {whole : Content} {s : Splitter} {c : Connection} {reads : List Read}

theorem handle_eq (c : Connection) (handler : Handler) (events : List Event)
    (event : Option Event) :
    c.handle handler events event =
      (events ++ event.toList,
        { c with cancellation := c.cancellation.handed handler events event }) := by
  cases event with
  | none => simp only [handle, Option.toList_none, List.append_nil, Cancellation.handed]
  | some event => rfl

/-- Collecting from a body that faces some reads is collecting from these reads. -/
theorem collectFrom_of_facing (limit : Option Nat) (d : Draft) (events : List Event)
    (h : s.Facing whole c.body reads) :
    (c.collectFrom limit s d events).1 = (collectReads limit reads d events).1 ∧
      whole.Rests (c.collectFrom limit s d events).2.body
        (collectReads limit reads d events).2 := by
  -- one pull for each read, in step
  induction reads generalizing s c d events with
  | nil =>
    obtain ⟨hline, hrests⟩ := h.pull_nil
    rw [collectFrom_of_end hline]
    exact ⟨rfl, hrests⟩
  | cons read reads ih =>
    obtain ⟨hline, hrests, -⟩ := h.pull_cons
    rcases read with ⟨fault | line, rest⟩
    · rw [collectFrom_of_fault hline]
      exact ⟨rfl, hrests⟩
    · rw [collectFrom_of_line hline, collectReads]
      rcases d.feed line with ⟨_ | event, d'⟩
      · exact ih d' events h.pull_ok
      · dsimp only
        by_cases hreached : Reached limit (events ++ [event]).length
        · rw [if_pos hreached, if_pos hreached]
          exact ⟨rfl, hrests⟩
        · rw [if_neg hreached, if_neg hreached]
          exact ih d' (events ++ [event]) h.pull_ok

/-- Delivering from a body that faces some reads is delivering from these reads, as long as nobody
but the handler cancels. -/
theorem deliverFrom_of_facing (handler : Handler) {rest : Option (List UInt8)} (d : Draft)
    (events : List Event) (h : s.Facing whole c.body reads) (hquiet : s.Undisturbed c.body)
    (hrests : whole.Rests c.body rest) :
    (c.deliverFrom handler s d events).1 =
        (deliverReads handler reads c.cancellation rest d events).1 ∧
      (c.deliverFrom handler s d events).2.cancellation =
        (deliverReads handler reads c.cancellation rest d events).2.1 ∧
      whole.Rests (c.deliverFrom handler s d events).2.body
        (deliverReads handler reads c.cancellation rest d events).2.2 := by
  -- the check comes before the pull, so a fired signal leaves the read where it is
  induction reads generalizing s c rest d events with
  | nil =>
    rcases hcheck : c.check.1 with _ | reason
    · obtain ⟨hline, hend⟩ := Facing.pull_nil (c := c.check.2) h
      have hpull := Undisturbed.cancellation_pull (c := c.check.2) hquiet
      rw [deliverFrom_of_end hcheck hline, handle_eq, hpull, deliverReads_nil hcheck]
      exact ⟨rfl, rfl, hend⟩
    · rw [deliverFrom_of_cancelled hcheck, deliverReads_of_cancelled hcheck]
      exact ⟨rfl, rfl, hrests⟩
  | cons read reads ih =>
    rcases hcheck : c.check.1 with _ | reason
    · obtain ⟨hline, hnext, -⟩ := Facing.pull_cons (c := c.check.2) h
      have hpull := Undisturbed.cancellation_pull (c := c.check.2) hquiet
      rcases read with ⟨fault | line, next⟩
      · rw [deliverFrom_of_fault hcheck hline, deliverReads_error hcheck]
        exact ⟨rfl, hpull, hnext⟩
      · rw [deliverFrom_of_line hcheck hline, handle_eq, hpull, deliverReads_ok hcheck]
        exact ih (d.feed line).2 (events ++ (d.feed line).1.toList)
          (Facing.pull_ok (c := c.check.2) h) (Undisturbed.pull (c := c.check.2) hquiet hline) hnext
    · rw [deliverFrom_of_cancelled hcheck, deliverReads_of_cancelled hcheck]
      exact ⟨rfl, rfl, hrests⟩

/-- Collecting depends on the content of the body alone. -/
theorem collect_of_announces (c : Connection) {contentType : Option String}
    (htype : Announces contentType) (maxEvents : Int) :
    (c.collect contentType maxEvents).1 =
        (collectReads (limitOf maxEvents)
          (c.body.content.reads false (Arrival.bytes c.body.arrivals)) {} []).1 ∧
      c.body.content.Rests (c.collect contentType maxEvents).2.body
        (collectReads (limitOf maxEvents)
          (c.body.content.reads false (Arrival.bytes c.body.arrivals)) {} []).2 := by
  rw [collect, checkContentType_of_announces htype]
  exact collectFrom_of_facing (limitOf maxEvents) {} [] (facing_start c.body)

/-- Delivering depends on the content of the body and the handler alone, where nobody else
cancels. -/
theorem deliver_of_announces (c : Connection) {contentType : Option String}
    (htype : Announces contentType) (handler : Handler) (hquiet : Arrival.Quiet c.body.arrivals) :
    (c.deliver contentType handler).1 =
        (deliverReads handler (c.body.content.reads false (Arrival.bytes c.body.arrivals))
          c.cancellation (some (Arrival.bytes c.body.arrivals)) {} []).1 ∧
      (c.deliver contentType handler).2.cancellation =
        (deliverReads handler (c.body.content.reads false (Arrival.bytes c.body.arrivals))
          c.cancellation (some (Arrival.bytes c.body.arrivals)) {} []).2.1 ∧
      c.body.content.Rests (c.deliver contentType handler).2.body
        (deliverReads handler (c.body.content.reads false (Arrival.bytes c.body.arrivals))
          c.cancellation (some (Arrival.bytes c.body.arrivals)) {} []).2.2 := by
  rw [deliver, checkContentType_of_announces htype]
  exact deliverFrom_of_facing handler {} [] (facing_start c.body) (fun _ => hquiet)
    (rests_start c.body)

end Connection

end EventStream
