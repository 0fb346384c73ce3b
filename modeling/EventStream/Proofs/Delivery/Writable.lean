import EventStream.Proofs.Delivery.Stopping
import EventStream.Proofs.Event.SingleLine
import EventStream.Proofs.Line.Unended
/-!
# Events that are delivered can be written

Whatever the bytes of a body are, the events that come out of it can be written as a stream again:
no identifier and no type holds a symbol that ends lines, and no data holds a carriage return. For
no terminator gets into a line, and a draft takes from lines what they hold.

## Main definitions

* `Stage.Writable` — the events so far can be written, and so can what is kept of the next one

## Main results

* `Writable.feed`, `Writable.of_passes` — lines keep a stage writable
* `writable_collect`, `writable_deliver` — what is collected or delivered can be written
-/

namespace EventStream

namespace Stage

/-- Up to this stage no terminator has got into a line, a field or an event. -/
structure Writable (p : Stage) : Prop where
  splitter : p.splitter.Unended
  draft : p.draft.Writable
  events : ∀ event ∈ p.events, event.Writable

variable {p q : Stage} {line : String} {lines : List String} {outcome : Outcome}

theorem writable_start (b : Body) : b.start.Writable :=
  ⟨.empty, .empty, fun _ hevent => absurd hevent List.not_mem_nil⟩

namespace Writable

/-- A line keeps the stage writable: it holds no terminator itself. -/
theorem feed (h : p.Writable) (hline : p.pull.line = some (.ok line)) : (p.feed line).Writable := by
  have hpull : p.pull.Unended := h.splitter.pull _
  obtain ⟨hevent, hdraft⟩ := h.draft.feed (hpull.line line hline)
  refine ⟨hpull.splitter, hdraft, List.forall_mem_append.2 ⟨h.events, ?_⟩⟩
  exact fun event hmem => hevent event (Option.mem_toList.1 hmem)

theorem of_passes (h : p.Writable) (hpasses : Passes p lines q) : q.Writable := by
  induction hpasses with
  | nil => exact h
  | cons hline _ ih => exact ih (h.feed hline)

/-- However a delivery stops at the stage, its events can be written. -/
theorem of_stops (h : p.Writable) (hstops : p.Stops outcome) :
    ∀ event ∈ outcome.events, event.Writable := by
  cases hstops with
  | ended _ =>
    refine List.forall_mem_append.2 ⟨h.events, fun event hmem => ?_⟩
    exact h.draft.finish.1 event (Option.mem_toList.1 hmem)
  | failed _ => exact h.events
  | filled _ => exact h.events
  | cancelled _ => exact h.events

end Writable

end Stage

namespace Connection

/-- The events that are collected can be written. -/
theorem writable_collect (c : Connection) (contentType : Option String) (maxEvents : Int) :
    ∀ event ∈ (c.collect contentType maxEvents).1.events, event.Writable := by
  by_cases htype : Announces contentType
  · rw [(collect_eq_start htype c maxEvents).1]
    obtain ⟨lines, q, hpasses, hstops⟩ := c.body.start.exists_stops_collect (limitOf maxEvents)
    exact ((Stage.writable_start c.body).of_passes hpasses).of_stops hstops
  · rw [collect_of_not_announces htype]
    exact fun _ hevent => absurd hevent List.not_mem_nil

/-- The events that are delivered can be written. -/
theorem writable_deliver (c : Connection) (contentType : Option String) (handler : Handler) :
    ∀ event ∈ (c.deliver contentType handler).1.events, event.Writable := by
  by_cases htype : Announces contentType
  · rw [deliver_eq_start htype c handler]
    obtain ⟨lines, q, hpasses, hstops⟩ := c.body.start.exists_stops_deliver handler c.cancellation
    exact ((Stage.writable_start c.body).of_passes hpasses).of_stops hstops
  · rw [deliver_of_not_announces htype]
    exact fun _ hevent => absurd hevent List.not_mem_nil

end Connection

end EventStream
