import EventStream.Proofs.Client.Memory
import EventStream.Proofs.Delivery.Stopping
/-!
# Responses that are refused

A response that does not announce a stream of events is refused before anything else happens: no
byte is read, the signal is not looked at, and the client stays as it is. Once a delivery has begun,
it stops for other reasons only.

## Main results

* `Stops.error_ne` — a delivery that has begun does not end in a refusal
* `collect_of_refused`, `deliver_of_refused` — a client hands out nothing of a response that is
  refused
* `refused_unless_announced` — exactly the responses that do not announce a stream are refused
-/

namespace EventStream

/-- A delivery that has begun does not refuse the response any more. -/
theorem Stage.Stops.error_ne {p : Stage} {outcome : Outcome} (h : p.Stops outcome)
    (found : Option String) : outcome.error ≠ some (.contentType found) := by
  cases h <;> exact nofun

namespace Connection

variable {contentType : Option String}

/-- What announces a stream of events is not refused. -/
theorem error_ne_of_announces (htype : Announces contentType) (c : Connection) (maxEvents : Int)
    (handler : Handler) (found : Option String) :
    (c.collect contentType maxEvents).1.error ≠ some (.contentType found) ∧
      (c.deliver contentType handler).1.error ≠ some (.contentType found) := by
  rw [(collect_eq_start htype c maxEvents).1, deliver_eq_start htype]
  obtain ⟨_, _, _, hcollect⟩ := c.body.start.exists_stops_collect (limitOf maxEvents)
  obtain ⟨_, _, _, hdeliver⟩ := c.body.start.exists_stops_deliver handler c.cancellation
  exact ⟨hcollect.error_ne found, hdeliver.error_ne found⟩

end Connection

namespace Client

variable {α : Type} {r : Response}

/-- A client that collects from a response that is refused takes nothing from it and changes
nothing. -/
theorem collect_of_refused (h : ¬ Announces r.contentType) (c : Client α) (maxEvents : Int)
    (k : Cancellation) :
    c.collect r maxEvents k = (⟨[], some (.contentType r.contentType)⟩, ⟨r.body, k⟩, c) := by
  rw [collect_eq, Connection.collect_of_not_announces h]
  rfl

/-- A client that delivers a response that is refused takes nothing from it and changes nothing. -/
theorem deliver_of_refused (h : ¬ Announces r.contentType) (c : Client α) (handler : Handler)
    (k : Cancellation) :
    c.deliver r handler k = (⟨[], some (.contentType r.contentType)⟩, ⟨r.body, k⟩, c) := by
  rw [deliver_eq, Connection.deliver_of_not_announces h]
  rfl

/-- What does not announce a stream of events is refused with the content type that was found, for a
response the last one given. There are no events, nothing has been asked of the body, the
cancellation pair is as it was, fired or not, and so is the client. What announces a stream is never
refused. -/
theorem refused_unless_announced (α : Type) :
    (∀ (c : Connection) (contentType : Option String) (maxEvents : Int) (handler : Handler),
      (¬ Announces contentType →
        c.collect contentType maxEvents = (⟨[], some (.contentType contentType)⟩, c) ∧
        c.deliver contentType handler = (⟨[], some (.contentType contentType)⟩, c)) ∧
      (Announces contentType → ∀ found,
        (c.collect contentType maxEvents).1.error ≠ some (.contentType found) ∧
        (c.deliver contentType handler).1.error ≠ some (.contentType found))) ∧
    (∀ (client : Client α) (r : Response) (maxEvents : Int) (handler : Handler) (k : Cancellation),
      (¬ Announces r.contentTypes.getLast? →
        client.collect r maxEvents k =
          (⟨[], some (.contentType r.contentTypes.getLast?)⟩, ⟨r.body, k⟩, client) ∧
        client.deliver r handler k =
          (⟨[], some (.contentType r.contentTypes.getLast?)⟩, ⟨r.body, k⟩, client)) ∧
      (Announces r.contentTypes.getLast? → ∀ found,
        (client.collect r maxEvents k).1.error ≠ some (.contentType found) ∧
        (client.deliver r handler k).1.error ≠ some (.contentType found))) := by
  refine ⟨?_, ?_⟩
  · intro c contentType maxEvents handler
    refine ⟨fun h => ?_, fun h found => ?_⟩
    · exact ⟨Connection.collect_of_not_announces h c maxEvents,
        Connection.deliver_of_not_announces h c handler⟩
    · exact Connection.error_ne_of_announces h c maxEvents handler found
  · intro client r maxEvents handler k
    refine ⟨fun h => ?_, fun h found => ?_⟩
    · exact ⟨collect_of_refused h client maxEvents k, deliver_of_refused h client handler k⟩
    · rw [collect_eq, deliver_eq]
      exact Connection.error_ne_of_announces h ⟨r.body, k⟩ maxEvents handler found

/-- A response described twice, in the end as plain text, with the signal fired before: it is
refused, and the reason is still there. -/
theorem refused_unless_announced_fired :
    let r : Response := { contentTypes := ["text/event-stream", "text/plain"], body := {} }
    let k : Cancellation := Cancellation.fire {} "stop"
    let client : Client Url := ⟨{ baseUrl := { scheme := "http", path := .segments [""] } }⟩
    ¬ Announces r.contentTypes.getLast? ∧
    client.deliver r (fun _ => []) k =
      (⟨[], some (.contentType (some "text/plain"))⟩, ⟨r.body, k⟩, client) ∧
    (client.deliver r (fun _ => []) k).2.1.cancellation.check.1 = some "stop" ∧
    Announces (some "text/event-stream; charset=utf-8") ∧
    (Connection.collect {} (some "text/event-stream; charset=utf-8") 0).1.error ≠
      some (.contentType none) := by
  intro r k client
  have htype : ¬ Announces r.contentTypes.getLast? := by decide +kernel
  have hparameters : Announces (some "text/event-stream; charset=utf-8") := by decide +kernel
  have hrefused := (((refused_unless_announced Url).2 client r 0 (fun _ => []) k).1 htype).2
  refine ⟨htype, hrefused, ?_, hparameters, ?_⟩
  · rw [hrefused]
    decide
  · exact (((refused_unless_announced Url).1 {} _ 0 fun _ => []).2 hparameters none).1

end Client

end EventStream
