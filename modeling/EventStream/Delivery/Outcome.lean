import EventStream.Body
import EventStream.Delivery.ContentType
import EventStream.Event.Basic
/-!
# Outcomes of a delivery

A delivery brings events until the stream ends, and possibly an error that ended it early. The
events that came before the error are kept.

## Main definitions

* `DeliveryError`, `DeliveryError.message` — why a delivery stopped, and the message for it
* `Outcome` — the events delivered and the error
* `checkContentType` — refuses what does not announce a stream of events
-/

namespace EventStream

/-- Why a delivery stopped before the end of the stream. -/
inductive DeliveryError where
  /-- The response did not announce a stream of events. -/
  | contentType (found : Option String)
  /-- The body could not be read. -/
  | io (fault : Fault)
  /-- The delivery was cancelled. -/
  | cancelled (reason : String)
deriving DecidableEq, Repr

namespace DeliveryError

/-- The message for an error. -/
def message : DeliveryError → String
  | contentType found =>
    "expected content type " ++ eventStreamType ++ ", got " ++ found.getD "none"
  | io fault => "failed to read event stream: " ++ fault.text
  | cancelled reason => "event stream cancelled: " ++ reason

/-- The delivery was cancelled. -/
def IsCancelled (e : DeliveryError) : Prop := ∃ reason, e = cancelled reason

instance (e : DeliveryError) : Decidable e.IsCancelled :=
  match e with
  | contentType _ => isFalse (by simp [IsCancelled])
  | io _ => isFalse (by simp [IsCancelled])
  | cancelled reason => isTrue ⟨reason, rfl⟩

end DeliveryError

/-- Refuses a content type that does not announce a stream of events. -/
def checkContentType (contentType : Option String) : Except DeliveryError Unit :=
  if Announces contentType then .ok () else .error (.contentType contentType)

/-- What a delivery brought. -/
@[ext] structure Outcome where
  /-- The events, in the order of their arrival. -/
  events : List Event := []
  /-- The error that ended the delivery, if any. -/
  error : Option DeliveryError := none
deriving DecidableEq, Repr

variable {contentType : Option String}

theorem checkContentType_of_announces (h : Announces contentType) :
    checkContentType contentType = .ok () := by
  simp [checkContentType, h]

theorem checkContentType_of_not_announces (h : ¬ Announces contentType) :
    checkContentType contentType = .error (.contentType contentType) := by
  simp [checkContentType, h]

end EventStream
