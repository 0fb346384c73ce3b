/-!
# Content types

A response that carries a stream of events announces it by its content type. Parameters may follow
the media type, so every value that starts with it is accepted.

## Main definitions

* `eventStreamType` — the media type of a stream of events
* `Announces` — the content type announces a stream of events
-/

namespace EventStream

/-- The media type of a stream of events. -/
def eventStreamType : String := "text/event-stream"

/-- The content type is there and starts with the media type of a stream of events. -/
def Announces (contentType : Option String) : Prop :=
  ∃ found ∈ contentType, eventStreamType.toList <+: found.toList

instance (contentType : Option String) : Decidable (Announces contentType) :=
  match contentType with
  | none => isFalse (by simp [Announces])
  | some found => decidable_of_iff (eventStreamType.toList <+: found.toList) (by simp [Announces])

end EventStream
