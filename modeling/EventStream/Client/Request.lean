import EventStream.Client.Configuration
import EventStream.Delivery.ContentType
/-!
# Requests

A request has a method, an address and headers. One for a stream of events is a `GET`; it names the
media type that it accepts, forbids stale answers, and tells after which event the stream shall
resume, if that can be said in ASCII. The headers of the configuration come last and take the place
of others of the same name.

## Main definitions

* `Method`, `Request` — requests of any kind
* `Configuration.request` — the request for the stream at a path
-/

namespace EventStream

/-- What a request wants to be done. -/
inductive Method where
  | get
  | head
  | post
  | put
  | delete
  | connect
  | options
  | trace
  | patch
deriving DecidableEq, Repr

/-- The method as it is written in a request. -/
def Method.toString : Method → String
  | get => "GET"
  | head => "HEAD"
  | post => "POST"
  | put => "PUT"
  | delete => "DELETE"
  | connect => "CONNECT"
  | options => "OPTIONS"
  | trace => "TRACE"
  | patch => "PATCH"

/-- A request, with an address of a certain kind. -/
structure Request (α : Type) where
  /-- What is to be done. -/
  method : Method
  /-- The address asked for. -/
  url : α
  /-- The headers. -/
  headers : Headers

namespace Configuration

variable {α : Type}

/-- The headers that every request for a stream has, in front of those of the configuration. -/
def ownHeaders (c : Configuration α) : List Header :=
  [⟨"accept", eventStreamType⟩, ⟨"cache-control", "no-cache"⟩] ++
    (c.lastEventId.filter (IsAscii ·)).toList.map fun id => ⟨"last-event-id", id⟩

/-- The request for the stream at a path, resolved against the base address. -/
def request [Addresses α] (c : Configuration α) (path : String) :
    Except ConfigurationError (Request α) :=
  match Addresses.join c.baseUrl path with
  | .error reason => .error (.invalidPath path reason)
  | .ok url =>
    .ok { method := .get, url, headers := Headers.ofList (c.ownHeaders ++ c.headers) }

end Configuration

end EventStream
