import EventStream.Client.Request
import EventStream.Delivery.Collect
import EventStream.Delivery.Deliver
/-!
# Clients

A client makes requests and decodes the responses to them. It remembers the identifier of the last
event that had one, so that its next request resumes after that event.

## Main definitions

* `Response` — a response whose body is a stream
* `Client` — the configuration of a client, with what it remembers
* `Client.remember`, `Client.note` — the two ways in which identifiers are kept
* `Client.collect`, `Client.deliver` — decode a response
-/

namespace EventStream

/-- A response. -/
structure Response where
  /-- The status. It makes no difference to the decoding. -/
  status : Nat := 200
  /-- The values of the content type header, in order. A body that nobody has described is plain
  bytes. -/
  contentTypes : List String := ["application/octet-stream"]
  /-- The body. -/
  body : Body

/-- The content type that counts: the last one given. -/
def Response.contentType (r : Response) : Option String := r.contentTypes.getLast?

/-- A client. -/
@[ext] structure Client (α : Type) where
  /-- The configuration. The identifier in it changes with the events that the client decodes. -/
  configuration : Configuration α
deriving DecidableEq, Repr

namespace Client

variable {α : Type}

/-- The identifier that the client remembers. -/
def lastEventId (c : Client α) : Option String := c.configuration.lastEventId

/-- The request for the stream at a path. -/
def request [Addresses α] (c : Client α) (path : String) :
    Except ConfigurationError (Request α) :=
  c.configuration.request path

/-- The client after it has decoded an event. An event without an identifier changes nothing. -/
def remember (c : Client α) (event : Event) : Client α :=
  if event.id = "" then c else ⟨c.configuration.withLastEventId event.id⟩

/-- Collects the events of a response, at most as many as asked for, and remembers them one after
the other. -/
def collect (c : Client α) (r : Response) (maxEvents : Int) (k : Cancellation) :
    Outcome × Connection × Client α :=
  let (outcome, connection) := Connection.collect ⟨r.body, k⟩ r.contentType maxEvents
  (outcome, connection, outcome.events.foldl remember c)

/-- The identifier that is noted, after the one noted before, when an event goes on to a handler. -/
def note (noted : Option String) (event : Event) : Option String :=
  if event.id = "" then noted else some event.id

/-- Delivers the events of a response to a handler until the body ends or the signal fires. What has
been noted on the way is remembered afterwards, however the delivery ended. -/
def deliver (c : Client α) (r : Response) (handler : Handler) (k : Cancellation) :
    Outcome × Connection × Client α :=
  let (outcome, connection) := Connection.deliver ⟨r.body, k⟩ r.contentType handler
  (outcome, connection,
    match outcome.events.foldl note none with
    | some id => ⟨c.configuration.withLastEventId id⟩
    | none => c)

end Client

end EventStream
