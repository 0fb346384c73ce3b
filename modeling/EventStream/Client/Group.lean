import EventStream.Cancellation.Step
import EventStream.Client.Basic
/-!
# Groups of clients

A client can be copied, and from then on each copy remembers for itself. A group holds all copies
and one of them in use, together with the cancellation pair for their deliveries.

## Main definitions

* `Client.Group` — the copies, the one in use, and the cancellation pair
* `Client.Call` — one use of the group
* `Client.Group.call` — what a use brings, and the group after it
-/

namespace EventStream.Client

/-- Clients of which one is in use, in the order in which they were made. -/
structure Group (α : Type) where
  /-- The clients before the one in use. -/
  before : List (Client α) := []
  /-- The client in use. -/
  current : Client α
  /-- The clients after the one in use. -/
  after : List (Client α) := []
  /-- The cancellation pair for deliveries. -/
  cancellation : Cancellation := {}

/-- One use of a group of clients. -/
inductive Call where
  /-- Collects the events of a response. -/
  | collect (response : Response) (maxEvents : Int)
  /-- Delivers the events of a response. -/
  | deliver (response : Response) (handler : Handler)
  /-- Makes a request. -/
  | request (path : String)
  /-- Shows the configuration. -/
  | configuration
  /-- Adds a copy of the client in use. -/
  | fork
  /-- Puts another client in use. -/
  | select (place : Nat)
  /-- Uses the cancellation pair. -/
  | cancellation (step : Cancellation.Step)

/-- What a use of a group brings. -/
inductive Reply (α : Type) where
  /-- The outcome of a delivery, and the number of bytes it consumed. -/
  | outcome (outcome : Outcome) (consumed : Nat)
  /-- The request, or why it cannot be made. -/
  | request (request : Except ConfigurationError (Request α))
  /-- The configuration of the client in use. -/
  | configuration (configuration : Configuration α)
  /-- The number of clients. -/
  | clients (count : Nat)
  /-- The place of the client now in use. -/
  | selected (place : Nat)
  /-- What the cancellation pair tells. -/
  | cancellation (answer : Cancellation.Answer)

namespace Group

variable {α : Type}

/-- All clients, in the order in which they were made. -/
def clients (g : Group α) : List (Client α) := g.before ++ g.current :: g.after

/-- The group with another client in use. A place without a client changes nothing. -/
def select (g : Group α) (place : Nat) : Group α :=
  match g.clients.drop place with
  | current :: after => { g with before := g.clients.take place, current, after }
  | [] => g

/-- What a use brings, and the group after it. -/
def call [Addresses α] (g : Group α) : Call → Reply α × Group α
  | .collect response maxEvents =>
    let (outcome, connection, current) := g.current.collect response maxEvents g.cancellation
    (.outcome outcome connection.body.consumed,
      { g with current, cancellation := connection.cancellation })
  | .deliver response handler =>
    let (outcome, connection, current) := g.current.deliver response handler g.cancellation
    (.outcome outcome connection.body.consumed,
      { g with current, cancellation := connection.cancellation })
  | .request path => (.request (g.current.request path), g)
  | .configuration => (.configuration g.current.configuration, g)
  | .fork =>
    let g := { g with after := g.after ++ [g.current] }
    (.clients g.clients.length, g)
  | .select place => (.selected place, g.select place)
  | .cancellation step =>
    let (answer, cancellation) := g.cancellation.step step
    (.cancellation answer, { g with cancellation })

end Group

end EventStream.Client
