import EventStream.Client.Group
import EventStream.Url.Reference
/-!
# What clients remember

A client remembers the last identifier that is not empty among the events that it has handed out.
Collecting keeps the identifiers one after the other, and delivering writes back at the end what was
noted on the way; both come to the same. In a group, each client remembers for itself: its uses
change nothing but its own identifier, and the uses of the others do not change it at all.

## Main definitions

* `lastId` — the last identifier among some events
* `Client.recalling` — a client that has handed out some events
* `Client.Group.callAll` — several uses of a group, one after the other
* `Client.Group.eventsOf` — the events that one client hands out in the course of several uses

## Main results

* `foldl_remember`, `foldl_note` — both ways of keeping identifiers keep the last one
* `clients_call`, `clients_callAll` — what one use, and what several uses, do to each client
* `recalls_last_handed_out` — what the clients of a group hand out and remember
-/

namespace EventStream

/-- The last identifier among some events that is not empty. -/
def lastId (events : List Event) : Option String :=
  ((events.map Event.id).filter (· ≠ "")).getLast?

variable {event : Event} {events more : List Event}

theorem lastId_append (events more : List Event) :
    lastId (events ++ more) = (lastId more).or (lastId events) := by
  rw [lastId, List.map_append, List.filter_append, List.getLast?_append]
  rfl

theorem lastId_of_id_eq_empty (h : event.id = "") : lastId [event] = none := by
  simp [lastId, h]

theorem lastId_of_id_ne_empty (h : event.id ≠ "") : lastId [event] = some event.id := by
  simp [lastId, h]

/-- The last identifier belongs to one of the events, and is not empty. -/
theorem exists_mem_of_lastId {id : String} (h : lastId events = some id) :
    ∃ event ∈ events, event.id = id ∧ id ≠ "" := by
  have hmem := List.mem_of_getLast? h
  rw [List.mem_filter, List.mem_map] at hmem
  obtain ⟨⟨event, hevent, hid⟩, hne⟩ := hmem
  exact ⟨event, hevent, hid, of_decide_eq_true hne⟩

namespace Client

variable {α : Type}

/-- The client after it has handed out some events: only the identifier that it remembers may
change. -/
def recalling (c : Client α) (events : List Event) : Client α :=
  ⟨{ c.configuration with lastEventId := (lastId events).or c.lastEventId }⟩

variable {c : Client α}

@[simp] theorem recalling_nil (c : Client α) : c.recalling [] = c := rfl

@[simp] theorem lastEventId_recalling (c : Client α) (events : List Event) :
    (c.recalling events).lastEventId = (lastId events).or c.lastEventId := rfl

theorem recalling_append (c : Client α) (events more : List Event) :
    c.recalling (events ++ more) = (c.recalling events).recalling more := by
  simp [recalling, lastEventId, lastId_append, Option.or_assoc]

/-- Remembering an event is having handed it out. -/
theorem remember_eq (c : Client α) (event : Event) : c.remember event = c.recalling [event] := by
  by_cases h : event.id = ""
  · rw [remember, if_pos h, recalling, lastId_of_id_eq_empty h]
    rfl
  · rw [remember, if_neg h, recalling, lastId_of_id_ne_empty h]
    rfl

/-- Events remembered one after the other leave their last identifier. -/
theorem foldl_remember (c : Client α) (events : List Event) :
    events.foldl remember c = c.recalling events := by
  induction events generalizing c with
  | nil => rfl
  | cons event events ih =>
    rw [List.foldl_cons, ih, remember_eq, ← recalling_append, List.singleton_append]

/-- The identifier noted while events go on to a handler is their last one. -/
theorem foldl_note (noted : Option String) (events : List Event) :
    events.foldl note noted = (lastId events).or noted := by
  induction events generalizing noted with
  | nil => rfl
  | cons event events ih =>
    rw [List.foldl_cons, ih, ← List.singleton_append, lastId_append, Option.or_assoc]
    by_cases h : event.id = ""
    · rw [note, if_pos h, lastId_of_id_eq_empty h, Option.none_or]
    · rw [note, if_neg h, lastId_of_id_ne_empty h, Option.some_or]

/-- Collecting hands out what the body brings, and the client recalls it. -/
theorem collect_eq (c : Client α) (r : Response) (maxEvents : Int) (k : Cancellation) :
    c.collect r maxEvents k =
      ((Connection.collect ⟨r.body, k⟩ r.contentType maxEvents).1,
        (Connection.collect ⟨r.body, k⟩ r.contentType maxEvents).2,
        c.recalling (Connection.collect ⟨r.body, k⟩ r.contentType maxEvents).1.events) := by
  rw [← foldl_remember]
  rfl

/-- Delivering hands out what the body brings, and the client recalls it, however it ended. -/
theorem deliver_eq (c : Client α) (r : Response) (handler : Handler) (k : Cancellation) :
    c.deliver r handler k =
      ((Connection.deliver ⟨r.body, k⟩ r.contentType handler).1,
        (Connection.deliver ⟨r.body, k⟩ r.contentType handler).2,
        c.recalling (Connection.deliver ⟨r.body, k⟩ r.contentType handler).1.events) := by
  have hnote := foldl_note none (Connection.deliver ⟨r.body, k⟩ r.contentType handler).1.events
  rw [Option.or_none] at hnote
  rw [deliver]
  dsimp only
  rw [hnote, recalling]
  rcases lastId (Connection.deliver ⟨r.body, k⟩ r.contentType handler).1.events with _ | id <;> rfl

/-! ### Groups -/

/-- The events that a reply hands out. -/
def Reply.handedOut : Reply α → List Event
  | .outcome delivery _ => delivery.events
  | _ => []

namespace Group

/-- The place of the client in use. -/
def place (g : Group α) : Nat := g.before.length

/-- What several uses bring, one after the other, and the group after them. -/
def callAll [Addresses α] (g : Group α) : List Call → List (Reply α) × Group α
  | [] => ([], g)
  | call :: calls =>
    ((g.call call).1 :: ((g.call call).2.callAll calls).1, ((g.call call).2.callAll calls).2)

/-- The events that the client at a place hands out in one use. Only the client in use does. -/
def handsOut [Addresses α] (g : Group α) (place : Nat) (call : Call) : List Event :=
  if g.place = place then (g.call call).1.handedOut else []

/-- The events that the client at a place hands out in the course of several uses. -/
def eventsOf [Addresses α] (g : Group α) (place : Nat) : List Call → List Event
  | [] => []
  | call :: calls => g.handsOut place call ++ (g.call call).2.eventsOf place calls

variable {g : Group α} {call : Call} {calls : List Call} {i : Nat}

theorem getElem?_place (g : Group α) : g.clients[g.place]? = some g.current := by
  rw [clients, place, List.getElem?_append_right (Nat.le_refl _), Nat.sub_self]
  rfl

/-- A use of the client in use leaves the others where and as they are. -/
theorem getElem?_clients_recalling (h : g.clients[i]? = some c) (k : Cancellation)
    (events : List Event) :
    ({ g with current := g.current.recalling events, cancellation := k } : Group α).clients[i]? =
      some (c.recalling (if g.place = i then events else [])) := by
  have hset : ({ g with current := g.current.recalling events, cancellation := k } : Group α).clients
      = g.clients.set g.place (g.current.recalling events) := by
    simp [clients, place]
  rw [hset, List.getElem?_set]
  by_cases hplace : g.place = i
  · have hlt := (List.getElem?_eq_some_iff.1 h).1
    rw [← hplace, getElem?_place] at h
    rw [if_pos hplace, if_pos hplace, hplace, if_pos hlt, Option.some.inj h]
  · rw [if_neg hplace, if_neg hplace, h, recalling_nil]

theorem clients_select (g : Group α) (place : Nat) : (g.select place).clients = g.clients := by
  unfold select
  split
  · next current after hdrop =>
    have hsplit := List.take_append_drop place g.clients
    rw [hdrop] at hsplit
    exact hsplit
  · rfl

variable [Addresses α]

theorem call_collect (g : Group α) (response : Response) (maxEvents : Int) :
    g.call (.collect response maxEvents) =
      let delivery :=
        Connection.collect ⟨response.body, g.cancellation⟩ response.contentType maxEvents
      (.outcome delivery.1 delivery.2.body.consumed,
        { g with
          current := g.current.recalling delivery.1.events
          cancellation := delivery.2.cancellation }) := by
  rw [call, collect_eq]

theorem call_deliver (g : Group α) (response : Response) (handler : Handler) :
    g.call (.deliver response handler) =
      let delivery :=
        Connection.deliver ⟨response.body, g.cancellation⟩ response.contentType handler
      (.outcome delivery.1 delivery.2.body.consumed,
        { g with
          current := g.current.recalling delivery.1.events
          cancellation := delivery.2.cancellation }) := by
  rw [call, deliver_eq]

theorem clients_fork (g : Group α) : (g.call .fork).2.clients = g.clients ++ [g.current] := by
  simp [call, clients]

/-- What one use does to each client. -/
theorem clients_call (h : g.clients[i]? = some c) (call : Call) :
    (g.call call).2.clients[i]? = some (c.recalling (g.handsOut i call)) := by
  -- a use that hands out nothing has nothing to be remembered
  have hnothing (call : Call) (hcall : (g.call call).1.handedOut = []) :
      c.recalling (g.handsOut i call) = c := by
    rw [handsOut, hcall, ite_self, recalling_nil]
  cases call with
  | collect response maxEvents =>
    rw [handsOut, call_collect]
    exact getElem?_clients_recalling h _ _
  | deliver response handler =>
    rw [handsOut, call_deliver]
    exact getElem?_clients_recalling h _ _
  | request path => rw [hnothing _ rfl]; exact h
  | configuration => rw [hnothing _ rfl]; exact h
  | fork =>
    have hlt := (List.getElem?_eq_some_iff.1 h).1
    rw [hnothing _ rfl, clients_fork, List.getElem?_append_left hlt, h]
  | select place =>
    rw [hnothing _ rfl]
    exact (congrArg (·[i]?) (g.clients_select place)).trans h
  | cancellation step => rw [hnothing _ rfl]; exact h

/-- What several uses do to each client. -/
theorem clients_callAll (h : g.clients[i]? = some c) (calls : List Call) :
    (g.callAll calls).2.clients[i]? = some (c.recalling (g.eventsOf i calls)) := by
  induction calls generalizing g c with
  | nil => exact h
  | cons call calls ih =>
    rw [eventsOf, recalling_append]
    exact ih (clients_call h call)

/-- What the clients of a group hand out and remember. A use of a client brings what the body of the
response brings under the content type given last. After several uses, each client remembers the
last identifier that is not empty among the events that it has handed out in them, or else what it
remembered before, and nothing else about it has changed. A use of one client does not change
another. A copy remembers by itself from its making on, starting with what the client that was
copied remembered then. -/
theorem recalls_last_handed_out (g : Group α) (calls : List Call) :
    (∀ response maxEvents,
      (g.call (.collect response maxEvents)).1 =
        .outcome
          (Connection.collect ⟨response.body, g.cancellation⟩ response.contentTypes.getLast?
            maxEvents).1
          (Connection.collect ⟨response.body, g.cancellation⟩ response.contentTypes.getLast?
            maxEvents).2.body.consumed) ∧
    (∀ response handler,
      (g.call (.deliver response handler)).1 =
        .outcome
          (Connection.deliver ⟨response.body, g.cancellation⟩ response.contentTypes.getLast?
            handler).1
          (Connection.deliver ⟨response.body, g.cancellation⟩ response.contentTypes.getLast?
            handler).2.body.consumed) ∧
    (∀ i c, g.clients[i]? = some c → ∃ c', (g.callAll calls).2.clients[i]? = some c' ∧
      c'.lastEventId = (lastId (g.eventsOf i calls)).or c.lastEventId ∧
      c'.configuration = { c.configuration with lastEventId := c'.lastEventId }) ∧
    (∀ call i c, g.place ≠ i → g.clients[i]? = some c → (g.call call).2.clients[i]? = some c) ∧
    (∃ c', ((g.call .fork).2.callAll calls).2.clients[g.clients.length]? = some c' ∧
      c'.lastEventId = (lastId ((g.call .fork).2.eventsOf g.clients.length calls)).or
        g.current.lastEventId ∧
      c'.configuration = { g.current.configuration with lastEventId := c'.lastEventId }) := by
  refine ⟨?_, ?_, ?_, ?_, ?_⟩
  · intro response maxEvents
    rw [call_collect]
    rfl
  · intro response handler
    rw [call_deliver]
    rfl
  · intro i c h
    exact ⟨_, clients_callAll h calls, lastEventId_recalling _ _, rfl⟩
  · intro call i c hplace h
    have hcall := clients_call h call
    rwa [handsOut, if_neg hplace, recalling_nil] at hcall
  · have hcopy : (g.call .fork).2.clients[g.clients.length]? = some g.current := by
      rw [clients_fork, List.getElem?_concat_length]
    exact ⟨_, clients_callAll hcopy calls, lastEventId_recalling _ _, rfl⟩

/-- A client is copied and then cancelled by its handler with the second of three events, the copy
stops at a limit in front of the last event: both remember only what they have handed out. -/
theorem recalls_last_handed_out_copied :
    let stream : Response :=
      { contentTypes := ["text/event-stream"]
        body := { arrivals := [.chunk (Text.encode "id: 5\ndata: a\n\nid: 6\ndata: b\n\n"),
          .chunk (Text.encode "id: 7\ndata: c\n\n")] } }
    let client : Client Url :=
      ⟨{ baseUrl := { scheme := "http", path := .segments [""] }, lastEventId := some "0" }⟩
    let calls : List Call :=
      [.deliver stream fun events => if events.length = 2 then ["stop"] else [],
        .select 1, .collect stream 1]
    ({ current := client } : Group Url).clients[0]? = some client ∧
    ∃ c c',
      ((({ current := client } : Group Url).call .fork).2.callAll calls).2.clients[0]? = some c ∧
      ((({ current := client } : Group Url).call .fork).2.callAll calls).2.clients[1]? = some c' ∧
      c.lastEventId = some "6" ∧ c'.lastEventId = some "5" := by
  intro stream client calls
  have hrecalls := recalls_last_handed_out (({ current := client } : Group Url).call .fork).2 calls
  obtain ⟨c, hc, hid, -⟩ := hrecalls.2.2.1 0 client rfl
  obtain ⟨c', hc', hid', -⟩ := (recalls_last_handed_out { current := client } calls).2.2.2.2
  refine ⟨rfl, c, c', hc, hc', ?_, ?_⟩
  · rw [hid]
    decide +kernel
  · rw [hid']
    decide +kernel

end Group

end Client

end EventStream
