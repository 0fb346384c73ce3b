import EventStream.Proofs.Client.Headers
import EventStream.Proofs.Client.Made
import EventStream.Proofs.Client.Memory
import EventStream.Proofs.Delivery.Writable
/-!
# What clients send after what they have received

A client sends back an identifier that it has received. Whatever a server writes into its streams,
this cannot end the line of a header: the identifiers that are delivered are single lines, so the
client remembers a single line, and sends it only if it is ASCII.

## Main definitions

* `Configuration.Sendable` — no header and no identifier of a configuration ends a line
* `Client.Group.Sendable` — the same for all clients of a group

## Main results

* `Sendable.request` — what a request sends are single lines of ASCII
* `forall_clients_call`, `forall_clients_callAll` — what clients keep in one use and in several uses
* `Sendable.callAll` — no uses bring clients to send anything else
* `sends_single_lines` — what is delivered, and what is sent after it
-/

namespace EventStream

theorem isSingleLine_iff {s : String} :
    IsSingleLine s ↔ ∀ c ∈ s.toList, ¬ charEnds.Ends c := by
  constructor
  · rintro ⟨hcr, hlf⟩ c hmem (rfl | rfl)
    · exact hcr hmem
    · exact hlf hmem
  · intro h
    exact ⟨fun hmem => h _ hmem charEnds.ends_cr, fun hmem => h _ hmem charEnds.ends_lf⟩

/-- An event that can be written has an identifier and a type of one line each. -/
theorem Event.writable_iff_isSingleLine {e : Event} :
    e.Writable ↔ IsSingleLine e.id ∧ IsSingleLine e.type ∧ '\r' ∉ e.data.toList := by
  rw [isSingleLine_iff, isSingleLine_iff]
  exact ⟨fun h => ⟨h.id, h.type, h.data⟩, fun h => ⟨h.1, h.2.1, h.2.2⟩⟩

/-- The values that the configuration has for headers are ASCII, and neither they nor the identifier
to resume after end a line. -/
structure Configuration.Sendable {α : Type} (c : Configuration α) : Prop where
  headers : ∀ header ∈ c.headers, IsAscii header.value ∧ IsSingleLine header.value
  lastEventId : ∀ id ∈ c.lastEventId, IsSingleLine id

/-- What a request sends are single lines of ASCII. An identifier that is not ASCII is left out. -/
theorem Configuration.Sendable.request {α : Type} [Addresses α] {c : Configuration α}
    (h : c.Sendable) {path : String} {request : Request α} (hrequest : c.request path = .ok request)
    {name value : String} (hvalue : request.headers[name]? = some value) :
    IsAscii value ∧ IsSingleLine value := by
  rcases List.mem_append.1 (exists_mem_of_request hrequest hvalue) with hown | hheaders
  · rcases value_of_mem_ownHeaders hown with hfixed | ⟨hid, hascii⟩
    · have hall : ∀ value ∈ [eventStreamType, "no-cache"], IsAscii value ∧ IsSingleLine value := by
        decide +kernel
      exact hall value hfixed
    · exact ⟨hascii, h.lastEventId value hid⟩
  · exact h.headers _ hheaders

namespace Client

variable {α : Type} {c : Client α} {events : List Event}

/-- What a client remembers of events that can be written is a single line. -/
theorem sendable_recalling (h : c.configuration.Sendable)
    (hevents : ∀ event ∈ events, event.Writable) : (c.recalling events).configuration.Sendable := by
  refine ⟨h.headers, fun id hid => ?_⟩
  rcases Option.or_eq_some_iff.1 hid with hlast | ⟨-, hbefore⟩
  · obtain ⟨event, hmem, rfl, -⟩ := exists_mem_of_lastId hlast
    exact (Event.writable_iff_isSingleLine.1 (hevents event hmem)).1
  · exact h.lastEventId id hbefore

namespace Group

variable {g : Group α} {P : Client α → Prop}

theorem forall_clients_iff : (∀ c ∈ g.clients, P c) ↔
    (∀ c ∈ g.before, P c) ∧ P g.current ∧ ∀ c ∈ g.after, P c := by
  rw [clients, List.forall_mem_append, List.forall_mem_cons]

/-- The client in use recalls what it has handed out, and the others stay as they are. -/
theorem forall_clients_recalling (h : ∀ c ∈ g.clients, P c)
    (hcurrent : P (g.current.recalling events)) (k : Cancellation) :
    ∀ c ∈ ({ g with current := g.current.recalling events, cancellation := k } : Group α).clients,
      P c := by
  obtain ⟨hbefore, -, hafter⟩ := forall_clients_iff.1 h
  exact forall_clients_iff.2 ⟨hbefore, hcurrent, hafter⟩

/-- No client of the group has anything that ends the line of a header. -/
def Sendable (g : Group α) : Prop := ∀ c ∈ g.clients, c.configuration.Sendable

variable [Addresses α]

/-- What all clients have in common, and keep when they recall events that can be written, they keep
in every use. -/
theorem forall_clients_call
    (hP : ∀ c events, P c → (∀ event ∈ events, event.Writable) → P (c.recalling events))
    (h : ∀ c ∈ g.clients, P c) (call : Call) : ∀ c ∈ (g.call call).2.clients, P c := by
  obtain ⟨-, hcurrent, -⟩ := forall_clients_iff.1 h
  -- clients change only by recalling what they hand out, and what they hand out can be written
  cases call with
  | collect response maxEvents =>
    rw [call_collect]
    exact forall_clients_recalling h (hP _ _ hcurrent (Connection.writable_collect _ _ _)) _
  | deliver response handler =>
    rw [call_deliver]
    exact forall_clients_recalling h (hP _ _ hcurrent (Connection.writable_deliver _ _ _)) _
  | request path => exact h
  | configuration => exact h
  | fork =>
    rw [clients_fork]
    refine List.forall_mem_append.2 ⟨h, fun c hc => ?_⟩
    exact List.mem_singleton.1 hc ▸ hcurrent
  | select place => exact fun c hc => h c (g.clients_select place ▸ hc)
  | cancellation step => exact h

/-- They keep it in several uses. -/
theorem forall_clients_callAll
    (hP : ∀ c events, P c → (∀ event ∈ events, event.Writable) → P (c.recalling events))
    (h : ∀ c ∈ g.clients, P c) (calls : List Call) :
    ∀ c ∈ (g.callAll calls).2.clients, P c := by
  induction calls generalizing g with
  | nil => exact h
  | cons call calls ih => exact ih (forall_clients_call hP h call)

/-- No uses of a group bring a client to send what ends a line. -/
theorem Sendable.callAll (h : g.Sendable) (calls : List Call) : (g.callAll calls).2.Sendable := by
  apply forall_clients_callAll _ h calls
  intro c events hsendable hevents
  exact sendable_recalling hsendable hevents

/-- What is delivered, and what is sent after it. Whatever the bytes of a body are, the identifiers
and the types of the events that come out of it are single lines, and their data hold no carriage
return. So clients that can be made, and that remember nothing but single lines, remember nothing
else after any uses; and in each request that they then make, all values of headers are single lines
of ASCII. -/
theorem sends_single_lines (α : Type) [Addresses α] :
    (∀ (c : Connection) (contentType : Option String),
      (∀ maxEvents, ∀ event ∈ (c.collect contentType maxEvents).1.events,
        IsSingleLine event.id ∧ IsSingleLine event.type ∧ '\r' ∉ event.data.toList) ∧
      (∀ handler, ∀ event ∈ (c.deliver contentType handler).1.events,
        IsSingleLine event.id ∧ IsSingleLine event.type ∧ '\r' ∉ event.data.toList)) ∧
    (∀ (c : Client α) (r : Response) (k : Cancellation),
      (∀ maxEvents, ∀ event ∈ (c.collect r maxEvents k).1.events,
        IsSingleLine event.id ∧ IsSingleLine event.type ∧ '\r' ∉ event.data.toList) ∧
      (∀ handler, ∀ event ∈ (c.deliver r handler k).1.events,
        IsSingleLine event.id ∧ IsSingleLine event.type ∧ '\r' ∉ event.data.toList)) ∧
    (∀ g : Group α,
      (∀ c ∈ g.clients, c.configuration.IsMade ∧ ∀ id ∈ c.lastEventId, IsSingleLine id) →
      ∀ calls, ∀ c ∈ (g.callAll calls).2.clients,
        (∀ id ∈ c.lastEventId, IsSingleLine id) ∧
        ∀ path request, c.request path = .ok request →
          ∀ (name : String) (value : String), request.headers[name]? = some value →
            IsAscii value ∧ IsSingleLine value) := by
  simp only [← Event.writable_iff_isSingleLine]
  refine ⟨fun c contentType => ?_, fun c r k => ?_, fun g hclients calls c hc => ?_⟩
  · exact ⟨c.writable_collect contentType, c.writable_deliver contentType⟩
  · simp only [collect_eq, deliver_eq]
    exact ⟨Connection.writable_collect _ _, Connection.writable_deliver _ _⟩
  · have hsendable : g.Sendable := fun c hc =>
      ⟨(hclients c hc).1.headers, (hclients c hc).2⟩
    have hafter := hsendable.callAll calls c hc
    exact ⟨hafter.lastEventId, fun path request hrequest name value => hafter.request hrequest⟩

/-- A server tries to bring in a header behind the identifier: the carriage return ends the line of
the stream, what follows it is a field without meaning, and only the identifier is sent back. -/
theorem sends_single_lines_smuggled :
    let stream : Response :=
      { contentTypes := ["text/event-stream"]
        body := { arrivals := [.chunk (Text.encode "id: 7\rx-role: admin\ndata: a\r"),
          .chunk (Text.encode "\n\r\n")] } }
    let client : Client Url :=
      ⟨{ baseUrl := { scheme := "http", host := some (.name "localhost"), path := .segments [""] }
         headers := [⟨"x-key", "k"⟩] }⟩
    let resumed : Client Url := ⟨client.configuration.withLastEventId "7"⟩
    (∀ c ∈ ({ current := client } : Group Url).clients,
      c.configuration.IsMade ∧ ∀ id ∈ c.lastEventId, IsSingleLine id) ∧
    resumed ∈ (({ current := client } : Group Url).callAll [.collect stream 0]).2.clients ∧
    ∃ request, resumed.request "feed" = .ok request ∧
      request.headers["last-event-id"]? = some "7" ∧ IsAscii "7" ∧ IsSingleLine "7" := by
  intro stream client resumed
  have hclients : ∀ c ∈ ({ current := client } : Group Url).clients,
      c.configuration.IsMade ∧ ∀ id ∈ c.lastEventId, IsSingleLine id := by
    intro c hc
    obtain rfl := List.mem_singleton.1 hc
    exact ⟨⟨"http://localhost/", _, [.header "X-Key" "k"], rfl, by decide +kernel⟩, nofun⟩
  have hmem : resumed ∈
      (({ current := client } : Group Url).callAll [.collect stream 0]).2.clients := by decide +kernel
  have hvalue : (Headers.ofList
      (resumed.configuration.ownHeaders ++ resumed.configuration.headers))["last-event-id"]? =
        some "7" := by decide +kernel
  have hsends := ((sends_single_lines Url).2.2 _ hclients _ resumed hmem).2 "feed" _ rfl _ _ hvalue
  exact ⟨hclients, hmem, _, rfl, hvalue, hsends⟩

end Group

end Client

end EventStream
