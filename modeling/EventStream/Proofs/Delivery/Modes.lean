import EventStream.Proofs.Delivery.Limit
/-!
# Collecting and delivering agree

Events can be collected into a list or delivered to a handler, and both work through the same
stages. As long as the signal does not fire, the handler receives exactly the events that are
collected without a limit. A handler that cancels with the `n`-th event receives exactly those that
are collected with a limit of `n`: where an empty line completes that event, the delivery is
cancelled behind the line, and otherwise it ends like the collection.

## Main definitions

* `Handler.FiresAt` — the signal fires when an event of given number reaches the handler

## Main results

* `deliver_of_unfired` — while the signal does not fire, delivering is collecting
* `Passes.deliver_eq` — delivering goes on from a later stage while nobody cancels
* `deliver_of_completesAt`, `deliver_of_not_completed` — the two ways in which the delivery to a
  handler that cancels can end
* `deliver_agrees_with_collect` — both modes agree
-/

namespace EventStream

/-- The signal has not fired, and fires with this reason when the `n`-th event reaches the handler.
What the handler does before leaves the pair as it is. -/
structure Handler.FiresAt (handler : Handler) (k : Cancellation) (n : Nat) (reason : String) :
    Prop where
  check_eq_none : k.check.1 = none
  fireAll_eq : ∀ events : List Event, events.length < n → k.fireAll (handler events) = k
  check_fireAll : ∀ events : List Event, events.length = n →
    (k.fireAll (handler events)).check.1 = some reason

/-- The handler that cancels once, with the `n`-th event. -/
def Handler.cancelWith (n : Nat) (reason : String) : Handler := fun events =>
  if events.length = n then [reason] else []

/-- While a cancellation reaches the signal, it fires where the handler cancels. -/
theorem Cancellation.Armed.firesAt {k : Cancellation} (h : k.Armed) (n : Nat) (reason : String) :
    (Handler.cancelWith n reason).FiresAt k n reason where
  check_eq_none := h.check_eq_none
  fireAll_eq events hlt := by rw [Handler.cancelWith, if_neg (Nat.ne_of_lt hlt)]; rfl
  check_fireAll events heq := by
    rw [Handler.cancelWith, if_pos heq, Cancellation.check_fireAll_of_armed h]
    rfl

namespace Stage

variable {p q : Stage} {handler : Handler} {k : Cancellation} {lines : List String}

/-- As long as the signal does not fire, the events that are delivered are those that are collected
without a limit, and the body is read as far. -/
theorem deliver_of_unfired (h : (p.deliver handler k).2.cancellation.check.1 = none) :
    (p.deliver handler k).1 = (p.collect none).1 ∧
      (p.deliver handler k).2.body = (p.collect none).2 := by
  induction p using induction generalizing k with
  | h p ih =>
    rcases hcheck : k.check.1 with _ | reason
    · rcases hline : p.pull.line with _ | fault | line
      · rw [deliver_of_end hcheck hline, collect_of_end hline]
        exact ⟨rfl, rfl⟩
      · rw [deliver_of_fault hcheck hline, collect_of_fault hline]
        exact ⟨rfl, rfl⟩
      · have hfills : ¬ p.Fills none line := fun hfills => not_reached_none _ hfills.2
        rw [deliver_of_line hcheck hline] at h ⊢
        rw [collect_of_line hline hfills]
        exact ih line hline h
    · -- a signal that has fired stays so
      rw [deliver_of_cancelled hcheck] at h
      exact absurd ((Cancellation.check_check hcheck).symm.trans h) nofun

/-- A signal that has not fired and cannot fire has not fired behind a delivery either. -/
theorem check_deliver_of_not_armed (hnone : k.check.1 = none) (h : ¬ k.Armed) (p : Stage)
    (handler : Handler) : (p.deliver handler k).2.cancellation.check.1 = none := by
  induction p using induction with
  | h p ih =>
    rcases hline : p.pull.line with _ | fault | line
    · rw [deliver_of_end hnone hline, Cancellation.fireAll_of_not_armed hnone h, hnone]
    · rw [deliver_of_fault hnone hline, Cancellation.fireAll_of_not_armed hnone h, hnone]
    · rw [deliver_of_line hnone hline, Cancellation.fireAll_of_not_armed hnone h]
      exact ih line hline

/-- Delivering goes on from a later stage as long as nothing that the handler does reaches the
signal and nobody else cancels. -/
theorem Passes.deliver_eq (h : Passes p lines q) (hcheck : k.check.1 = none)
    (hquiet : p.splitter.Undisturbed p.body)
    (hhandler : ∀ events : List Event, events.length ≤ q.events.length →
      k.fireAll (handler events) = k) :
    p.deliver handler k = q.deliver handler k ∧ q.splitter.Undisturbed q.body := by
  induction h with
  | nil => exact ⟨rfl, hquiet⟩
  | @cons p q line lines hline hrest ih =>
    have hreasons : k.fireAll (handler.reasons p.events (p.draft.feed line).1) = k := by
      rcases hevent : (p.draft.feed line).1 with _ | event
      · rfl
      · have hle := hrest.prefix_events.length_le
        have hevents : (p.feed line).events = p.events ++ [event] := by simp [feed, hevent]
        rw [hevents] at hle
        exact hhandler _ hle
    rw [deliver_of_line hcheck hline, hquiet.passedBy_eq_nil, List.nil_append, hreasons]
    exact ih (hquiet.pull hline) hhandler

end Stage

open Stage

/-- Where the body stops, all that it has to tell has been delivered, unless the signal has fired. -/
theorem Body.StopsAt.deliver_eq {b : Body} {q : Stage} {handler : Handler} {k : Cancellation}
    (h : b.StopsAt q) (hcheck : k.check.1 = none) :
    (q.deliver handler k).1 = b.outcome ∧
      (q.deliver handler k).2.body = q.pull.connection.body := by
  have hline := h.pull_line
  rcases hfailure : b.failure with _ | fault
  · rw [hfailure] at hline
    rw [deliver_of_end hcheck hline, h.events_eq, h.draft_eq, outcome_of_end hfailure]
    exact ⟨rfl, rfl⟩
  · rw [hfailure] at hline
    rw [deliver_of_fault hcheck hline, h.events_eq, outcome_of_failure hfailure]
    exact ⟨rfl, rfl⟩

namespace Connection

variable {c : Connection} {contentType : Option String} {handler : Handler} {n : Nat}
  {reason : String}

/-- While the signal does not fire, all that the body has to tell is delivered. -/
theorem deliver_of_unfired (htype : Announces contentType)
    (h : (c.deliver contentType handler).2.cancellation.check.1 = none) :
    (c.deliver contentType handler).1 = c.body.outcome ∧
      (c.deliver contentType handler).2.body = (c.body.start.collect none).2 := by
  rw [deliver_eq_start htype] at h ⊢
  obtain ⟨houtcome, hbody⟩ := Stage.deliver_of_unfired h
  exact ⟨houtcome.trans (Body.collect_of_not_reached (not_reached_none _)).1, hbody⟩

/-- Where an empty line completes the `n`-th event, a handler that cancels with it is cancelled
behind that line. -/
theorem deliver_of_completesAt {lines : List String} {p : Stage}
    (h : c.body.CompletesAt n lines p) (htype : Announces contentType)
    (hquiet : Arrival.Quiet c.body.arrivals) (hfires : handler.FiresAt c.cancellation n reason) :
    (c.deliver contentType handler).1 = ⟨c.body.completed.take n, some (.cancelled reason)⟩ ∧
      (c.deliver contentType handler).2.body = (p.feed "").body := by
  obtain ⟨event, hevent⟩ := h.draft_feed
  have hbefore : ∀ events : List Event, events.length ≤ p.events.length →
      c.cancellation.fireAll (handler events) = c.cancellation :=
    fun events hle => hfires.fireAll_eq events (Nat.lt_of_le_of_lt hle h.length_lt)
  obtain ⟨hdeliver, hundisturbed⟩ :=
    h.passes.deliver_eq hfires.check_eq_none (fun _ => hquiet) hbefore
  -- the handler receives the event and cancels, and the next check sees it
  have hreasons : handler.reasons p.events (p.draft.feed "").1 = handler (p.feed "").events := by
    simp [Handler.reasons, feed, hevent]
  have hfired := hfires.check_fireAll _ h.length_feed
  rw [deliver_eq_start htype, hdeliver, deliver_of_line hfires.check_eq_none h.pull_line,
    hundisturbed.passedBy_eq_nil, hreasons, List.nil_append, deliver_of_cancelled hfired,
    h.events_feed]
  exact ⟨rfl, rfl⟩

/-- Where lines complete fewer than `n` events, a handler that cancels with the `n`-th event has no
effect: either there is no such event, or it is the one that the end of the body completes. -/
theorem deliver_of_not_completed (h : ¬ n ≤ c.body.completed.length)
    (htype : Announces contentType) (hquiet : Arrival.Quiet c.body.arrivals)
    (hfires : handler.FiresAt c.cancellation n reason) :
    (c.deliver contentType handler).1 = c.body.outcome ∧
      (c.deliver contentType handler).2.body = (c.body.start.collect none).2 := by
  obtain ⟨q, hstops⟩ := c.body.exists_stopsAt
  have hbefore : ∀ events : List Event, events.length ≤ q.events.length →
      c.cancellation.fireAll (handler events) = c.cancellation := by
    intro events hle
    rw [hstops.events_eq] at hle
    exact hfires.fireAll_eq events (Nat.lt_of_le_of_lt hle (Nat.lt_of_not_le h))
  obtain ⟨hdeliver, -⟩ := hstops.passes.deliver_eq hfires.check_eq_none (fun _ => hquiet) hbefore
  rw [deliver_eq_start htype, hdeliver, hstops.passes.collect_eq (not_reached_none _),
    hstops.collect_eq]
  exact hstops.deliver_eq hfires.check_eq_none

/-- The handler receives what is collected. As long as the signal does not fire, these are all
events, and the outcome is the same. Where the handler cancels with the `n`-th event, these are the
first `n` events; the delivery is cancelled exactly where an empty line completes the last of them,
and otherwise the outcome is the same. In each case the body is read as far. -/
theorem deliver_agrees_with_collect (c : Connection) (contentType : Option String)
    (handler : Handler) :
    ((c.deliver contentType handler).2.cancellation.check.1 = none →
      (c.deliver contentType handler).1 = (c.collect contentType 0).1 ∧
        (c.deliver contentType handler).2.body = (c.collect contentType 0).2.body) ∧
    (∀ n reason, 0 < n → Arrival.Quiet c.body.arrivals →
      handler.FiresAt c.cancellation n reason →
        (c.deliver contentType handler).1.events = (c.collect contentType n).1.events ∧
        (c.deliver contentType handler).2.body = (c.collect contentType n).2.body ∧
        ((c.deliver contentType handler).1.error = some (.cancelled reason) ↔
          Announces contentType ∧ n ≤ c.body.completed.length) ∧
        (¬ (Announces contentType ∧ n ≤ c.body.completed.length) →
          (c.deliver contentType handler).1 = (c.collect contentType n).1)) := by
  by_cases htype : Announces contentType
  · constructor
    · intro hunfired
      rw [deliver_eq_start htype] at hunfired ⊢
      obtain ⟨houtcome, hbody⟩ := collect_eq_start htype c 0
      rw [houtcome, hbody]
      exact Stage.deliver_of_unfired hunfired
    · intro n reason hn hquiet hfires
      by_cases hcompleted : n ≤ c.body.completed.length
      · obtain ⟨lines, p, hstage⟩ := Body.exists_completesAt hn hcompleted
        obtain ⟨hdelivered, hbody⟩ := deliver_of_completesAt hstage htype hquiet hfires
        obtain ⟨hcollected, hbody'⟩ := collect_of_completesAt hstage htype
        simp [hdelivered, hbody, hcollected, hbody', htype, hcompleted]
      · have hreached : ¬ Reached (limitOf n) c.body.completed.length := by
          rw [limitOf_natCast hn]
          exact mt reached_some.1 hcompleted
        obtain ⟨hdelivered, hbody⟩ := deliver_of_not_completed hcompleted htype hquiet hfires
        obtain ⟨hcollected, hbody'⟩ := collect_of_not_reached htype hreached
        simp [hdelivered, hbody, hcollected, hbody', hcompleted, Body.outcome]
  · simp [deliver_of_not_announces htype, collect_of_not_announces htype, htype]

/-- Two events of a body in chunks that tear the pair behind the first one: delivered to a handler
that never cancels, and to one that cancels with the second event. -/
theorem deliver_agrees_with_collect_two_events :
    (deliver ⟨⟨[.chunk (Text.encode "data: a\n\r"), .pending,
        .chunk (Text.encode "\ndata: b\n\nda"), .chunk (Text.encode "ta: c")], 0⟩, {}⟩
        (some "text/event-stream") fun _ => []).1 =
      (collect ⟨⟨[.chunk (Text.encode "data: a\n\r"), .pending,
        .chunk (Text.encode "\ndata: b\n\nda"), .chunk (Text.encode "ta: c")], 0⟩, {}⟩
        (some "text/event-stream") 0).1 ∧
    (deliver ⟨⟨[.chunk (Text.encode "data: a\n\r"), .pending,
        .chunk (Text.encode "\ndata: b\n\nda"), .chunk (Text.encode "ta: c")], 0⟩, {}⟩
        (some "text/event-stream") (.cancelWith 2 "enough")).1.error =
      some (.cancelled "enough") := by
  have hunfired : (deliver ⟨⟨[.chunk (Text.encode "data: a\n\r"), .pending,
      .chunk (Text.encode "\ndata: b\n\nda"), .chunk (Text.encode "ta: c")], 0⟩, {}⟩
      (some "text/event-stream") fun _ => []).2.cancellation.check.1 = none := by
    decide +kernel
  have hquiet : Arrival.Quiet [.chunk (Text.encode "data: a\n\r"), .pending,
      .chunk (Text.encode "\ndata: b\n\nda"), .chunk (Text.encode "ta: c")] := by
    decide +kernel
  have harmed : Cancellation.Armed {} := by decide
  have hcompleted : Announces (some "text/event-stream") ∧
      2 ≤ (Body.completed ⟨[.chunk (Text.encode "data: a\n\r"), .pending,
        .chunk (Text.encode "\ndata: b\n\nda"), .chunk (Text.encode "ta: c")], 0⟩).length := by
    decide +kernel
  exact ⟨((deliver_agrees_with_collect _ _ _).1 hunfired).1,
    ((deliver_agrees_with_collect ⟨⟨_, 0⟩, {}⟩ _ _).2 2 "enough" (by decide) hquiet
      (harmed.firesAt 2 "enough")).2.2.1.2 hcompleted⟩

end Connection

end EventStream
