import EventStream.Proofs.Cancellation.Firing
import EventStream.Proofs.Delivery.FromReads
/-!
# The turns of a delivery

A delivery takes turns: it reads, and hands the event that the line completes to the handler. Which
turns there are, as long as nothing fires, depends on the body and the handler alone. The
cancellations that come up in a turn, first in the read and then in the handler, show their effect
only between two turns, where the signal is checked. So the turns of the undisturbed delivery tell
what every other delivery does.

## Main definitions

* `Turn` — one turn, with the cancellations that come up in it
* `turnsFrom`, `Body.turns` — the turns of a delivery in which nothing fires
* `Turn.run` — works through turns until the signal has fired

## Main results

* `deliverFrom_eq_run` — a delivery works through the turns of the undisturbed one
* `exists_turns_eq` — every turn but the last one reads a line
* `run_append` — turns in which nothing reaches the signal are worked through
-/

namespace EventStream

/-- One turn of a delivery. -/
structure Turn where
  /-- What the read brings; nothing when the body has ended. -/
  line : Option (Except Fault String)
  /-- The cancellations that come up in the read and then in the handler, in order. -/
  reasons : List String
  /-- The events delivered up to the end of this turn. -/
  events : List Event
  /-- The body behind the read. -/
  body : Body

/-- The cancellations by the handler when an event, if there is one, is handed to it. -/
def Handler.reasons (handler : Handler) (events : List Event) : Option Event → List String
  | none => []
  | some event => handler (events ++ [event])

/-- The turns of a delivery in which nothing fires, from the middle of a stream. -/
def turnsFrom (handler : Handler) (s : Splitter) (body : Body) (d : Draft) (events : List Event) :
    List Turn :=
  match _h : s.pull ⟨body, .mute⟩ with
  | ⟨none, _, c⟩ =>
    [⟨none, s.passedBy body ++ handler.reasons events d.finish.1,
      events ++ d.finish.1.toList, c.body⟩]
  | ⟨some (.error fault), _, c⟩ => [⟨some (.error fault), s.passedBy body, events, c.body⟩]
  | ⟨some (.ok line), s', c⟩ =>
    ⟨some (.ok line), s.passedBy body ++ handler.reasons events (d.feed line).1,
        events ++ (d.feed line).1.toList, c.body⟩ ::
      turnsFrom handler s' c.body (d.feed line).2 (events ++ (d.feed line).1.toList)
termination_by s.remaining ⟨body, .mute⟩
decreasing_by
  have hlt := Splitter.remaining_pull_lt (congrArg Pull.line _h)
  rw [_h] at hlt
  exact hlt

/-- The turns of a delivery in which nothing fires. -/
def Body.turns (body : Body) (handler : Handler) : List Turn :=
  turnsFrom handler {} body {} []

namespace Turn

/-- The turn has read a line, so another turn follows unless the signal has fired. -/
def HasLine (t : Turn) : Prop := ∃ line, t.line = some (.ok line)

/-- What a delivery brings that ends with this turn by itself. -/
def outcome (t : Turn) : Outcome :=
  ⟨t.events, match t.line with
    | some (.error fault) => some (.io fault)
    | _ => none⟩

/-- Works through turns, until the signal has fired or no line has come: the outcome, and the
connection behind the last turn. -/
def run : Cancellation → List Turn → Outcome × Connection
  | k, [] => ({}, ⟨{}, k⟩)
  | k, t :: turns =>
    match t.line, (k.fireAll t.reasons).check.1 with
    | some (.ok _), none => run (k.fireAll t.reasons) turns
    | some (.ok _), some reason =>
      (⟨t.events, some (.cancelled reason)⟩, ⟨t.body, (k.fireAll t.reasons).check.2⟩)
    | some (.error _), _ => (t.outcome, ⟨t.body, k.fireAll t.reasons⟩)
    | none, _ => (t.outcome, ⟨t.body, k.fireAll t.reasons⟩)

end Turn

section Equations

variable {handler : Handler} {s : Splitter} {body : Body} {d : Draft} {events : List Event}

theorem turnsFrom_of_end (h : (s.pull ⟨body, .mute⟩).line = none) :
    turnsFrom handler s body d events =
      [⟨none, s.passedBy body ++ handler.reasons events d.finish.1,
        events ++ d.finish.1.toList, (s.pull ⟨body, .mute⟩).connection.body⟩] := by
  rw [turnsFrom]
  split <;> simp_all

theorem turnsFrom_of_fault {fault : Fault}
    (h : (s.pull ⟨body, .mute⟩).line = some (.error fault)) :
    turnsFrom handler s body d events =
      [⟨some (.error fault), s.passedBy body, events,
        (s.pull ⟨body, .mute⟩).connection.body⟩] := by
  rw [turnsFrom]
  split <;> simp_all

theorem turnsFrom_of_line {line : String} (h : (s.pull ⟨body, .mute⟩).line = some (.ok line)) :
    turnsFrom handler s body d events =
      ⟨some (.ok line), s.passedBy body ++ handler.reasons events (d.feed line).1,
          events ++ (d.feed line).1.toList, (s.pull ⟨body, .mute⟩).connection.body⟩ ::
        turnsFrom handler (s.pull ⟨body, .mute⟩).splitter (s.pull ⟨body, .mute⟩).connection.body
          (d.feed line).2 (events ++ (d.feed line).1.toList) := by
  rw [turnsFrom]
  split <;> simp_all

theorem Cancellation.handed_eq (k : Cancellation) (handler : Handler) (events : List Event)
    (event : Option Event) :
    k.handed handler events event = k.fireAll (handler.reasons events event) := by
  cases event <;> rfl

theorem Connection.check_eq {c : Connection} (h : c.cancellation.check.1 = none) :
    c.check = (none, c) := by
  rw [Connection.check, h, Cancellation.check_snd h]

end Equations

namespace Turn

variable {k : Cancellation} {t : Turn} {turns : List Turn} {reason : String}

theorem run_of_cancelled (hline : t.HasLine) (h : (k.fireAll t.reasons).check.1 = some reason) :
    run k (t :: turns) =
      (⟨t.events, some (.cancelled reason)⟩, ⟨t.body, (k.fireAll t.reasons).check.2⟩) := by
  obtain ⟨line, hline⟩ := hline
  simp only [run, hline, h]

theorem run_of_line (hline : t.HasLine) (h : (k.fireAll t.reasons).check.1 = none) :
    run k (t :: turns) = run (k.fireAll t.reasons) turns := by
  obtain ⟨line, hline⟩ := hline
  simp only [run, hline, h]

theorem run_of_not_hasLine (hline : ¬ t.HasLine) :
    run k (t :: turns) = (t.outcome, ⟨t.body, k.fireAll t.reasons⟩) := by
  rcases h : t.line with _ | _ | line
  · simp only [run, h]
  · simp only [run, h]
  · exact absurd ⟨line, h⟩ hline

end Turn

variable {handler : Handler} {s : Splitter} {body : Body} {d : Draft} {events : List Event}
  {k : Cancellation}

/-! ### One turn -/

theorem deliverFrom_turn_end (h : k.check.1 = none) (hline : (s.pull ⟨body, .mute⟩).line = none) :
    Connection.deliverFrom ⟨body, k⟩ handler s d events =
      (⟨events ++ d.finish.1.toList, none⟩, ⟨(s.pull ⟨body, .mute⟩).connection.body,
        k.fireAll (s.passedBy body ++ handler.reasons events d.finish.1)⟩) := by
  have hcheck : (Connection.mk body k).check = (none, ⟨body, k⟩) := Connection.check_eq h
  have hpull := s.pull_eq body k .mute
  have hend : (s.pull (Connection.mk body k).check.2).line = none := by
    rw [hcheck, hpull, hline]
  rw [Connection.deliverFrom_of_end (congrArg Prod.fst hcheck) hend, hcheck, hpull,
    Connection.handle_eq, Cancellation.handed_eq, ← Cancellation.fireAll_append]

theorem deliverFrom_turn_fault {fault : Fault} (h : k.check.1 = none)
    (hline : (s.pull ⟨body, .mute⟩).line = some (.error fault)) :
    Connection.deliverFrom ⟨body, k⟩ handler s d events =
      (⟨events, some (.io fault)⟩, ⟨(s.pull ⟨body, .mute⟩).connection.body,
        k.fireAll (s.passedBy body)⟩) := by
  have hcheck : (Connection.mk body k).check = (none, ⟨body, k⟩) := Connection.check_eq h
  have hpull := s.pull_eq body k .mute
  have hfault : (s.pull (Connection.mk body k).check.2).line = some (.error fault) := by
    rw [hcheck, hpull, hline]
  rw [Connection.deliverFrom_of_fault (congrArg Prod.fst hcheck) hfault, hcheck, hpull]

/-- A turn that reads a line goes on behind it, with all that came up in the turn passed to the
cancellation pair. -/
theorem deliverFrom_turn_line {line : String} (h : k.check.1 = none)
    (hline : (s.pull ⟨body, .mute⟩).line = some (.ok line)) :
    Connection.deliverFrom ⟨body, k⟩ handler s d events =
      Connection.deliverFrom
        ⟨(s.pull ⟨body, .mute⟩).connection.body,
          k.fireAll (s.passedBy body ++ handler.reasons events (d.feed line).1)⟩
        handler (s.pull ⟨body, .mute⟩).splitter (d.feed line).2
        (events ++ (d.feed line).1.toList) := by
  have hcheck : (Connection.mk body k).check = (none, ⟨body, k⟩) := Connection.check_eq h
  have hpull := s.pull_eq body k .mute
  have hok : (s.pull (Connection.mk body k).check.2).line = some (.ok line) := by
    rw [hcheck, hpull, hline]
  rw [Connection.deliverFrom_of_line (congrArg Prod.fst hcheck) hok, hcheck, hpull,
    Connection.handle_eq, Cancellation.handed_eq, ← Cancellation.fireAll_append]

/-! ### All turns -/

/-- A delivery works through the turns of the undisturbed delivery. -/
theorem deliverFrom_eq_run (handler : Handler) (s : Splitter) (body : Body) (d : Draft)
    (events : List Event) (h : k.check.1 = none) :
    Connection.deliverFrom ⟨body, k⟩ handler s d events =
      Turn.run k (turnsFrom handler s body d events) := by
  induction hn : s.remaining ⟨body, .mute⟩ using Nat.strongRecOn generalizing s body d events k with
  | _ n ih =>
    rcases hline : (s.pull ⟨body, .mute⟩).line with _ | fault | line
    · rw [deliverFrom_turn_end h hline, turnsFrom_of_end hline,
        Turn.run_of_not_hasLine (fun ⟨_, hok⟩ => nomatch hok)]
      rfl
    · rw [deliverFrom_turn_fault h hline, turnsFrom_of_fault hline,
        Turn.run_of_not_hasLine (fun ⟨_, hok⟩ => nomatch hok)]
      rfl
    · rw [deliverFrom_turn_line h hline, turnsFrom_of_line hline]
      -- the signal is checked before the next read, so what came up in this turn shows there
      rcases hnext : (k.fireAll (s.passedBy body ++ handler.reasons events (d.feed line).1)).check.1
        with _ | reason
      · rw [Turn.run_of_line ⟨line, rfl⟩ hnext]
        have hlt := Splitter.remaining_pull_lt hline
        exact ih _ (hn ▸ hlt) _ _ _ _ hnext rfl
      · rw [Turn.run_of_cancelled ⟨line, rfl⟩ hnext, Connection.deliverFrom_of_cancelled]
        · rfl
        · exact hnext

/-- Every turn but the last reads a line, the last one does not, and events are only added. -/
theorem exists_turnsFrom_eq (handler : Handler) (s : Splitter) (body : Body) (d : Draft)
    (events : List Event) :
    ∃ turns last, turnsFrom handler s body d events = turns ++ [last] ∧ ¬ last.HasLine ∧
      events <+: last.events ∧ ∀ t ∈ turns, t.HasLine ∧ t.events <+: last.events := by
  -- a turn that reads a line leaves less of the body to the turns behind it
  induction hn : s.remaining ⟨body, .mute⟩ using Nat.strongRecOn generalizing s body d events with
  | _ n ih =>
    rcases hline : (s.pull ⟨body, .mute⟩).line with _ | fault | line
    · rw [turnsFrom_of_end hline]
      exact ⟨[], _, rfl, (fun ⟨_, hok⟩ => nomatch hok), List.prefix_append _ _,
        fun t ht => absurd ht List.not_mem_nil⟩
    · rw [turnsFrom_of_fault hline]
      exact ⟨[], _, rfl, (fun ⟨_, hok⟩ => nomatch hok), List.prefix_refl _,
        fun t ht => absurd ht List.not_mem_nil⟩
    · have hlt := Splitter.remaining_pull_lt hline
      obtain ⟨turns, last, heq, hlast, hevents, hturns⟩ := ih _ (hn ▸ hlt)
        (s.pull ⟨body, .mute⟩).splitter (s.pull ⟨body, .mute⟩).connection.body (d.feed line).2
        (events ++ (d.feed line).1.toList) rfl
      rw [turnsFrom_of_line hline, heq]
      refine ⟨_ :: turns, last, rfl, hlast, (List.prefix_append _ _).trans hevents, ?_⟩
      intro t ht
      rcases List.mem_cons.1 ht with rfl | ht
      · exact ⟨⟨line, rfl⟩, hevents⟩
      · exact hturns t ht

/-- Every turn of a body but the last one reads a line, and only adds events to those before. -/
theorem exists_turns_eq (body : Body) (handler : Handler) :
    ∃ turns last, body.turns handler = turns ++ [last] ∧ ¬ last.HasLine ∧
      ∀ t ∈ turns, t.HasLine ∧ t.events <+: last.events := by
  obtain ⟨turns, last, hturns, hlast, -, hmem⟩ := exists_turnsFrom_eq handler {} body {} []
  exact ⟨turns, last, hturns, hlast, hmem⟩

/-- A turn in front of the last one is among the turns before it, as is everything in front. -/
theorem mem_or_eq_last {turns before after : List Turn} {last t : Turn}
    (h : turns ++ [last] = before ++ t :: after) :
    before = turns ∧ t = last ∨ t ∈ turns ∧ ∀ t' ∈ before, t' ∈ turns := by
  rcases List.eq_nil_or_concat after with rfl | ⟨after, last', rfl⟩
  · obtain ⟨hturns, hlast⟩ := List.append_inj' h rfl
    exact Or.inl ⟨hturns.symm, (List.singleton_inj.1 hlast).symm⟩
  · rw [List.concat_eq_append, ← List.cons_append, ← List.append_assoc] at h
    obtain ⟨rfl, -⟩ := List.append_inj' h rfl
    exact Or.inr ⟨List.mem_append_right _ List.mem_cons_self,
      fun t' ht' => List.mem_append_left _ ht'⟩

/-- Turns in which nothing reaches the signal are worked through. -/
theorem Turn.run_append (h : k.check.1 = none) {turns : List Turn}
    (hturns : ∀ t ∈ turns, t.HasLine ∧ k.fireAll t.reasons = k) (more : List Turn) :
    Turn.run k (turns ++ more) = Turn.run k more := by
  induction turns with
  | nil => rfl
  | cons t turns ih =>
    obtain ⟨hline, hfire⟩ := hturns t List.mem_cons_self
    have hnone : (k.fireAll t.reasons).check.1 = none := by rw [hfire, h]
    rw [List.cons_append, Turn.run_of_line hline hnone, hfire]
    exact ih fun t ht => hturns t (List.mem_cons_of_mem _ ht)

end EventStream
