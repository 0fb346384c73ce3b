import EventStream.Proofs.Delivery.Turns
import EventStream.Proofs.Body.Outcome
/-!
# Stages of a delivery

Between two lines a delivery is at a stage: there is the rest of the body, what the splitter and the
draft keep, and the events so far. Reading a line leads to the next stage, and which one that is
does not depend on whether the events are collected or delivered, on a limit, or on the cancellation
pair. Those only decide at which stage the delivery stops.

## Main definitions

* `Stage`, `Body.start` — where a delivery stands, and where it begins
* `Stage.feed` — the stage behind a line
* `Stage.Passes` — the lines that lead from one stage to another
* `Stage.collect`, `Stage.deliver` — collecting and delivering from a stage

## Main results

* `Stage.induction` — a property that goes back from the next stage holds at every stage
* `Passes.collect_eq` — collecting goes on from a later stage while the limit is not reached
* `collect_eq_start`, `deliver_eq_start` — a connection is served from the first stage of its body
* `exists_passes` — a body passes through all its lines, to the stage where it ends or fails
-/

namespace EventStream

/-- Where a delivery stands between two lines. -/
@[ext] structure Stage where
  /-- The rest of the body. -/
  body : Body
  /-- What is kept of an unfinished line. -/
  splitter : Splitter := {}
  /-- The event under construction. -/
  draft : Draft := {}
  /-- The events so far. -/
  events : List Event := []

/-- The stage at which a delivery begins. -/
def Body.start (b : Body) : Stage := { body := b }

namespace Stage

/-- What the next pull brings. The cancellation pair has no part in it. -/
def pull (p : Stage) : Pull := p.splitter.pull ⟨p.body, .mute⟩

/-- The stage behind the next pull, when it has brought this line. -/
def feed (p : Stage) (line : String) : Stage where
  body := p.pull.connection.body
  splitter := p.pull.splitter
  draft := (p.draft.feed line).2
  events := p.events ++ (p.draft.feed line).1.toList

/-- The lines lead from one stage to another. -/
inductive Passes : Stage → List String → Stage → Prop
  | nil (p : Stage) : Passes p [] p
  | cons {p q : Stage} {line : String} {lines : List String} :
      p.pull.line = some (.ok line) → Passes (p.feed line) lines q → Passes p (line :: lines) q

/-- Collects events from a stage on: the outcome, and the body behind it. -/
def collect (p : Stage) (limit : Option Nat) : Outcome × Body :=
  ((Connection.collectFrom ⟨p.body, .mute⟩ limit p.splitter p.draft p.events).1,
    (Connection.collectFrom ⟨p.body, .mute⟩ limit p.splitter p.draft p.events).2.body)

/-- Delivers events from a stage on, with this cancellation pair. -/
def deliver (p : Stage) (handler : Handler) (k : Cancellation) : Outcome × Connection :=
  Connection.deliverFrom ⟨p.body, k⟩ handler p.splitter p.draft p.events

/-- What goes back from the next stage to each stage holds at every stage, since lines come to an
end. -/
theorem induction {motive : Stage → Prop}
    (h : ∀ p, (∀ line, p.pull.line = some (.ok line) → motive (p.feed line)) → motive p)
    (p : Stage) : motive p := by
  induction hn : p.splitter.remaining ⟨p.body, .mute⟩ using Nat.strongRecOn generalizing p with
  | _ n ih =>
    apply h
    intro line hline
    exact ih _ (hn ▸ Splitter.remaining_pull_lt hline) (p.feed line) rfl

variable {p q r : Stage} {line : String} {lines lines' : List String} {limit : Option Nat}

/-! ### Passing through lines -/

namespace Passes

theorem append (h : Passes p lines q) (h' : Passes q lines' r) : Passes p (lines ++ lines') r := by
  induction h with
  | nil => exact h'
  | cons hline _ ih => exact .cons hline (ih h')

theorem append_iff : Passes p (lines ++ lines') r ↔ ∃ q, Passes p lines q ∧ Passes q lines' r := by
  constructor
  · intro h
    induction lines generalizing p with
    | nil => exact ⟨p, .nil p, h⟩
    | cons line lines ih =>
      cases h with
      | cons hline hrest =>
        obtain ⟨q, hleft, hright⟩ := ih hrest
        exact ⟨q, .cons hline hleft, hright⟩
  · rintro ⟨q, hleft, hright⟩
    exact hleft.append hright

/-- The draft and the events are those that the lines make. -/
theorem draft_events_eq (h : Passes p lines q) :
    q.draft = (p.draft.feedAll lines).2 ∧ q.events = p.events ++ (p.draft.feedAll lines).1 := by
  induction h with
  | nil p => exact ⟨rfl, (List.append_nil _).symm⟩
  | cons _ _ ih => simpa [feed, Draft.feedAll] using ih

/-- There is one way on, so lines that lead somewhere stand in front of those that lead to a stage
behind which no line comes. -/
theorem prefix_lines (h : Passes p lines q) (h' : Passes p lines' r)
    (hlast : ∀ line, r.pull.line ≠ some (.ok line)) : lines <+: lines' := by
  induction h generalizing lines' with
  | nil => exact List.nil_prefix
  | cons hline _ ih =>
    cases h' with
    | nil => exact absurd hline (hlast _)
    | cons hline' hrest' =>
      obtain rfl := Except.ok.inj (Option.some.inj (hline.symm.trans hline'))
      exact List.cons_prefix_cons.2 ⟨rfl, ih hrest'⟩

theorem prefix_events (h : Passes p lines q) : p.events <+: q.events := by
  rw [h.draft_events_eq.2]
  exact List.prefix_append _ _

end Passes

/-! ### Collecting -/

/-- The cancellation pair has no part in a pull but for receiving what comes by. -/
theorem pull_eq (p : Stage) (k : Cancellation) :
    p.splitter.pull ⟨p.body, k⟩ = { p.pull with
      connection := ⟨p.pull.connection.body, k.fireAll (p.splitter.passedBy p.body)⟩ } :=
  p.splitter.pull_eq p.body k .mute

theorem collectFrom_of_end (h : p.pull.line = none) (limit : Option Nat) (k : Cancellation) :
    Connection.collectFrom ⟨p.body, k⟩ limit p.splitter p.draft p.events =
      (⟨p.events ++ p.draft.finish.1.toList, none⟩,
        ⟨p.pull.connection.body, k.fireAll (p.splitter.passedBy p.body)⟩) := by
  have hpull := p.pull_eq k
  rw [Connection.collectFrom_of_end (by rw [hpull, h]), hpull]

theorem collectFrom_of_fault {fault : Fault} (h : p.pull.line = some (.error fault))
    (limit : Option Nat) (k : Cancellation) :
    Connection.collectFrom ⟨p.body, k⟩ limit p.splitter p.draft p.events =
      (⟨p.events, some (.io fault)⟩,
        ⟨p.pull.connection.body, k.fireAll (p.splitter.passedBy p.body)⟩) := by
  have hpull := p.pull_eq k
  rw [Connection.collectFrom_of_fault (by rw [hpull, h]), hpull]

/-- The line completes an event, and with it the limit is reached. -/
def Fills (p : Stage) (limit : Option Nat) (line : String) : Prop :=
  (p.draft.feed line).1 ≠ none ∧ Reached limit (p.feed line).events.length

/-- A line that fills the limit is the last one to be read. -/
theorem collectFrom_of_fills (h : p.pull.line = some (.ok line)) (hfills : p.Fills limit line)
    (k : Cancellation) :
    Connection.collectFrom ⟨p.body, k⟩ limit p.splitter p.draft p.events =
      (⟨(p.feed line).events, none⟩,
        ⟨(p.feed line).body, k.fireAll (p.splitter.passedBy p.body)⟩) := by
  have hpull := p.pull_eq k
  obtain ⟨event, hevent⟩ := Option.ne_none_iff_exists'.1 hfills.1
  have hfeed : p.draft.feed line = (some event, (p.draft.feed line).2) := Prod.ext hevent rfl
  have hevents : (p.feed line).events = p.events ++ [event] := by simp [feed, hevent]
  have hlimit := hfills.2
  rw [hevents] at hlimit
  rw [Connection.collectFrom_of_line (by rw [hpull, h]), hpull, hfeed, hevents]
  exact if_pos hlimit

/-- Any other line leads to the next stage. -/
theorem collectFrom_of_line (h : p.pull.line = some (.ok line)) (hfills : ¬ p.Fills limit line)
    (k : Cancellation) :
    Connection.collectFrom ⟨p.body, k⟩ limit p.splitter p.draft p.events =
      Connection.collectFrom ⟨(p.feed line).body, k.fireAll (p.splitter.passedBy p.body)⟩ limit
        (p.feed line).splitter (p.feed line).draft (p.feed line).events := by
  have hpull := p.pull_eq k
  rw [Connection.collectFrom_of_line (by rw [hpull, h]), hpull]
  rcases hevent : (p.draft.feed line).1 with _ | event
  · have hfeed : p.draft.feed line = (none, (p.draft.feed line).2) := Prod.ext hevent rfl
    have hevents : (p.feed line).events = p.events := by simp [feed, hevent]
    rw [hfeed, hevents]
    rfl
  · have hfeed : p.draft.feed line = (some event, (p.draft.feed line).2) := Prod.ext hevent rfl
    have hevents : (p.feed line).events = p.events ++ [event] := by simp [feed, hevent]
    have hlimit : ¬ Reached limit (p.events ++ [event]).length := by
      intro hreached
      exact hfills ⟨by simp [hevent], by rwa [hevents]⟩
    rw [hfeed, hevents]
    exact if_neg hlimit

/-- Collecting brings the same and reads as far whatever the cancellation pair is. -/
theorem collectFrom_eq (p : Stage) (limit : Option Nat) (k : Cancellation) :
    (Connection.collectFrom ⟨p.body, k⟩ limit p.splitter p.draft p.events).1 =
        (p.collect limit).1 ∧
      (Connection.collectFrom ⟨p.body, k⟩ limit p.splitter p.draft p.events).2.body =
        (p.collect limit).2 := by
  unfold collect
  -- the mute pair is one of many, and both pairs change on the way
  generalize Cancellation.mute = k'
  induction p using induction generalizing k k' with
  | h p ih =>
    rcases hline : p.pull.line with _ | fault | line
    · simp only [collectFrom_of_end hline, and_self]
    · simp only [collectFrom_of_fault hline, and_self]
    · by_cases hfills : p.Fills limit line
      · simp only [collectFrom_of_fills hline hfills, and_self]
      · simp only [collectFrom_of_line hline hfills]
        exact ih line hline _ _

theorem collect_of_end (h : p.pull.line = none) (limit : Option Nat) :
    p.collect limit = (⟨p.events ++ p.draft.finish.1.toList, none⟩, p.pull.connection.body) := by
  simp only [collect, collectFrom_of_end h]

theorem collect_of_fault {fault : Fault} (h : p.pull.line = some (.error fault))
    (limit : Option Nat) :
    p.collect limit = (⟨p.events, some (.io fault)⟩, p.pull.connection.body) := by
  simp only [collect, collectFrom_of_fault h]

theorem collect_of_fills (h : p.pull.line = some (.ok line)) (hfills : p.Fills limit line) :
    p.collect limit = (⟨(p.feed line).events, none⟩, (p.feed line).body) := by
  simp only [collect, collectFrom_of_fills h hfills]

theorem collect_of_line (h : p.pull.line = some (.ok line)) (hfills : ¬ p.Fills limit line) :
    p.collect limit = (p.feed line).collect limit := by
  obtain ⟨houtcome, hbody⟩ :=
    (p.feed line).collectFrom_eq limit (Cancellation.mute.fireAll (p.splitter.passedBy p.body))
  simp only [collect, collectFrom_of_line h hfills]
  exact Prod.ext houtcome hbody

/-- Collecting goes on from a later stage as long as the limit is not reached. -/
theorem Passes.collect_eq (h : Passes p lines q) (hlimit : ¬ Reached limit q.events.length) :
    p.collect limit = q.collect limit := by
  induction h with
  | nil => rfl
  | cons hline hrest ih =>
    have hle := hrest.prefix_events.length_le
    rw [collect_of_line hline fun hfills => hlimit (hfills.2.mono hle), ih hlimit]

/-! ### Delivering -/

section Deliver

variable {handler : Handler} {k : Cancellation}

theorem deliver_of_cancelled {reason : String} (h : k.check.1 = some reason) :
    p.deliver handler k = (⟨p.events, some (.cancelled reason)⟩, ⟨p.body, k.check.2⟩) :=
  Connection.deliverFrom_of_cancelled (c := ⟨p.body, k⟩) h

theorem deliver_of_end (hcheck : k.check.1 = none) (h : p.pull.line = none) :
    p.deliver handler k =
      (⟨p.events ++ p.draft.finish.1.toList, none⟩, ⟨p.pull.connection.body,
        k.fireAll (p.splitter.passedBy p.body ++ handler.reasons p.events p.draft.finish.1)⟩) :=
  deliverFrom_turn_end hcheck h

theorem deliver_of_fault {fault : Fault} (hcheck : k.check.1 = none)
    (h : p.pull.line = some (.error fault)) :
    p.deliver handler k =
      (⟨p.events, some (.io fault)⟩,
        ⟨p.pull.connection.body, k.fireAll (p.splitter.passedBy p.body)⟩) :=
  deliverFrom_turn_fault hcheck h

/-- Delivering goes on at the next stage, with all that came up on the way passed to the
cancellation pair. -/
theorem deliver_of_line (hcheck : k.check.1 = none) (h : p.pull.line = some (.ok line)) :
    p.deliver handler k =
      (p.feed line).deliver handler (k.fireAll
        (p.splitter.passedBy p.body ++ handler.reasons p.events (p.draft.feed line).1)) :=
  deliverFrom_turn_line hcheck h

/-- Delivering adds to the events so far. -/
theorem prefix_events_deliver (p : Stage) (handler : Handler) (k : Cancellation) :
    p.events <+: (p.deliver handler k).1.events := by
  induction p using induction generalizing k with
  | h p ih =>
    rcases hcheck : k.check.1 with _ | reason
    · rcases hline : p.pull.line with _ | fault | line
      · rw [deliver_of_end hcheck hline]
        exact List.prefix_append _ _
      · simp only [deliver_of_fault hcheck hline, List.prefix_refl]
      · rw [deliver_of_line hcheck hline]
        exact (List.prefix_append _ _).trans (ih line hline _)
    · simp only [deliver_of_cancelled hcheck, List.prefix_refl]

end Deliver

end Stage

/-! ### The whole of a body -/

namespace Connection

variable {contentType : Option String}

/-- Collecting from a connection is collecting from the first stage of its body. -/
theorem collect_eq_start (htype : Announces contentType) (c : Connection) (maxEvents : Int) :
    (c.collect contentType maxEvents).1 = (c.body.start.collect (limitOf maxEvents)).1 ∧
      (c.collect contentType maxEvents).2.body =
        (c.body.start.collect (limitOf maxEvents)).2 := by
  rw [collect, checkContentType_of_announces htype]
  exact c.body.start.collectFrom_eq (limitOf maxEvents) c.cancellation

/-- Delivering from a connection is delivering from the first stage of its body. -/
theorem deliver_eq_start (htype : Announces contentType) (c : Connection) (handler : Handler) :
    c.deliver contentType handler = c.body.start.deliver handler c.cancellation := by
  rw [deliver, checkContentType_of_announces htype]
  rfl

end Connection

open Stage

variable {p : Stage} {whole : Content} {reads : List Read}

/-- A stage that faces some reads passes through the lines in front of the first failure. There the
failure comes, or the end. -/
theorem Splitter.Facing.exists_passes (h : p.splitter.Facing whole p.body reads) :
    ∃ q, Passes p (upToFailure (reads.map Read.line)).1 q ∧
      q.pull.line = (upToFailure (reads.map Read.line)).2.map .error := by
  -- each read that is a line leads to the next stage, and any other read is where it stops
  induction reads generalizing p with
  | nil => exact ⟨p, .nil p, (Splitter.Facing.pull_nil (c := ⟨p.body, .mute⟩) h).1⟩
  | cons read reads ih =>
    have hline := (Splitter.Facing.pull_cons (c := ⟨p.body, .mute⟩) h).1
    obtain ⟨fault | line, rest⟩ := read
    · exact ⟨p, .nil p, hline⟩
    · have hnext : (p.feed line).splitter.Facing whole (p.feed line).body reads :=
        Splitter.Facing.pull_ok (c := ⟨p.body, .mute⟩) h
      obtain ⟨q, hpasses, hstop⟩ := ih hnext
      exact ⟨q, .cons hline hpasses, hstop⟩

/-- A body passes through all its lines, and there it ends or fails. -/
theorem Body.exists_passes (b : Body) :
    ∃ q, Passes b.start b.lines q ∧ q.pull.line = b.failure.map .error :=
  Splitter.Facing.exists_passes (p := b.start) (Splitter.facing_start b)

end EventStream
