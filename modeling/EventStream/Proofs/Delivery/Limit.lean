import EventStream.Proofs.Delivery.Stages
/-!
# Where a limit stops

A limit has an effect only at an empty line that completes an event. Where the lines of a body
complete as many events as the limit allows, collecting stops right behind the empty line of the
last one, and the events are the first ones of those that the lines complete. Otherwise the limit
might as well not be there.

## Main definitions

* `Body.CompletesAt` — the stage in front of the empty line that completes an event of given number
* `Body.StopsAt` — the stage at which the body ends or fails

## Main results

* `exists_completesAt` — every event that lines complete has such a stage
* `CompletesAt.collect_eq` — collecting with a limit stops right behind it
* `collect_of_not_reached` — a limit that is not reached by lines has no effect
* `collect_unlimited` — without a limit, collecting brings all that the body has to tell
-/

namespace EventStream

open Stage

/-- The lines lead to a stage at which the next line is empty and completes the `n`-th event. -/
structure Body.CompletesAt (b : Body) (n : Nat) (lines : List String) (p : Stage) : Prop where
  passes : Passes b.start lines p
  pull_line : p.pull.line = some (.ok "")
  draft_feed : ∃ event, p.draft.feed "" = (some event, {})
  length_events : p.events.length + 1 = n

variable {b : Body} {n : Nat} {lines : List String} {p : Stage} {limit : Option Nat}

namespace Body

/-- Every event that lines complete is completed by an empty line. -/
theorem exists_completesAt (hn : 0 < n) (h : n ≤ b.completed.length) :
    ∃ lines p, b.CompletesAt n lines p := by
  obtain ⟨q, hpasses, -⟩ := b.exists_passes
  obtain ⟨before, after, event, hlines, hlength, hfeed⟩ :=
    Draft.exists_eq_append_of_lt (Nat.sub_one_lt_of_le hn h)
  -- the way through all lines is cut in front of the empty line
  rw [hlines] at hpasses
  obtain ⟨p, hbefore, hafter⟩ := Passes.append_iff.1 hpasses
  obtain ⟨hdraft, hevents⟩ := hbefore.draft_events_eq
  refine ⟨before, p, hbefore, ?_, ⟨event, by rw [hdraft]; exact hfeed⟩, ?_⟩
  · cases hafter with
    | cons hline _ => exact hline
  · rw [hevents]
    simp [start, hlength]
    omega

namespace CompletesAt

variable (h : b.CompletesAt n lines p)

include h

theorem passes_feed : Passes b.start (lines ++ [""]) (p.feed "") :=
  h.passes.append (.cons h.pull_line (.nil _))

theorem length_lt : p.events.length < n := by
  have hcount := h.length_events
  omega

theorem length_feed : (p.feed "").events.length = n := by
  obtain ⟨event, hevent⟩ := h.draft_feed
  simpa [feed, hevent] using h.length_events

theorem draft_eq : (p.feed "").draft = {} := by
  obtain ⟨event, hevent⟩ := h.draft_feed
  simp [feed, hevent]

/-- The events behind the empty line are the first ones of those that lines complete. -/
theorem events_feed : (p.feed "").events = b.completed.take n := by
  obtain ⟨q, hpasses, hstop⟩ := b.exists_passes
  have hlast : ∀ line, q.pull.line ≠ some (.ok line) := by
    intro line hline
    rw [hstop] at hline
    cases hfailure : b.failure <;> rw [hfailure] at hline <;> cases hline
  -- so the lines up to the empty one stand in front of all lines, and their events in front too
  obtain ⟨after, hlines⟩ := h.passes_feed.prefix_lines hpasses hlast
  have hevents := h.passes_feed.draft_events_eq.2
  rw [completed, ← hlines, Draft.feedAll_append, hevents]
  exact (List.take_left' (hevents ▸ h.length_feed)).symm

/-- Collecting as many events stops right behind the empty line. -/
theorem collect_eq :
    b.start.collect (some n) = (⟨b.completed.take n, none⟩, (p.feed "").body) := by
  obtain ⟨event, hevent⟩ := h.draft_feed
  have hbefore : ¬ Reached (some n) p.events.length :=
    mt reached_some.1 (Nat.not_le.2 h.length_lt)
  have hfills : p.Fills (some n) "" :=
    ⟨by simp [hevent], reached_some.2 (Nat.le_of_eq h.length_feed.symm)⟩
  rw [h.passes.collect_eq hbefore, collect_of_fills h.pull_line hfills, h.events_feed]

/-- Collecting more events goes on behind the empty line. -/
theorem collect_of_not_reached (hlimit : ¬ Reached limit n) :
    b.start.collect limit = (p.feed "").collect limit := by
  have hbefore : ¬ Reached limit p.events.length := fun hreached =>
    hlimit (hreached.mono (Nat.le_of_lt h.length_lt))
  have hfills : ¬ p.Fills limit "" := fun hfills => hlimit (h.length_feed ▸ hfills.2)
  rw [h.passes.collect_eq hbefore, collect_of_line h.pull_line hfills]

end CompletesAt

/-! ### Where a body stops -/

/-- The lines lead to the stage at which the body ends or fails. -/
structure StopsAt (b : Body) (q : Stage) : Prop where
  passes : Passes b.start b.lines q
  pull_line : q.pull.line = b.failure.map .error
  events_eq : q.events = b.completed
  draft_eq : q.draft = b.pending

theorem exists_stopsAt (b : Body) : ∃ q, b.StopsAt q := by
  obtain ⟨q, hpasses, hstop⟩ := b.exists_passes
  obtain ⟨hdraft, hevents⟩ := hpasses.draft_events_eq
  exact ⟨q, hpasses, hstop, hevents, hdraft⟩

/-- At this stage all that the body has to tell is collected, whatever the limit is. -/
theorem StopsAt.collect_eq {q : Stage} (h : b.StopsAt q) (limit : Option Nat) :
    q.collect limit = (b.outcome, q.pull.connection.body) := by
  have hline := h.pull_line
  rcases hfailure : b.failure with _ | fault
  · rw [hfailure] at hline
    rw [collect_of_end hline, h.events_eq, h.draft_eq, outcome_of_end hfailure]
  · rw [hfailure] at hline
    rw [collect_of_fault hline, h.events_eq, outcome_of_failure hfailure]

/-- A limit that is not reached by lines has no effect: all that the body has to tell is collected,
and the body is read to its end or its failure. -/
theorem collect_of_not_reached (hlimit : ¬ Reached limit b.completed.length) :
    (b.start.collect limit).1 = b.outcome ∧
      (b.start.collect limit).2 = (b.start.collect none).2 := by
  obtain ⟨q, hstops⟩ := b.exists_stopsAt
  rw [hstops.passes.collect_eq (hstops.events_eq ▸ hlimit),
    hstops.passes.collect_eq (not_reached_none _), hstops.collect_eq, hstops.collect_eq]
  exact ⟨rfl, rfl⟩

end Body

namespace Connection

variable {c : Connection} {contentType : Option String}

/-- Where an empty line completes the `n`-th event, collecting `n` events stops behind that line. -/
theorem collect_of_completesAt (h : c.body.CompletesAt n lines p)
    (htype : Announces contentType) :
    (c.collect contentType n).1 = ⟨c.body.completed.take n, none⟩ ∧
      (c.collect contentType n).2.body = (p.feed "").body := by
  have hn : 0 < n := Nat.zero_lt_of_lt h.length_lt
  obtain ⟨houtcome, hbody⟩ := collect_eq_start htype c n
  rw [houtcome, hbody, limitOf_natCast hn, h.collect_eq]
  exact ⟨rfl, rfl⟩

/-- A limit that lines do not reach has no effect. -/
theorem collect_of_not_reached {maxEvents : Int} (htype : Announces contentType)
    (hlimit : ¬ Reached (limitOf maxEvents) c.body.completed.length) :
    (c.collect contentType maxEvents).1 = c.body.outcome ∧
      (c.collect contentType maxEvents).2.body = (c.body.start.collect none).2 := by
  obtain ⟨houtcome, hbody⟩ := collect_eq_start htype c maxEvents
  rw [houtcome, hbody]
  exact Body.collect_of_not_reached hlimit

/-- Without a limit, all that the body has to tell is collected. -/
theorem collect_unlimited {maxEvents : Int} (htype : Announces contentType)
    (hmax : maxEvents ≤ 0) :
    (c.collect contentType maxEvents).1 = c.body.outcome ∧
      (c.collect contentType maxEvents).2.body = (c.body.start.collect none).2 := by
  apply collect_of_not_reached htype
  rw [limitOf_of_nonpos hmax]
  exact not_reached_none _

end Connection

end EventStream
