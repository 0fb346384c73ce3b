import EventStream.Proofs.Delivery.Stages
/-!
# How a delivery stops

Whether events are collected or delivered, lines lead to the stage at which it stops, and there are
four ways to stop: the body has ended, it cannot be read, the limit is reached, or the signal has
fired. So what holds at all stages that lines lead to holds for every outcome.

## Main definitions

* `Stage.Stops` — the outcomes with which a delivery can stop at a stage

## Main results

* `exists_stops_collect`, `exists_stops_deliver` — every outcome comes from the stage at which the
  delivery stops
-/

namespace EventStream.Stage

/-- A delivery that has come to this stage can stop with this outcome. -/
inductive Stops (p : Stage) : Outcome → Prop
  /-- The body has ended, which may complete one more event. -/
  | ended : p.pull.line = none → p.Stops ⟨p.events ++ p.draft.finish.1.toList, none⟩
  /-- The body or the next line cannot be read. -/
  | failed {fault : Fault} :
    p.pull.line = some (.error fault) → p.Stops ⟨p.events, some (.io fault)⟩
  /-- The limit is reached. -/
  | filled {limit : Option Nat} : Reached limit p.events.length → p.Stops ⟨p.events, none⟩
  /-- The signal has fired. -/
  | cancelled (reason : String) : p.Stops ⟨p.events, some (.cancelled reason)⟩

theorem exists_stops_collect (p : Stage) (limit : Option Nat) :
    ∃ lines q, Passes p lines q ∧ q.Stops (p.collect limit).1 := by
  -- the line that fills the limit still leads to a stage, and any other line to one that goes on
  induction p using induction with
  | h p ih =>
    rcases hline : p.pull.line with _ | fault | line
    · refine ⟨[], p, .nil p, ?_⟩
      rw [collect_of_end hline]
      exact .ended hline
    · refine ⟨[], p, .nil p, ?_⟩
      rw [collect_of_fault hline]
      exact .failed hline
    · by_cases hfills : p.Fills limit line
      · refine ⟨[line], p.feed line, .cons hline (.nil _), ?_⟩
        rw [collect_of_fills hline hfills]
        exact .filled hfills.2
      · obtain ⟨lines, q, hpasses, hstops⟩ := ih line hline
        refine ⟨line :: lines, q, .cons hline hpasses, ?_⟩
        rwa [collect_of_line hline hfills]

theorem exists_stops_deliver (p : Stage) (handler : Handler) (k : Cancellation) :
    ∃ lines q, Passes p lines q ∧ q.Stops (p.deliver handler k).1 := by
  -- the signal is checked in front of each line, so it stops the delivery where it stands
  induction p using induction generalizing k with
  | h p ih =>
    rcases hcheck : k.check.1 with _ | reason
    · rcases hline : p.pull.line with _ | fault | line
      · refine ⟨[], p, .nil p, ?_⟩
        rw [deliver_of_end hcheck hline]
        exact .ended hline
      · refine ⟨[], p, .nil p, ?_⟩
        rw [deliver_of_fault hcheck hline]
        exact .failed hline
      · obtain ⟨lines, q, hpasses, hstops⟩ := ih line hline (k.fireAll
          (p.splitter.passedBy p.body ++ handler.reasons p.events (p.draft.feed line).1))
        refine ⟨line :: lines, q, .cons hline hpasses, ?_⟩
        rwa [deliver_of_line hcheck hline]
    · refine ⟨[], p, .nil p, ?_⟩
      rw [deliver_of_cancelled hcheck]
      exact .cancelled reason

end EventStream.Stage
