import EventStream.Proofs.Delivery.EndedLines
import EventStream.Proofs.Delivery.Modes
/-!
# What a failure leaves

A body that fails has told the events that its lines completed before. A body that goes on in its
place tells these too, and then more; a body that ends there tells these, and at most the one that
was pending. Nothing is told of a line whose terminator has not come before the failure.

A line that is not UTF-8 is a failure as well, and it comes in all three bodies where its terminator
comes before they part.

## Main definitions

* `Outcome.Kept` — how the outcomes of a body that fails, one that goes on and one that ends are
  related

## Main results

* `kept_of_valid`, `kept_of_invalid` — the bodies part behind the text, or fail alike before
* `fault_keeps_events` — a failure loses no event and makes none up
-/

namespace EventStream

open Splitter

/-- How the outcomes of three bodies are related that bring the same text at first: then one fails,
one goes on, and one ends, where this draft is pending. -/
structure Outcome.Kept (text : List UInt8) (fault : Fault) (pending : Draft)
    (failed extended ended : Outcome) : Prop where
  /-- What has been told before the failure comes first where the body goes on. -/
  prefix_extended : failed.events <+: extended.events
  /-- The failure is told, if all lines that have ended in the text are UTF-8. -/
  error_of_valid : (∀ row ∈ (byteEnds.cut text).1, Text.decode? row.line ≠ none) →
    failed.error = some (.io fault)
  /-- Otherwise, the first one that is not is the failure in each body. -/
  eq_of_invalid : (∃ row ∈ (byteEnds.cut text).1, Text.decode? row.line = none) →
    failed = extended ∧ failed.error = some (.io .invalidText)
  /-- Where the body ends, the pending event is told as well, unless the tail cannot be read. -/
  events_ended : ended.events =
    failed.events ++ if ended.error = none then pending.finish.1.toList else []
  /-- With a tail that is not UTF-8, nothing more is told. -/
  events_ended_of_invalid : Text.decode? (byteEnds.cut text).2 = none →
    ended.events = failed.events

namespace Body

variable {failed extended ended : Body} {text more : List UInt8} {fault : Fault}

/-- Where all lines that have ended in the text are UTF-8, the bodies part behind them. -/
theorem kept_of_valid (hfailed : Arrival.Bring failed.arrivals text (some fault))
    (hextended : Arrival.Bring extended.arrivals (text ++ more) none)
    (hended : Arrival.Bring ended.arrivals text none)
    (hvalid : ∀ row ∈ (byteEnds.cut text).1, Text.decode? row.line ≠ none) :
    Outcome.Kept text fault ended.pending failed.outcome extended.outcome ended.outcome := by
  have hnone : (upToFailure (endedReads text)).2 = none :=
    upToFailure_readLines_of_valid false (by simpa using hvalid)
  obtain ⟨hlines, hfailure⟩ := lines_failure_of_none (lineReads_of_fault hfailed) hnone
  obtain ⟨reads, hreads⟩ := lineReads_of_append hextended
  obtain ⟨hlines', -⟩ := lines_failure_of_none hreads hnone
  obtain ⟨hlines'', hfailure''⟩ := lines_failure_of_none (lineReads_of_end hended) hnone
  have houtcome : failed.outcome = ⟨failed.completed, some (.io fault)⟩ :=
    outcome_of_failure hfailure
  have hcompleted : failed.completed = (Draft.feedAll {} (upToFailure (endedReads text)).1).1 := by
    simp [completed, hlines, upToFailure]
  have hextends : failed.completed <+: extended.completed := by
    rw [hcompleted, completed, hlines', Draft.feedAll_append]
    exact List.prefix_append _ _
  -- the tail adds to the draft, but it completes nothing
  have hends : ended.completed = failed.completed := by
    rw [hcompleted, completed, hlines'', Draft.feedAll_append]
    dsimp only
    rw [feedAll_tail, List.append_nil]
  constructor
  case prefix_extended =>
    rw [houtcome, events_outcome]
    exact hextends.trans (List.prefix_append _ _)
  case error_of_valid =>
    intro _
    rw [houtcome]
  case eq_of_invalid =>
    rintro ⟨row, hrow, hbad⟩
    exact absurd hbad (hvalid row hrow)
  case events_ended =>
    rw [events_outcome, hends, houtcome]
  case events_ended_of_invalid =>
    intro hbad
    have htail : (byteEnds.cut text).2 ≠ [] := by
      intro htail
      rw [htail, show Text.decode? [] = some "" from Text.decode?_encode ""] at hbad
      cases hbad
    rw [if_neg htail, readLines, readLine_of_decode?_eq_none _ hbad] at hfailure''
    rw [outcome_of_failure hfailure'', hends, houtcome]

/-- Where a line that has ended in the text is not UTF-8, it stops the reading of all bodies. -/
theorem kept_of_invalid (hfailed : Arrival.Bring failed.arrivals text (some fault))
    (hextended : Arrival.Bring extended.arrivals (text ++ more) none)
    (hended : Arrival.Bring ended.arrivals text none)
    (hinvalid : ∃ row ∈ (byteEnds.cut text).1, Text.decode? row.line = none) :
    Outcome.Kept text fault ended.pending failed.outcome extended.outcome ended.outcome := by
  have hsome : (upToFailure (endedReads text)).2 = some .invalidText := by
    obtain ⟨row, hrow, hbad⟩ := hinvalid
    exact upToFailure_readLines_of_invalid false ⟨row.line, List.mem_map_of_mem hrow, hbad⟩
  obtain ⟨hlines, hfailure⟩ := lines_failure_of_some (lineReads_of_fault hfailed) hsome
  obtain ⟨reads, hreads⟩ := lineReads_of_append hextended
  obtain ⟨hlines', hfailure'⟩ := lines_failure_of_some hreads hsome
  obtain ⟨hlines'', hfailure''⟩ := lines_failure_of_some (lineReads_of_end hended) hsome
  have hextends : extended.outcome = failed.outcome :=
    outcome_congr (hlines'.trans hlines.symm) (hfailure'.trans hfailure.symm)
  have hends : ended.outcome = failed.outcome :=
    outcome_congr (hlines''.trans hlines.symm) (hfailure''.trans hfailure.symm)
  have houtcome := outcome_of_failure hfailure
  rw [hextends, hends, houtcome]
  exact ⟨List.prefix_refl _, fun hvalid => absurd hinvalid (by simpa using hvalid),
    fun _ => ⟨rfl, rfl⟩, by simp, fun _ => rfl⟩

/-- A failure behind a text loses none of the events completed before, and makes up none. -/
theorem kept (hfailed : Arrival.Bring failed.arrivals text (some fault))
    (hextended : Arrival.Bring extended.arrivals (text ++ more) none)
    (hended : Arrival.Bring ended.arrivals text none) :
    Outcome.Kept text fault ended.pending failed.outcome extended.outcome ended.outcome := by
  by_cases hvalid : ∀ row ∈ (byteEnds.cut text).1, Text.decode? row.line ≠ none
  · exact kept_of_valid hfailed hextended hended hvalid
  · exact kept_of_invalid hfailed hextended hended (by simpa using hvalid)

end Body

namespace Connection

variable {text more : List UInt8} {fault : Fault} {contentType : Option String}

/-- A failure loses no event that has been completed before and makes none up, whether the events
are collected without a limit or delivered while the signal does not fire: those told before the
failure are the first ones of what is told where the body goes on instead, and where it ends, at
most the pending one is added. -/
theorem fault_keeps_events (failed extended ended : Connection)
    (htype : Announces contentType)
    (hfailed : Arrival.Bring failed.body.arrivals text (some fault))
    (hextended : Arrival.Bring extended.body.arrivals (text ++ more) none)
    (hended : Arrival.Bring ended.body.arrivals text none) :
    (∀ maxEvents : Int, maxEvents ≤ 0 →
      Outcome.Kept text fault ended.body.pending (failed.collect contentType maxEvents).1
        (extended.collect contentType maxEvents).1 (ended.collect contentType maxEvents).1) ∧
    (∀ handler handler' handler'' : Handler,
      (failed.deliver contentType handler).2.cancellation.check.1 = none →
      (extended.deliver contentType handler').2.cancellation.check.1 = none →
      (ended.deliver contentType handler'').2.cancellation.check.1 = none →
      Outcome.Kept text fault ended.body.pending (failed.deliver contentType handler).1
        (extended.deliver contentType handler').1 (ended.deliver contentType handler'').1) := by
  have hkept := Body.kept hfailed hextended hended
  constructor
  · intro maxEvents hmax
    rw [(collect_unlimited htype hmax).1, (collect_unlimited htype hmax).1,
      (collect_unlimited htype hmax).1]
    exact hkept
  · intro handler handler' handler'' hunfired hunfired' hunfired''
    rw [(deliver_of_unfired htype hunfired).1, (deliver_of_unfired htype hunfired').1,
      (deliver_of_unfired htype hunfired'').1]
    exact hkept

/-- A failure in the middle of a pair, behind the first event and the first line of the second. -/
theorem fault_keeps_events_torn_pair :
    (collect ⟨⟨[.chunk (Text.encode "data: a\n\ndata: b\r"), .fault ⟨"ConnectionReset", "reset"⟩],
        0⟩, {}⟩ (some "text/event-stream") 0).1.events <+:
      (collect ⟨⟨[.chunk (Text.encode "data: a\n\nda"), .chunk (Text.encode "ta: b\r\n\n")],
        0⟩, {}⟩ (some "text/event-stream") 0).1.events ∧
    (deliver ⟨⟨[.chunk (Text.encode "data: a\n\ndata: b\r"), .fault ⟨"ConnectionReset", "reset"⟩],
        0⟩, {}⟩ (some "text/event-stream") fun _ => []).1.error =
      some (.io ⟨"ConnectionReset", "reset"⟩) := by
  have htype : Announces (some "text/event-stream") := by decide +kernel
  have hfailed : Arrival.Bring
      [.chunk (Text.encode "data: a\n\ndata: b\r"), .fault ⟨"ConnectionReset", "reset"⟩]
      (Text.encode "data: a\n\ndata: b\r") (some ⟨"ConnectionReset", "reset"⟩) := by
    decide +kernel
  have hextended : Arrival.Bring
      [.chunk (Text.encode "data: a\n\nda"), .chunk (Text.encode "ta: b\r\n\n")]
      (Text.encode "data: a\n\ndata: b\r" ++ Text.encode "\n\n") none := by
    decide +kernel
  have hended : Arrival.Bring [.chunk (Text.encode "data: a\n\ndata: b\r")]
      (Text.encode "data: a\n\ndata: b\r") none := by
    decide +kernel
  have hkept := fault_keeps_events ⟨⟨_, 0⟩, {}⟩ ⟨⟨_, 0⟩, {}⟩ ⟨⟨_, 0⟩, {}⟩ htype hfailed hextended
    hended
  have hvalid : ∀ row ∈ (byteEnds.cut (Text.encode "data: a\n\ndata: b\r")).1,
      Text.decode? row.line ≠ none := by
    decide +kernel
  exact ⟨(hkept.1 0 (by decide)).prefix_extended,
    (hkept.2 (fun _ => []) (fun _ => []) (fun _ => []) (by decide +kernel) (by decide +kernel)
      (by decide +kernel)).error_of_valid hvalid⟩

end Connection

end EventStream
