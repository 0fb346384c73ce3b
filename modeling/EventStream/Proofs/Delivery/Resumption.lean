import EventStream.Proofs.Delivery.Modes
import EventStream.Proofs.Delivery.Traversed
import EventStream.Proofs.Line.Fresh
/-!
# Going on with the same body

A call that stops behind an empty line leaves a body from which a second call can go on. The second
call starts with a fresh splitter and an empty draft, and nothing is lost by that: the draft is
empty behind an event, no bytes are kept behind a line, and a line feed that is left of the last
terminator makes an empty line, which does nothing to an empty draft. Only a byte order mark that
follows would be taken for the one in front of a body.

## Main definitions

* `Connection.Resumes` — two calls bring what one call with both limits brings

## Main results

* `collect_fresh` — behind an event, starting afresh makes no difference
* `collect_shift` — events in front raise the limit
* `exists_completesAt_of_cancelled` — where a delivery stops that its handler cancels
* `collect_resumes` — collecting goes on behind a call that reached its limit or was cancelled by
  its handler
-/

namespace EventStream

open Splitter

namespace Stage

variable {p p' : Stage} {limit : Option Nat}

/-- Where two stages have the same draft and the same events, and their next pulls are the same,
the same is collected from them. -/
theorem collect_congr (h : p.pull.Same p'.pull) (hdraft : p.draft = p'.draft)
    (hevents : p.events = p'.events) (limit : Option Nat) :
    p.collect limit = p'.collect limit := by
  rcases hline : p.pull.line with _ | fault | line
  · rw [collect_of_end hline, collect_of_end (h.line_eq ▸ hline), hdraft, hevents, h.body_eq]
  · rw [collect_of_fault hline, collect_of_fault (h.line_eq ▸ hline), hevents, h.body_eq]
  · have hline' : p'.pull.line = some (.ok line) := h.line_eq ▸ hline
    have hfeed : p.feed line = p'.feed line := by
      simp only [feed, hdraft, hevents, h.body_eq, h.splitter_eq line hline]
    have hiff : p.Fills limit line ↔ p'.Fills limit line := by rw [Fills, Fills, hdraft, hfeed]
    by_cases hfills : p.Fills limit line
    · rw [collect_of_fills hline hfills, collect_of_fills hline' (hiff.1 hfills), hfeed]
    · rw [collect_of_line hline hfills, collect_of_line hline' (mt hiff.2 hfills), hfeed]

/-- The stage with a fresh splitter. -/
def afresh (p : Stage) : Stage := { p with splitter := {} }

/-- Behind a line that leaves an empty draft, starting afresh makes no difference, unless a mark
follows. -/
theorem collect_fresh {skips : Bool} (hsplitter : p.splitter = ⟨[], skips, true, false⟩)
    (hdraft : p.draft = {}) (hmark : ¬ byteOrderMark <+: Arrival.bytes p.body.arrivals)
    (limit : Option Nat) : p.collect limit = p.afresh.collect limit := by
  by_cases hskip : skips = true ∧ (Arrival.bytes p.body.arrivals).head? = some lineFeed
  · -- the line feed is an empty line now, and behind it the pulls are the same
    obtain ⟨hline, hpull⟩ := ask_skipping p.body.consumed hskip.2
    have hfresh : p.afresh.pull.line = some (.ok "") := hline
    have hfills : ¬ p.afresh.Fills limit "" := by simp [Fills, afresh, hdraft]
    have hsame : p.pull = (p.afresh.feed "").pull := by
      rw [pull, hsplitter, hskip.1]
      exact hpull
    rw [collect_of_line hfresh hfills]
    apply collect_congr
    · rw [hsame]
      exact ⟨rfl, rfl, fun _ _ => rfl⟩
    · simp [feed, afresh, hdraft]
    · simp [feed, afresh, hdraft]
  · have hsame : p.pull.Same p.afresh.pull := by
      rw [pull, hsplitter]
      exact (alike_fresh hskip hmark).pull
    exact collect_congr hsame rfl rfl limit

/-- The stage with some events in front of those so far. -/
def shift (front : List Event) (p : Stage) : Stage := { p with events := front ++ p.events }

theorem length_events_shift (front : List Event) (p : Stage) :
    (p.shift front).events.length = front.length + p.events.length := List.length_append

theorem reached_map {k n : Nat} : Reached (limit.map (k + ·)) (k + n) ↔ Reached limit n := by
  cases limit with
  | none => simp [Reached]
  | some m => simp [Reached]

/-- With some events in front, and a limit that is as much higher, the same is collected behind
them. -/
theorem collect_shift (front : List Event) (p : Stage) (limit : Option Nat) :
    (p.shift front).collect (limit.map (front.length + ·)) =
      (⟨front ++ (p.collect limit).1.events, (p.collect limit).1.error⟩, (p.collect limit).2) := by
  induction p using induction with
  | h p ih =>
    rcases hline : p.pull.line with _ | fault | line
    · have hline' : (p.shift front).pull.line = none := hline
      rw [collect_of_end hline, collect_of_end hline']
      simp [shift, pull]
    · have hline' : (p.shift front).pull.line = some (.error fault) := hline
      rw [collect_of_fault hline, collect_of_fault hline']
      rfl
    · have hline' : (p.shift front).pull.line = some (.ok line) := hline
      have hfeed : (p.shift front).feed line = (p.feed line).shift front := by
        simp [shift, feed, pull]
      -- the higher limit is filled exactly where the other one is
      have hiff : (p.shift front).Fills (limit.map (front.length + ·)) line ↔
          p.Fills limit line := by
        rw [Fills, Fills, hfeed, length_events_shift, reached_map]
        rfl
      by_cases hfills : p.Fills limit line
      · rw [collect_of_fills hline hfills, collect_of_fills hline' (hiff.2 hfills), hfeed]
        rfl
      · rw [collect_of_line hline hfills, collect_of_line hline' (mt hiff.1 hfills), hfeed]
        exact ih line hline

/-! ### Deliveries that the handler cancels -/

/-- Where the handler has cancelled with the last event and the delivery stops for that, it stops
right behind the empty line that completes the event. -/
theorem exists_passes_of_cancelled {handler : Handler} {k : Cancellation} (harmed : k.Armed)
    {reason : String} (herror : (p.deliver handler k).1.error = some (.cancelled reason))
    (hlt : p.events.length < (p.deliver handler k).1.events.length)
    (hhandler : handler (p.deliver handler k).1.events ≠ []) :
    ∃ lines q event, Passes p lines q ∧ q.pull.line = some (.ok "") ∧
      q.draft.feed "" = (some event, {}) ∧
      (p.deliver handler k).1.events = (q.feed "").events ∧
      (p.deliver handler k).2.body = (q.feed "").body := by
  induction p using induction with
  | h p ih =>
    rcases hline : p.pull.line with _ | fault | line
    · rw [deliver_of_end harmed.check_eq_none hline] at herror
      cases herror
    · rw [deliver_of_fault harmed.check_eq_none hline] at herror
      cases herror
    · rw [deliver_of_line harmed.check_eq_none hline] at herror hlt hhandler ⊢
      have hfired := Cancellation.check_fireAll_of_armed harmed
        (p.splitter.passedBy p.body ++ handler.reasons p.events (p.draft.feed line).1)
      rcases hreasons : p.splitter.passedBy p.body ++ handler.reasons p.events (p.draft.feed line).1
        with _ | ⟨r, reasons⟩
      · -- nobody cancels here, so this event is not the one with which the handler cancels
        rw [hreasons] at herror hlt hhandler
        have hsofar := (p.feed line).prefix_events_deliver handler (k.fireAll [])
        have hnext : (p.feed line).events.length <
            ((p.feed line).deliver handler (k.fireAll [])).1.events.length := by
          rcases hevent : (p.draft.feed line).1 with _ | event
          · simpa [feed, hevent] using hlt
          · have hquiet := (List.append_eq_nil_iff.1 hreasons).2
            rw [hevent] at hquiet
            apply Nat.lt_of_le_of_ne hsofar.length_le
            intro heq
            apply hhandler
            rw [← hsofar.eq_of_length heq]
            simpa [feed, hevent, Handler.reasons] using hquiet
        obtain ⟨lines, q, event, hpasses, hempty, hfeed, hevents, hbody⟩ :=
          ih line hline herror hnext hhandler
        exact ⟨line :: lines, q, event, .cons hline hpasses, hempty, hfeed, hevents, hbody⟩
      · -- the signal has fired, and the check in front of the next line stops the delivery
        rw [hreasons] at hfired hlt
        rw [deliver_of_cancelled hfired] at hlt ⊢
        rcases hevent : (p.draft.feed line).1 with _ | event
        · simp [feed, hevent] at hlt
        · obtain ⟨rfl, -, hfeed⟩ := Draft.of_feed_eq_some hevent
          exact ⟨[], p, event, .nil p, hline, hfeed, rfl, rfl⟩

end Stage

open Stage

namespace Body

variable {b : Body} {n : Nat} {lines : List String} {p : Stage} {limit : Option Nat}

/-- One call whose limit allows more events brings those up to the empty line, and then what a call
that starts afresh behind that line brings. -/
theorem CompletesAt.collect_map (h : b.CompletesAt n lines p)
    (hmark : ¬ byteOrderMark <+: Arrival.bytes (p.feed "").body.arrivals)
    (hlimit : ¬ Reached limit 0) :
    b.start.collect (limit.map (n + ·)) =
      (⟨(p.feed "").events ++ ((p.feed "").body.start.collect limit).1.events,
        ((p.feed "").body.start.collect limit).1.error⟩,
        ((p.feed "").body.start.collect limit).2) := by
  have hreached : ¬ Reached (limit.map (n + ·)) n := fun hreached =>
    hlimit ((reached_map (n := 0)).1 hreached)
  have hshift : (p.feed "").afresh = (p.feed "").body.start.shift (p.feed "").events := by
    simp [afresh, start, shift, h.draft_eq]
  rw [h.collect_of_not_reached hreached, collect_fresh h.splitter_feed h.draft_eq hmark, hshift,
    ← collect_shift, h.length_feed]

end Body

namespace Connection

/-- Collecting goes on behind a first call that brought `n` events: whatever limit the second call
has, both together bring what a single call with both limits brings, and read the body as far. -/
def Resumes (c : Connection) (contentType : Option String) (n : Nat)
    (first : Outcome × Connection) : Prop :=
  ∀ maxEvents : Int,
    (c.collect contentType (if maxEvents ≤ 0 then 0 else n + maxEvents)).1 =
        ⟨first.1.events ++ (first.2.collect contentType maxEvents).1.events,
          (first.2.collect contentType maxEvents).1.error⟩ ∧
      (c.collect contentType (if maxEvents ≤ 0 then 0 else n + maxEvents)).2.body =
        (first.2.collect contentType maxEvents).2.body

variable {c : Connection} {contentType : Option String} {n : Nat}

theorem limitOf_add (n : Nat) (maxEvents : Int) :
    limitOf (if maxEvents ≤ 0 then 0 else n + maxEvents) = (limitOf maxEvents).map (n + ·) := by
  by_cases h : 0 < maxEvents
  · have hsum : 0 < n + maxEvents := by omega
    rw [if_neg (Int.not_le.2 h), limitOf, if_pos hsum, limitOf, if_pos h, Option.map_some]
    congr 1
    omega
  · have hnonpos := Int.not_lt.1 h
    rw [if_pos hnonpos, limitOf_of_nonpos hnonpos, limitOf_of_nonpos (Int.le_refl 0)]
    rfl

theorem not_reached_limitOf_zero (maxEvents : Int) : ¬ Reached (limitOf maxEvents) 0 := by
  by_cases h : 0 < maxEvents
  · rw [limitOf, if_pos h, reached_some]
    omega
  · rw [limitOf_of_nonpos (Int.not_lt.1 h)]
    exact not_reached_none 0

/-- A call that stops behind the empty line of an event can be gone on with. -/
theorem resumes_of_completesAt {lines : List String} {p : Stage} {first : Outcome × Connection}
    (h : c.body.CompletesAt n lines p) (htype : Announces contentType)
    (hevents : first.1.events = (p.feed "").events) (hbody : first.2.body = (p.feed "").body)
    (hmark : ¬ byteOrderMark <+: Arrival.bytes first.2.body.arrivals) :
    c.Resumes contentType n first := by
  intro maxEvents
  obtain ⟨hsingle, hsingle'⟩ :=
    collect_eq_start htype c (if maxEvents ≤ 0 then 0 else n + maxEvents)
  obtain ⟨hsecond, hsecond'⟩ := collect_eq_start htype first.2 maxEvents
  have hboth := h.collect_map (hbody ▸ hmark) (not_reached_limitOf_zero maxEvents)
  rw [limitOf_add, hboth] at hsingle hsingle'
  rw [hsingle, hsingle', hsecond, hsecond', hevents, hbody]
  exact ⟨rfl, rfl⟩

/-- A signal that cancels a delivery behind an event had not fired before, and could fire. -/
theorem armed_of_cancelled {handler : Handler} {reason : String} (htype : Announces contentType)
    (herror : (c.deliver contentType handler).1.error = some (.cancelled reason))
    (hne : (c.deliver contentType handler).1.events ≠ []) : c.cancellation.Armed := by
  rcases hcheck : c.cancellation.check.1 with _ | fired
  · -- where the signal cannot fire, the error can only be a failure
    refine Decidable.byContradiction fun hnot => ?_
    have hunfired : (c.deliver contentType handler).2.cancellation.check.1 = none := by
      rw [deliver_eq_start htype]
      exact check_deliver_of_not_armed hcheck hnot c.body.start handler
    rw [(deliver_of_unfired htype hunfired).1] at herror
    rcases hfailure : c.body.failure <;> simp [Body.outcome, hfailure] at herror
  · rw [deliver_eq_start htype, deliver_of_cancelled hcheck] at hne
    exact absurd rfl hne

/-- Where a handler has cancelled a delivery with the `n`-th event, that event was completed by an
empty line, and the delivery has stopped behind it. -/
theorem exists_completesAt_of_cancelled {handler : Handler} {reason : String} (hn : 0 < n)
    (htype : Announces contentType)
    (herror : (c.deliver contentType handler).1.error = some (.cancelled reason))
    (hlength : (c.deliver contentType handler).1.events.length = n)
    (hhandler : handler (c.deliver contentType handler).1.events ≠ []) :
    ∃ lines p, c.body.CompletesAt n lines p ∧
      (c.deliver contentType handler).1.events = (p.feed "").events ∧
      (c.deliver contentType handler).2.body = (p.feed "").body := by
  have hpos : 0 < (c.deliver contentType handler).1.events.length := hlength ▸ hn
  have harmed := armed_of_cancelled htype herror (List.length_pos_iff.1 hpos)
  rw [deliver_eq_start htype] at herror hlength hhandler hpos ⊢
  obtain ⟨lines, p, event, hpasses, hline, hfeed, hevents, hbody⟩ :=
    exists_passes_of_cancelled harmed herror hpos hhandler
  refine ⟨lines, p, ⟨hpasses, hline, ⟨event, hfeed⟩, ?_⟩, hevents, hbody⟩
  rw [← hlength, hevents]
  simp [feed, hfeed]

/-- Calls on the same body lose and duplicate nothing. Where a first call stops behind an empty line
since its limit of `n` events is reached, or since its handler cancels with the `n`-th event, and no
byte order mark follows there, a second call goes on as a single one would have done. -/
theorem collect_resumes (c : Connection) (htype : Announces contentType) (hn : 0 < n) :
    (n ≤ c.body.completed.length →
      ¬ byteOrderMark <+: Arrival.bytes (c.collect contentType n).2.body.arrivals →
        c.Resumes contentType n (c.collect contentType n)) ∧
    (∀ (handler : Handler) (reason : String),
      (c.deliver contentType handler).1.error = some (.cancelled reason) →
      (c.deliver contentType handler).1.events.length = n →
      handler (c.deliver contentType handler).1.events ≠ [] →
      ¬ byteOrderMark <+: Arrival.bytes (c.deliver contentType handler).2.body.arrivals →
        c.Resumes contentType n (c.deliver contentType handler)) := by
  constructor
  · intro hlines hmark
    obtain ⟨lines, p, hstage⟩ := Body.exists_completesAt hn hlines
    obtain ⟨houtcome, hbody⟩ := collect_of_completesAt hstage htype
    have hevents : (c.collect contentType n).1.events = (p.feed "").events := by
      rw [houtcome, hstage.events_feed]
    exact resumes_of_completesAt hstage htype hevents hbody hmark
  · intro handler reason herror hlength hhandler hmark
    obtain ⟨lines, p, hstage, hevents, hbody⟩ :=
      exists_completesAt_of_cancelled hn htype herror hlength hhandler
    exact resumes_of_completesAt hstage htype hevents hbody hmark

/-- Going on behind the first of two events, where a line feed is left of the pair that ends it: once
after a limit of one, once after a handler that cancels with the first event. -/
theorem collect_resumes_torn_pair :
    Resumes ⟨⟨[.chunk (Text.encode "data: a\n\r"), .pending,
        .chunk (Text.encode "\ndata: b\n\n")], 0⟩, {}⟩ (some "text/event-stream") 1
      (collect ⟨⟨[.chunk (Text.encode "data: a\n\r"), .pending,
        .chunk (Text.encode "\ndata: b\n\n")], 0⟩, {}⟩ (some "text/event-stream") 1) ∧
    Resumes ⟨⟨[.chunk (Text.encode "data: a\n\r"), .pending,
        .chunk (Text.encode "\ndata: b\n\n")], 0⟩, {}⟩ (some "text/event-stream") 1
      (deliver ⟨⟨[.chunk (Text.encode "data: a\n\r"), .pending,
        .chunk (Text.encode "\ndata: b\n\n")], 0⟩, {}⟩ (some "text/event-stream")
        (.cancelWith 1 "enough")) := by
  have htype : Announces (some "text/event-stream") := by decide +kernel
  have hboth := collect_resumes ⟨⟨[.chunk (Text.encode "data: a\n\r"), .pending,
    .chunk (Text.encode "\ndata: b\n\n")], 0⟩, {}⟩ htype (Nat.zero_lt_one)
  exact ⟨hboth.1 (by decide +kernel) (by decide +kernel),
    hboth.2 (.cancelWith 1 "enough") "enough" (by decide +kernel) (by decide +kernel)
      (by decide +kernel) (by decide +kernel)⟩

/-- Why no mark may follow: a single call reads it as part of a line, which names no field then, and
a second call drops it. -/
example :
    (collect ⟨⟨[.chunk (Text.encode "data: a\n\n\uFEFFdata: b\n\n")], 0⟩, {}⟩
        (some "text/event-stream") 0).1.events.length = 1 ∧
      (collect (collect ⟨⟨[.chunk (Text.encode "data: a\n\n\uFEFFdata: b\n\n")], 0⟩, {}⟩
        (some "text/event-stream") 1).2 (some "text/event-stream") 0).1.events.length = 1 := by
  decide +kernel

end Connection

end EventStream
