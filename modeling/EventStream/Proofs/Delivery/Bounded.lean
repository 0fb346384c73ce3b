import EventStream.Proofs.Delivery.Traversed
/-!
# A limit takes a prefix

Collecting with a limit brings the first events of those that are collected without one. Where the
limit is not met, nothing changes at all. Where it is met, the failure that would come later is not
seen; and where an empty line completes the last event, the body is left behind the terminator of
that line, with nothing asked behind it. The event that the end of the body completes counts too.

## Main definitions

* `Body.LeftBehind` — what is left behind the empty line that completes the last of some events

## Main results

* `limitOf_toInt` — a signed word is the limit that it is as an unsigned word
* `CompletesAt.leftBehind` — the body behind the empty line that completes an event
* `collect_bounded` — what a limit does
-/

namespace EventStream

open Stage Splitter

/-- The limit that a signed word stands for is the word taken as unsigned. -/
theorem limitOf_toInt (m : Int64) :
    limitOf m.toInt = if 0 < m then some m.toUInt64.toNat else none := by
  have hiff : 0 < m ↔ 0 < m.toInt := Int64.lt_iff_toInt_lt
  unfold limitOf
  by_cases h : 0 < m
  · rw [if_pos h, if_pos (hiff.1 h), Int64.toNat_toUInt64_of_le (Int64.le_of_lt h),
      Int64.toNat_toInt]
  · rw [if_neg h, if_neg (mt hiff.2 h)]

/-- What is left of a body behind the empty line that completes the last of these events. The bytes
in front of it are terminated lines; the last one is empty and completes the event, and nothing has
been asked behind its terminator. -/
def Body.LeftBehind (b : Body) (events : List Event) (rest : Body) : Prop :=
  ∃ taken lines event, rest = b.behind taken.length ∧
    Arrival.bytes b.arrivals = taken ++ Arrival.bytes rest.arrivals ∧
    (byteEnds.cut taken).2 = [] ∧
    readLines false ((byteEnds.cut taken).1.map Row.line) = (lines ++ [""]).map .ok ∧
    events = (Draft.feedAll {} lines).1 ++ [event] ∧
    (Draft.feedAll {} lines).2.feed "" = (some event, {})

/-- Behind the empty line that completes an event, the body is left there. -/
theorem Body.CompletesAt.leftBehind {b : Body} {n : Nat} {lines : List String} {p : Stage}
    (h : b.CompletesAt n lines p) : b.LeftBehind (b.completed.take n) (p.feed "").body := by
  obtain ⟨taken, hbody, hbytes, htail, hlines⟩ := h.exists_taken
  obtain ⟨event, hevent⟩ := h.draft_feed
  obtain ⟨hdraft, hevents⟩ := h.passes.draft_events_eq
  refine ⟨taken, lines, event, hbody, hbytes, htail, hlines, ?_, hdraft ▸ hevent⟩
  rw [← h.events_feed, feed, hevent, hevents]
  rfl

namespace Body

variable {b : Body} {n : Nat}

/-- The end of a body completes at most one event, and only where there is no failure. -/
theorem outcome_eq (b : Body) :
    b.outcome = ⟨b.completed, b.failure.map .io⟩ ∨
      ∃ event, b.outcome = ⟨b.completed ++ [event], none⟩ := by
  unfold outcome
  rcases b.failure with _ | fault
  · rcases b.pending.finish.1 with _ | event
    · left
      simp
    · right
      exact ⟨event, rfl⟩
  · left
    simp

/-- The first events that a body has to tell are those that lines complete. -/
theorem take_events_outcome (h : n ≤ b.completed.length) :
    b.outcome.events.take n = b.completed.take n :=
  List.take_append_of_le_length h

/-- An event that no line completes is the last one, and the body ends without a failure. -/
theorem outcome_eq_take (hlines : b.completed.length < n) (h : n ≤ b.outcome.events.length) :
    b.outcome = ⟨b.outcome.events.take n, none⟩ := by
  rcases b.outcome_eq with houtcome | ⟨event, houtcome⟩
  · rw [houtcome] at h
    exact absurd h (Nat.not_le.2 hlines)
  · rw [houtcome, List.take_of_length_le]
    simp
    omega

end Body

namespace Connection

variable {c : Connection} {contentType : Option String} {n : Nat}

/-- A limit that the events do not meet has no effect. -/
theorem collect_of_length_lt (htype : Announces contentType)
    (h : c.body.outcome.events.length < n) :
    (c.collect contentType n).1 = c.body.outcome ∧
      (c.collect contentType n).2.body = (c.body.start.collect none).2 := by
  apply collect_of_not_reached htype
  have hle : c.body.completed.length ≤ c.body.outcome.events.length := by simp [Body.outcome]
  rw [limitOf_natCast (Nat.zero_lt_of_lt h), reached_some]
  omega

/-- A limit that the events meet takes the first of them, and no failure is seen. Where an empty
line completes the last one, the body is left behind that line. -/
theorem collect_of_le_length (htype : Announces contentType) (hn : 0 < n)
    (h : n ≤ c.body.outcome.events.length) :
    (c.collect contentType n).1 = ⟨c.body.outcome.events.take n, none⟩ ∧
      (n ≤ c.body.completed.length →
        c.body.LeftBehind (c.collect contentType n).1.events
          (c.collect contentType n).2.body) := by
  by_cases hlines : n ≤ c.body.completed.length
  · obtain ⟨lines, p, hstage⟩ := Body.exists_completesAt hn hlines
    obtain ⟨houtcome, hbody⟩ := collect_of_completesAt hstage htype
    rw [houtcome, hbody, Body.take_events_outcome hlines]
    exact ⟨rfl, fun _ => hstage.leftBehind⟩
  · -- the last event is the one that the end of the body completes
    have hreached : ¬ Reached (limitOf n) c.body.completed.length := by
      rw [limitOf_natCast hn]
      exact mt reached_some.1 hlines
    obtain ⟨houtcome, -⟩ := collect_of_not_reached htype hreached
    rw [houtcome]
    exact ⟨Body.outcome_eq_take (Nat.lt_of_not_le hlines) h, fun hle => absurd hle hlines⟩

/-- A limit that the events do not meet has no effect, and neither has one of zero or less. A limit
that they meet takes the first events, and no failure is seen; where an empty line completes the
last of them, the body is left behind that line. In no case are there more events than a positive
limit allows. -/
theorem collect_bounded (c : Connection) {contentType : Option String}
    (htype : Announces contentType) (maxEvents : Int) :
    (maxEvents ≤ 0 ∨ (c.collect contentType 0).1.events.length < maxEvents →
      (c.collect contentType maxEvents).1 = (c.collect contentType 0).1 ∧
        (c.collect contentType maxEvents).2.body = (c.collect contentType 0).2.body) ∧
    (0 < maxEvents → maxEvents ≤ (c.collect contentType 0).1.events.length →
      (c.collect contentType maxEvents).1 =
          ⟨(c.collect contentType 0).1.events.take maxEvents.toNat, none⟩ ∧
        (maxEvents ≤ c.body.completed.length →
          c.body.LeftBehind (c.collect contentType maxEvents).1.events
            (c.collect contentType maxEvents).2.body)) ∧
    (0 < maxEvents → (c.collect contentType maxEvents).1.events.length ≤ maxEvents) := by
  obtain ⟨hall, hallbody⟩ := collect_unlimited (c := c) htype (Int.le_refl 0)
  rw [hall, hallbody]
  by_cases hpos : 0 < maxEvents
  · obtain ⟨n, rfl⟩ := Int.eq_ofNat_of_zero_le (Int.le_of_lt hpos)
    have hn : 0 < n := Int.natCast_pos.1 hpos
    refine ⟨fun h => collect_of_length_lt htype (by omega), fun _ h => ?_, fun _ => ?_⟩
    · obtain ⟨houtcome, hleft⟩ := collect_of_le_length htype hn (Int.ofNat_le.1 h)
      exact ⟨houtcome, fun hlines => hleft (Int.ofNat_le.1 hlines)⟩
    · rcases Nat.lt_or_ge c.body.outcome.events.length n with hlt | hle
      · rw [(collect_of_length_lt htype hlt).1]
        omega
      · rw [(collect_of_le_length htype hn hle).1]
        exact Int.ofNat_le.2 (List.length_take_le _ _)
  · refine ⟨fun _ => collect_unlimited htype (Int.not_lt.1 hpos), ?_, ?_⟩ <;> omega

/-- A limit of one on a body that fails behind its first event: the failure is not seen, and of the
pair that ends the event only the carriage return has been read. -/
theorem collect_bounded_torn_pair :
    Announces (some "text/event-stream") ∧
    (collect ⟨⟨[.chunk (Text.encode "data: a\n\r"), .pending, .chunk (Text.encode "\ndata: b"),
        .fault ⟨"ConnectionReset", "reset"⟩], 0⟩, {}⟩ (some "text/event-stream") 1).1 =
      ⟨(collect ⟨⟨[.chunk (Text.encode "data: a\n\r"), .pending, .chunk (Text.encode "\ndata: b"),
        .fault ⟨"ConnectionReset", "reset"⟩], 0⟩, {}⟩ (some "text/event-stream") 0).1.events.take 1,
        none⟩ := by
  have htype : Announces (some "text/event-stream") := by decide +kernel
  exact ⟨htype, ((collect_bounded ⟨⟨[.chunk (Text.encode "data: a\n\r"), .pending,
    .chunk (Text.encode "\ndata: b"), .fault ⟨"ConnectionReset", "reset"⟩], 0⟩, {}⟩ htype 1).2.1
      (by decide) (by decide +kernel)).1⟩

end Connection

end EventStream
