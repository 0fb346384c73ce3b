import EventStream.Proofs.Delivery.Turns
/-!
# What a cancellation does to a delivery

The signal is checked before each read and nowhere else. So a cancellation shows its effect at the
end of the turn in which it comes up: that turn is finished, its event is delivered, and no other
turn begins. After the last turn there is no check, and a cancellation that comes up there changes
nothing about the delivery.

## Main results

* `deliver_of_fired` — the signal had fired before the delivery
* `deliver_of_interrupted` — it fires in a turn that reads a line
* `deliver_of_fired_at_end` — it fires in the last turn
* `deliver_of_not_fired` — it does not fire
* `deliver_of_firing` — all cases together
-/

namespace EventStream.Connection

variable {contentType : Option String} {c : Connection} {handler : Handler}

theorem deliver_eq_run (htype : Announces contentType) (handler : Handler)
    (h : c.cancellation.check.1 = none) :
    c.deliver contentType handler = Turn.run c.cancellation (c.body.turns handler) := by
  rw [deliver, checkContentType_of_announces htype]
  exact deliverFrom_eq_run handler {} c.body {} [] h

/-- A delivery in which nothing fires takes all turns. -/
theorem deliver_of_quiet (htype : Announces contentType) (h : c.cancellation.check.1 = none)
    {turns : List Turn} {last : Turn} (hturns : c.body.turns handler = turns ++ [last])
    (hlast : ¬ last.HasLine)
    (hquiet : ∀ t ∈ turns, t.HasLine ∧ c.cancellation.fireAll t.reasons = c.cancellation) :
    (c.deliver contentType handler).1 = last.outcome ∧
      (c.deliver contentType handler).2.body = last.body := by
  rw [deliver_eq_run htype handler h, hturns, Turn.run_append h hquiet,
    Turn.run_of_not_hasLine hlast]
  exact ⟨rfl, rfl⟩

/-- With a pair that cannot fire, all turns are taken. -/
theorem deliver_mute (htype : Announces contentType) {body : Body} {turns : List Turn}
    {last : Turn} (hturns : body.turns handler = turns ++ [last]) (hlast : ¬ last.HasLine)
    (hlines : ∀ t ∈ turns, t.HasLine) :
    (deliver ⟨body, .mute⟩ contentType handler).1 = last.outcome ∧
      (deliver ⟨body, .mute⟩ contentType handler).2.body = last.body := by
  apply deliver_of_quiet htype Cancellation.check_mute hturns hlast
  intro t ht
  exact ⟨hlines t ht, Cancellation.fireAll_of_not_armed Cancellation.check_mute
    Cancellation.not_armed_mute t.reasons⟩

/-- Where the signal has fired before, nothing is read and nothing is delivered. -/
theorem deliver_of_fired (htype : Announces contentType) (handler : Handler) {reason : String}
    (h : c.cancellation.check.1 = some reason) :
    (c.deliver contentType handler).1 = ⟨[], some (.cancelled reason)⟩ ∧
      (c.deliver contentType handler).2.body = c.body := by
  rw [deliver, checkContentType_of_announces htype]
  dsimp only
  rw [deliverFrom_of_cancelled h]
  exact ⟨rfl, rfl⟩

section Firing

variable {before after : List Turn} {t : Turn} {reason : String}

/-- The turns in front of the first cancellation leave the pair as it is. -/
theorem deliver_eq_run_cons (htype : Announces contentType) (harmed : c.cancellation.Armed)
    (hturns : c.body.turns handler = before ++ t :: after)
    (hbefore : ∀ t' ∈ before, t'.reasons = []) :
    c.deliver contentType handler = Turn.run c.cancellation (t :: after) := by
  obtain ⟨turns, last, hsplit, -, hmem⟩ := exists_turns_eq c.body handler
  have hskip : ∀ t' ∈ before, t'.HasLine ∧
      c.cancellation.fireAll t'.reasons = c.cancellation := by
    intro t' ht'
    refine ⟨?_, congrArg c.cancellation.fireAll (hbefore t' ht')⟩
    rcases mem_or_eq_last (hsplit.symm.trans hturns) with ⟨rfl, -⟩ | ⟨-, hsub⟩
    · exact (hmem t' ht').1
    · exact (hmem t' (hsub t' ht')).1
  rw [deliver_eq_run htype handler harmed.check_eq_none, hturns,
    Turn.run_append harmed.check_eq_none hskip]

/-- Where the signal first fires in a turn that reads a line, this turn is the last one. -/
theorem deliver_of_interrupted (htype : Announces contentType) (harmed : c.cancellation.Armed)
    (hturns : c.body.turns handler = before ++ t :: after)
    (hbefore : ∀ t' ∈ before, t'.reasons = []) (hreason : t.reasons.head? = some reason)
    (hline : t.HasLine) :
    c.deliver contentType handler =
      (⟨t.events, some (.cancelled reason)⟩,
        ⟨t.body, (c.cancellation.fireAll t.reasons).check.2⟩) := by
  have hfired := (Cancellation.check_fireAll_of_armed harmed t.reasons).trans hreason
  rw [deliver_eq_run_cons htype harmed hturns hbefore, Turn.run_of_cancelled hline hfired]

/-- Where the signal first fires in the turn that reads no line, all turns are taken. -/
theorem deliver_of_fired_at_end (htype : Announces contentType) (harmed : c.cancellation.Armed)
    (hturns : c.body.turns handler = before ++ t :: after)
    (hbefore : ∀ t' ∈ before, t'.reasons = []) (hline : ¬ t.HasLine) :
    c.deliver contentType handler =
      (t.outcome, ⟨t.body, c.cancellation.fireAll t.reasons⟩) := by
  rw [deliver_eq_run_cons htype harmed hturns hbefore, Turn.run_of_not_hasLine hline]

/-- After the first cancellation, the signal tells its reason. -/
theorem check_deliver (htype : Announces contentType) (harmed : c.cancellation.Armed)
    (hturns : c.body.turns handler = before ++ t :: after)
    (hbefore : ∀ t' ∈ before, t'.reasons = []) (hreason : t.reasons.head? = some reason) :
    (c.deliver contentType handler).2.cancellation.check.1 = some reason := by
  have hfired := (Cancellation.check_fireAll_of_armed harmed t.reasons).trans hreason
  by_cases hline : t.HasLine
  · rw [deliver_of_interrupted htype harmed hturns hbefore hreason hline]
    exact Cancellation.check_check hfired
  · rw [deliver_of_fired_at_end htype harmed hturns hbefore hline]
    exact hfired

end Firing

/-- Where nothing reaches the signal, the delivery is the one in which nothing fires. -/
theorem deliver_of_not_fired (htype : Announces contentType)
    (hnone : c.cancellation.check.1 = none)
    (hreasons : c.cancellation.Armed → ∀ t ∈ c.body.turns handler, t.reasons = []) :
    (c.deliver contentType handler).1 = (deliver ⟨c.body, .mute⟩ contentType handler).1 ∧
      (c.deliver contentType handler).2.body =
        (deliver ⟨c.body, .mute⟩ contentType handler).2.body := by
  obtain ⟨turns, last, hturns, hlast, hmem⟩ := exists_turns_eq c.body handler
  obtain ⟨houtcome, hbody⟩ := deliver_mute htype hturns hlast fun t ht => (hmem t ht).1
  rw [houtcome, hbody]
  apply deliver_of_quiet htype hnone hturns hlast
  intro t ht
  refine ⟨(hmem t ht).1, ?_⟩
  by_cases harmed : c.cancellation.Armed
  · rw [hturns] at hreasons
    rw [hreasons harmed t (List.mem_append_left _ ht)]
    rfl
  · exact Cancellation.fireAll_of_not_armed hnone harmed t.reasons

/-- What a cancellation does to a delivery. Where the signal has fired before, nothing is read and
nothing delivered. Where it first fires in a turn that reads a line, this turn is finished and no
other begins. Where it first fires in the last turn, or not at all, the delivery is the same as the
one in which nothing fires. The signal keeps the first reason. -/
theorem deliver_of_firing (c : Connection) (htype : Announces contentType) (handler : Handler) :
    (∀ reason, c.cancellation.check.1 = some reason →
      (c.deliver contentType handler).1 = ⟨[], some (.cancelled reason)⟩ ∧
        (c.deliver contentType handler).2.body = c.body) ∧
    (c.cancellation.Armed → ∀ before t after reason,
      c.body.turns handler = before ++ t :: after → (∀ t' ∈ before, t'.reasons = []) →
      t.reasons.head? = some reason →
        (c.deliver contentType handler).2.cancellation.check.1 = some reason ∧
        (t.HasLine →
          (c.deliver contentType handler).1 = ⟨t.events, some (.cancelled reason)⟩ ∧
            (c.deliver contentType handler).2.body = t.body ∧
            t.events <+: (deliver ⟨c.body, .mute⟩ contentType handler).1.events) ∧
        (¬ t.HasLine →
          (c.deliver contentType handler).1 = (deliver ⟨c.body, .mute⟩ contentType handler).1 ∧
            (c.deliver contentType handler).2.body =
              (deliver ⟨c.body, .mute⟩ contentType handler).2.body)) ∧
    (c.cancellation.check.1 = none →
      (c.cancellation.Armed → ∀ t ∈ c.body.turns handler, t.reasons = []) →
        (c.deliver contentType handler).1 = (deliver ⟨c.body, .mute⟩ contentType handler).1 ∧
          (c.deliver contentType handler).2.body =
            (deliver ⟨c.body, .mute⟩ contentType handler).2.body) := by
  refine ⟨?_, ?_, ?_⟩
  · intro reason hfired
    exact deliver_of_fired htype handler hfired
  · intro harmed before t after reason hturns hbefore hreason
    obtain ⟨turns, last, hsplit, hlast, hmem⟩ := exists_turns_eq c.body handler
    obtain ⟨houtcome, hbody⟩ := deliver_mute htype hsplit hlast fun t ht => (hmem t ht).1
    have hplace := mem_or_eq_last (hsplit.symm.trans hturns)
    refine ⟨check_deliver htype harmed hturns hbefore hreason, ?_, ?_⟩
    · intro hline
      rw [deliver_of_interrupted htype harmed hturns hbefore hreason hline]
      refine ⟨rfl, rfl, ?_⟩
      rcases hplace with ⟨-, rfl⟩ | ⟨ht, -⟩
      · exact absurd hline hlast
      · rw [houtcome]
        exact (hmem t ht).2
    · intro hline
      -- without a line it is the last turn, and no check follows
      rcases hplace with ⟨-, rfl⟩ | ⟨ht, -⟩
      · rw [deliver_of_fired_at_end htype harmed hturns hbefore hline, houtcome, hbody]
        exact ⟨rfl, rfl⟩
      · exact absurd (hmem t ht).1 hline
  · intro hnone hreasons
    exact deliver_of_not_fired htype hnone hreasons

/-- A cancellation in the middle of the first line: the line is read, and its draft is dropped. -/
theorem deliver_of_firing_in_line :
    Announces (some "text/event-stream") ∧
    (deliver
      ⟨⟨[.chunk (Text.encode "da"), .cancel "stop", .chunk (Text.encode "ta: a\n\n")], 0⟩, {}⟩
      (some "text/event-stream") fun _ => []).1 = ⟨[], some (.cancelled "stop")⟩ := by
  have htype : Announces (some "text/event-stream") := by decide +kernel
  have harmed : Cancellation.Armed {} := by decide
  have hline : (({} : Splitter).pull ⟨⟨[.chunk (Text.encode "da"), .cancel "stop",
      .chunk (Text.encode "ta: a\n\n")], 0⟩, .mute⟩).line = some (.ok "data: a") := rfl
  have hturns := @turnsFrom_of_line (fun _ => []) _ _ {} [] _ hline
  have hfired := (deliver_of_firing
    ⟨⟨[.chunk (Text.encode "da"), .cancel "stop", .chunk (Text.encode "ta: a\n\n")], 0⟩, {}⟩ htype
    fun _ => []).2.1 harmed [] _ _ "stop" hturns (fun t ht => absurd ht List.not_mem_nil) rfl
  exact ⟨htype, (hfired.2.1 ⟨"data: a", rfl⟩).1⟩

end EventStream.Connection
