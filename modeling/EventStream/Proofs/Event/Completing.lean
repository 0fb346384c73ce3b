import EventStream.Proofs.Event.Writing
/-!
# Which lines complete events

Lines add to a draft, and only an empty line completes an event. So the events that some lines
complete belong to empty lines among them: the lines can be cut behind any one of these events, and
nothing is left of the draft there.

## Main results

* `of_feed_eq_some` — an event comes from an empty line and a draft with data, and uses it up
* `exists_eq_append_of_lt` — the empty line that completes an event of given number
-/

namespace EventStream.Draft

variable {d : Draft} {line : String} {lines : List String} {event : Event} {n : Nat}

theorem feed_fst_of_ne_empty (d : Draft) (h : line ≠ "") : (d.feed line).1 = none := by
  unfold feed
  rw [if_neg h]
  split <;> rfl

/-- Only an empty line completes an event. The draft held some data, and nothing is left of it. -/
theorem of_feed_eq_some (h : (d.feed line).1 = some event) :
    line = "" ∧ d.data ≠ [] ∧ d.feed line = (some event, {}) := by
  by_cases hline : line = ""
  · subst hline
    by_cases hdata : d.data = []
    · simp [hdata] at h
    · refine ⟨rfl, hdata, ?_⟩
      rw [feed_empty, finish_of_data_ne_nil hdata] at h ⊢
      simpa using h
  · rw [feed_fst_of_ne_empty d hline] at h
    cases h

/-- An event that lines complete is completed by an empty line: in front of it stand the lines that
complete the events before, and behind it an empty draft is left. -/
theorem exists_eq_append_of_lt (h : n < (d.feedAll lines).1.length) :
    ∃ before after event, lines = before ++ "" :: after ∧ (d.feedAll before).1.length = n ∧
      (d.feedAll before).2.feed "" = (some event, {}) := by
  induction lines generalizing d n with
  | nil => simp [feedAll] at h
  | cons line lines ih =>
    rw [feedAll] at h
    rcases hfeed : (d.feed line).1 with _ | event
    · rw [hfeed] at h
      obtain ⟨before, after, event, rfl, hlength, hevent⟩ := ih h
      refine ⟨line :: before, after, event, rfl, ?_, hevent⟩
      simpa [feedAll, hfeed] using hlength
    · rw [hfeed] at h
      cases n with
      | zero =>
        obtain ⟨rfl, -, hevent⟩ := of_feed_eq_some hfeed
        exact ⟨[], lines, event, rfl, rfl, hevent⟩
      | succ n =>
        have hlt : n < ((d.feed line).2.feedAll lines).1.length := by simpa using h
        obtain ⟨before, after, event', rfl, hlength, hevent⟩ := ih hlt
        refine ⟨line :: before, after, event', rfl, ?_, hevent⟩
        simp [feedAll, hfeed, hlength]

end EventStream.Draft
