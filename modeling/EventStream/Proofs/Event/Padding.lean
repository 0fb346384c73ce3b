import EventStream.Proofs.Event.History
/-!
# Lines that say nothing

Comments, fields of unknown names, reconnection times that are not valid, and empty lines while no
data is pending leave a draft as it is. A stream can be padded with such lines anywhere, to keep a
connection alive for example, and its events stay the same.

## Main definitions

* `Draft.DataPending` — a data line has come since the last event
* `Draft.Ignorable` — a line that says nothing where it stands
* `Draft.Padded` — some lines with such lines put between them

## Main results

* `Ignorable.feed_eq` — an ignorable line leaves the draft as it is
* `Padded.eventsOf_eq` — padding leaves the events as they are
-/

namespace EventStream.Draft

open EventStream.Field

/-- Among the lines since the last event, there is a data line. -/
def DataPending (lines : List String) : Prop :=
  values "data" (linesSince (lines.map Use.line)) ≠ []

instance (lines : List String) : Decidable (DataPending lines) :=
  inferInstanceAs (Decidable (_ ≠ _))

/-- A line behind these lines that says nothing: a comment, a field of another name than those that
make up an event, a reconnection time that is not valid, or an empty line while no data is
pending. -/
inductive Ignorable (before : List String) : String → Prop
  | comment {line : String} : Holds line none → Ignorable before line
  | unknown {line : String} {f : Field} : line ≠ "" → Holds line (some f) → f.name ∉ names →
      Ignorable before line
  | retry {line value : String} : Holds line (some ⟨"retry", value⟩) → Text.word? value = none →
      Ignorable before line
  | empty : ¬ DataPending before → Ignorable before ""

/-- Some lines with ignorable lines put between them, in front of them and behind them. -/
inductive Padded (lines : List String) : List String → Prop
  | refl : Padded lines lines
  | insert {before after : List String} {line : String} : Padded lines (before ++ after) →
      Ignorable before line → Padded lines (before ++ line :: after)

variable {d : Draft} {lines padded before after : List String} {line : String}

theorem feedAll_snd (d : Draft) (lines : List String) :
    (d.feedAll lines).2 = d.after (lines.map Use.line) := by
  induction lines generalizing d with
  | nil => rfl
  | cons line lines ih => exact ih _

/-- Data is pending while the draft holds some. -/
theorem dataPending_iff : DataPending lines ↔ (feedAll {} lines).2.data ≠ [] := by
  rw [feedAll_snd, after_eq_told]
  rfl

/-! ### Ignorable lines -/

/-- A field of another name than those that make up an event changes nothing. -/
theorem set_of_notMem {f : Field} (h : f.name ∉ names) : d.set f = d := by
  simp only [names, List.mem_cons, List.not_mem_nil, or_false, not_or] at h
  unfold set
  split
  · next hname => exact absurd hname h.2.1
  · next hname => exact absurd hname h.2.2.2
  · next hname => exact absurd hname h.1
  · next hname => exact absurd hname h.2.2.1
  · rfl

/-- An ignorable line completes no event and leaves the draft as it is. -/
theorem Ignorable.feed_eq (h : Ignorable before line) :
    (feedAll {} before).2.feed line = (none, (feedAll {} before).2) := by
  cases h with
  | comment hline => exact feed_of_ofLine?_eq_none hline.ofLine?_eq
  | unknown hne hline hname =>
    rw [feed_of_ofLine?_eq_some hne hline.ofLine?_eq, set_of_notMem hname]
  | retry hline hvalue =>
    -- an empty line holds a field without a name
    have hne : line ≠ "" := by
      rintro rfl
      have hfield := Option.some.inj (ofLine?_empty.symm.trans hline.ofLine?_eq)
      have hname : "" = "retry" := congrArg Field.name hfield
      exact absurd hname (by decide)
    rw [feed_of_ofLine?_eq_some hne hline.ofLine?_eq, set_retry_of_eq_none hvalue]
  | empty hpending =>
    rw [dataPending_iff, not_not] at hpending
    rw [feed_empty, finish_of_data_eq_nil hpending]

/-- A line that completes nothing and leaves the draft as it is can be left out. -/
theorem feedAll_insert (h : (d.feedAll before).2.feed line = (none, (d.feedAll before).2))
    (after : List String) : d.feedAll (before ++ line :: after) = d.feedAll (before ++ after) := by
  rw [feedAll_append, feedAll_append, feedAll, h]
  rfl

/-- Padding leaves all events as they are, and the draft behind them. -/
theorem Padded.feedAll_eq (h : Padded lines padded) : feedAll {} padded = feedAll {} lines := by
  -- each line is ignorable behind the lines that are there when it is put in
  induction h with
  | refl => rfl
  | insert _ hline ih => rw [feedAll_insert hline.feed_eq, ih]

theorem Padded.eventsOf_eq (h : Padded lines padded) : eventsOf padded = eventsOf lines := by
  rw [eventsOf, eventsOf, h.feedAll_eq]

end EventStream.Draft
