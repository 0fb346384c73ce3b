import EventStream.Event.Basic
import EventStream.Event.Field
import EventStream.Text.Decimal
/-!
# Drafts of events

Lines build up an event. A draft holds what they have said so far; an empty line, or the end of the
stream, completes it. A draft without a data line completes to no event and is kept, so an
identifier, type or reconnection time outlives empty lines until some data comes. A completed event
leaves nothing behind.

## Main definitions

* `Draft` — an event under construction
* `Draft.set` — a draft after one field
* `Draft.finish` — the completed event, if there is one, and the draft that remains
* `Draft.feed` — the same for one line of any kind
-/

namespace EventStream

/-- An event under construction. -/
@[ext] structure Draft where
  /-- The identifier given last. -/
  id : String := ""
  /-- The type given last. -/
  type : String := ""
  /-- The valid reconnection time given last. -/
  retry : Option UInt64 := none
  /-- The values of the data lines, in order. -/
  data : List String := []
deriving DecidableEq, Repr

namespace Draft

/-- The draft after a field. Fields of other names change nothing, and neither does a reconnection
time that is not a decimal 64-bit word. -/
def set (d : Draft) (field : Field) : Draft :=
  match field.name with
  | "event" => { d with type := field.value }
  | "data" => { d with data := d.data ++ [field.value] }
  | "id" => { d with id := field.value }
  | "retry" => { d with retry := Text.word? field.value <|> d.retry }
  | _ => d

/-- Completes the event, if any data line has come. -/
def finish (d : Draft) : Option Event × Draft :=
  if d.data = [] then (none, d)
  else (some ⟨d.id, d.type, "\n".intercalate d.data, d.retry⟩, {})

/-- The event that a line completes, and the draft after the line. -/
def feed (d : Draft) (line : String) : Option Event × Draft :=
  if line = "" then d.finish
  else match Field.ofLine? line with
    | none => (none, d)
    | some field => (none, d.set field)

variable {d : Draft} {value : String} {n : UInt64}

theorem set_retry_of_eq_some (h : Text.word? value = some n) :
    d.set ⟨"retry", value⟩ = { d with retry := some n } := by
  simp [set, h]

theorem set_retry_of_eq_none (h : Text.word? value = none) : d.set ⟨"retry", value⟩ = d := by
  simp [set, h]

@[simp] theorem feed_empty : d.feed "" = d.finish := rfl

@[simp] theorem finish_of_data_eq_nil (h : d.data = []) : d.finish = (none, d) := by
  simp [finish, h]

theorem finish_of_data_ne_nil (h : d.data ≠ []) :
    d.finish = (some ⟨d.id, d.type, "\n".intercalate d.data, d.retry⟩, {}) := by
  simp [finish, h]

theorem feed_of_ofLine?_eq_none {line : String} (h : Field.ofLine? line = none) :
    d.feed line = (none, d) := by
  have hne : line ≠ "" := by
    rintro rfl
    exact absurd h (by decide)
  simp [feed, hne, h]

theorem feed_of_ofLine?_eq_some {line : String} {field : Field} (hne : line ≠ "")
    (h : Field.ofLine? line = some field) : d.feed line = (none, d.set field) := by
  simp [feed, hne, h]

end Draft

end EventStream
