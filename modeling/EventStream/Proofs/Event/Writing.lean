import EventStream.Event.Draft
import EventStream.Proofs.Text.Decimal
/-!
# Events and the lines that carry them

An event is written as a line for each of its fields that is not empty, a line for each line of its
data, and an empty line. Fed to an empty draft, these lines complete that event and nothing else,
and leave an empty draft behind; so events written one after the other come back one after the
other.

## Main definitions

* `Draft.feedAll` — the events that some lines complete, and the draft after them
* `Draft.eventsOf` — the events of a stream that consists of some lines
* `Event.lines` — the lines that carry an event

## Main results

* `feedAll_lines` — the lines of an event complete that event
* `eventsOf_flatMap_lines` — the lines of some events carry these events
-/

namespace EventStream

namespace Draft

/-- The events that the lines complete, in order, and the draft after the last line. -/
def feedAll (d : Draft) : List String → List Event × Draft
  | [] => ([], d)
  | line :: lines =>
    ((d.feed line).1.toList ++ ((d.feed line).2.feedAll lines).1, ((d.feed line).2.feedAll lines).2)

/-- The events of a stream with these lines: those that the lines complete, and the one that the end
of the stream completes. -/
def eventsOf (lines : List String) : List Event :=
  (feedAll {} lines).1 ++ (feedAll {} lines).2.finish.1.toList

theorem feedAll_append (d : Draft) (lines lines' : List String) :
    d.feedAll (lines ++ lines') =
      ((d.feedAll lines).1 ++ ((d.feedAll lines).2.feedAll lines').1,
        ((d.feedAll lines).2.feedAll lines').2) := by
  induction lines generalizing d with
  | nil => rfl
  | cons line lines ih => rw [List.cons_append, feedAll, ih, feedAll, List.append_assoc]

end Draft

/-! ### Fields -/

namespace Field

/-- The names of the fields that make up an event. -/
def names : List String := ["id", "event", "retry", "data"]

theorem of_mem_names : ∀ name ∈ names, name ≠ "" ∧
    ∀ c ∈ name.toList, c ≠ ':' ∧ ¬ charEnds.Ends c ∧ c ≠ Text.mark := by
  have hall : ∀ name ∈ names, name ≠ "" ∧
      (name.toList.all fun c => c ≠ ':' ∧ ¬ charEnds.Ends c ∧ c ≠ Text.mark) = true := by
    decide +kernel
  simpa only [List.all_eq_true, decide_eq_true_eq] using hall

/-- The line that holds a field, with a space in front of the value. -/
def line (f : Field) : String := f.name ++ ": " ++ f.value

theorem toList_line (f : Field) :
    f.line.toList = f.name.toList ++ ':' :: ' ' :: f.value.toList := by
  rw [line, String.toList_append, String.toList_append, List.append_assoc]
  rfl

/-- A field is read back from its line, whatever the value is. -/
theorem ofLine?_line {f : Field} (hf : f.name ∈ names) : ofLine? f.line = some f := by
  obtain ⟨hne, hchars⟩ := of_mem_names _ hf
  have hname : ':' ∉ f.name.toList := fun h => (hchars _ h).1 rfl
  have hline : f.line = String.ofList (f.name.toList ++ ':' :: ' ' :: f.value.toList) := by
    rw [← toList_line, String.ofList_toList]
  have hnil : f.name.toList ≠ [] := mt String.toList_eq_nil_iff.1 hne
  rw [hline, ofLine?_append_colon hnil hname, dropSpace, String.ofList_toList,
    String.ofList_toList]

theorem line_ne_empty (f : Field) : f.line ≠ "" := by
  intro h
  have hnil := congrArg String.toList h
  rw [toList_line] at hnil
  exact List.append_ne_nil_of_right_ne_nil _ (List.cons_ne_nil _ _) hnil

end Field

theorem Draft.feed_line (d : Draft) {f : Field} (hf : f.name ∈ Field.names) :
    d.feed f.line = (none, d.set f) :=
  feed_of_ofLine?_eq_some f.line_ne_empty (Field.ofLine?_line hf)

/-! ### Events -/

namespace Event

/-- The lines of the data. There is at least one. -/
def pieces (e : Event) : List String := (e.data.toList.splitOn '\n').map String.ofList

/-- The fields of an event, in the order in which they are written. -/
def fields (e : Event) : List Field :=
  (if e.id = "" then [] else [⟨"id", e.id⟩]) ++ (if e.type = "" then [] else [⟨"event", e.type⟩]) ++
    (e.retry.map fun n => ⟨"retry", toString n.toNat⟩).toList ++
    e.pieces.map fun piece => ⟨"data", piece⟩

/-- The lines that carry an event: its fields and an empty line. -/
def lines (e : Event) : List String := e.fields.map Field.line ++ [""]

/-- The event can be written: only the data may hold symbols that end lines, and of these only line
feeds. -/
structure Writable (e : Event) : Prop where
  id : ∀ c ∈ e.id.toList, ¬ charEnds.Ends c
  type : ∀ c ∈ e.type.toList, ¬ charEnds.Ends c
  data : '\r' ∉ e.data.toList

theorem writable_iff (e : Event) :
    e.Writable ↔ (e.id.toList.all fun c => ¬ charEnds.Ends c) = true ∧
      (e.type.toList.all fun c => ¬ charEnds.Ends c) = true ∧ '\r' ∉ e.data.toList := by
  simp only [List.all_eq_true, decide_eq_true_eq]
  exact ⟨fun h => ⟨h.id, h.type, h.data⟩, fun h => ⟨h.1, h.2.1, h.2.2⟩⟩

instance (e : Event) : Decidable e.Writable := decidable_of_iff' _ e.writable_iff

variable {e : Event}

theorem pieces_ne_nil (e : Event) : e.pieces ≠ [] :=
  mt List.map_eq_nil_iff.1 (List.splitOn_ne_nil '\n' e.data.toList)

/-- The pieces joined by line feeds are the data. -/
theorem intercalate_pieces (e : Event) : "\n".intercalate e.pieces = e.data := by
  rw [← String.toList_inj, String.toList_intercalate, pieces, List.map_map,
    String.toList_comp_ofList, List.map_id]
  exact List.intercalate_splitOn '\n'

/-- What the fields of an event are. -/
theorem eq_of_mem_fields {f : Field} (hf : f ∈ e.fields) :
    f = ⟨"id", e.id⟩ ∨ f = ⟨"event", e.type⟩ ∨ (∃ n : UInt64, f = ⟨"retry", toString n.toNat⟩) ∨
      ∃ piece ∈ e.pieces, f = ⟨"data", piece⟩ := by
  rw [fields, List.mem_append, List.mem_append, List.mem_append] at hf
  rcases hf with ((hid | htype) | hretry) | hdata
  · left
    split at hid
    · exact absurd hid List.not_mem_nil
    · exact List.mem_singleton.1 hid
  · right; left
    split at htype
    · exact absurd htype List.not_mem_nil
    · exact List.mem_singleton.1 htype
  · right; right; left
    obtain ⟨n, -, hn⟩ := Option.map_eq_some_iff.1 (Option.mem_toList.1 hretry)
    exact ⟨n, hn.symm⟩
  · right; right; right
    obtain ⟨piece, hpiece, hf⟩ := List.mem_map.1 hdata
    exact ⟨piece, hpiece, hf.symm⟩

/-- The name of a field is one of four. -/
theorem name_of_mem_fields {f : Field} (hf : f ∈ e.fields) : f.name ∈ Field.names := by
  rcases eq_of_mem_fields hf with rfl | rfl | ⟨n, rfl⟩ | ⟨piece, -, rfl⟩ <;> simp [Field.names]

private theorem mem_of_mem_splitOn {x : Char} {cs piece : List Char} (hpiece : piece ∈ cs.splitOn x)
    {c : Char} (hc : c ∈ piece) : c ∈ cs ∧ c ≠ x := by
  induction cs generalizing piece with
  | nil =>
    rw [List.splitOn_nil, List.mem_singleton] at hpiece
    rw [hpiece] at hc
    exact absurd hc List.not_mem_nil
  | cons a cs ih =>
    rw [List.splitOn_cons_eq_if_modifyHead] at hpiece
    -- a separator starts a new piece, any other character joins the first one
    split at hpiece
    · rcases List.mem_cons.1 hpiece with rfl | hpiece
      · exact absurd hc List.not_mem_nil
      · obtain ⟨hmem, hne⟩ := ih hpiece hc
        exact ⟨List.mem_cons_of_mem a hmem, hne⟩
    · next hax =>
      obtain ⟨first, more, hsplit⟩ := List.exists_cons_of_ne_nil (List.splitOn_ne_nil x cs)
      rw [hsplit] at hpiece ih
      rcases List.mem_cons.1 hpiece with rfl | hpiece
      · rcases List.mem_cons.1 hc with rfl | hc
        · exact ⟨List.mem_cons_self, fun h => hax (beq_iff_eq.2 h)⟩
        · obtain ⟨hmem, hne⟩ := ih List.mem_cons_self hc
          exact ⟨List.mem_cons_of_mem a hmem, hne⟩
      · obtain ⟨hmem, hne⟩ := ih (List.mem_cons_of_mem first hpiece) hc
        exact ⟨List.mem_cons_of_mem a hmem, hne⟩

/-- The value of a field of an event that can be written holds no symbol that ends lines. -/
theorem Writable.not_ends_value (he : e.Writable) {f : Field} (hf : f ∈ e.fields) :
    ∀ c ∈ f.value.toList, ¬ charEnds.Ends c := by
  rcases eq_of_mem_fields hf with rfl | rfl | ⟨n, rfl⟩ | ⟨piece, hpiece, rfl⟩
  · exact he.id
  · exact he.type
  · intro c hc hends
    have hlist : (toString n.toNat).toList = Nat.toDigits 10 n.toNat := Nat.toList_repr
    rw [hlist] at hc
    have hdigit := Nat.isDigit_of_mem_toDigits (by decide) (by decide) hc
    rcases hends with rfl | rfl <;> exact absurd hdigit (by decide)
  · obtain ⟨cs, hcs, rfl⟩ := List.mem_map.1 hpiece
    intro c hc
    rw [String.toList_ofList] at hc
    obtain ⟨hmem, hne⟩ := mem_of_mem_splitOn hcs hc
    rintro (rfl | rfl)
    · exact he.data hmem
    · exact hne rfl

/-- No line of an event that can be written holds a symbol that ends lines. -/
theorem Writable.not_ends_line (he : e.Writable) {line : String} (hline : line ∈ e.lines) :
    ∀ c ∈ line.toList, ¬ charEnds.Ends c := by
  rw [lines, List.mem_append] at hline
  rcases hline with hline | hline
  · obtain ⟨f, hf, rfl⟩ := List.mem_map.1 hline
    obtain ⟨-, hname⟩ := Field.of_mem_names _ (name_of_mem_fields hf)
    intro c hc
    rw [Field.toList_line, List.mem_append, List.mem_cons, List.mem_cons] at hc
    rcases hc with hc | rfl | rfl | hc
    · exact (hname c hc).2.1
    · decide
    · decide
    · exact he.not_ends_value hf c hc
  · rw [List.mem_singleton.1 hline]
    exact fun c hc => absurd hc List.not_mem_nil

/-- No line of an event starts with the byte order mark. -/
theorem head?_line_ne_mark {line : String} (hline : line ∈ e.lines) :
    line.toList.head? ≠ some Text.mark := by
  rw [lines, List.mem_append] at hline
  rcases hline with hline | hline
  · obtain ⟨f, hf, rfl⟩ := List.mem_map.1 hline
    obtain ⟨hne, hname⟩ := Field.of_mem_names _ (name_of_mem_fields hf)
    obtain ⟨c, cs, hcs⟩ := List.exists_cons_of_ne_nil (mt String.toList_eq_nil_iff.1 hne)
    rw [Field.toList_line, hcs, List.cons_append, List.head?_cons]
    rw [hcs] at hname
    exact fun h => (hname c List.mem_cons_self).2.2 (Option.some.inj h)
  · rw [List.mem_singleton.1 hline]
    exact nofun

end Event

/-! ### Feeding an event -/

namespace Draft

theorem feedAll_map_line (d : Draft) {fields : List Field}
    (h : ∀ f ∈ fields, f.name ∈ Field.names) :
    d.feedAll (fields.map Field.line) = ([], fields.foldl set d) := by
  induction fields generalizing d with
  | nil => rfl
  | cons f fields ih =>
    rw [List.map_cons, feedAll, feed_line d (h f List.mem_cons_self),
      ih _ fun f hf => h f (List.mem_cons_of_mem _ hf)]
    rfl

theorem foldl_set_data (d : Draft) (pieces : List String) :
    (pieces.map fun piece => Field.mk "data" piece).foldl set d =
      { d with data := d.data ++ pieces } := by
  induction pieces generalizing d with
  | nil => rw [List.map_nil, List.foldl_nil, List.append_nil]
  | cons piece pieces ih =>
    rw [List.map_cons, List.foldl_cons, ih]
    simp [set]

/-- The fields of an event make its draft. -/
theorem foldl_set_fields (e : Event) :
    e.fields.foldl set {} = ⟨e.id, e.type, e.retry, e.pieces⟩ := by
  -- each group of fields sets its part of the draft, and an empty part is set already
  have hid : (if e.id = "" then [] else [Field.mk "id" e.id]).foldl set {} = { id := e.id } := by
    split
    · next h => rw [h]; rfl
    · rfl
  have htype : (if e.type = "" then [] else [Field.mk "event" e.type]).foldl set { id := e.id } =
      { id := e.id, type := e.type } := by
    split
    · next h => rw [h]; rfl
    · rfl
  have hretry : (e.retry.map fun n => Field.mk "retry" (toString n.toNat)).toList.foldl set
      { id := e.id, type := e.type } = { id := e.id, type := e.type, retry := e.retry } := by
    cases e.retry with
    | none => rfl
    | some n =>
      have hset : set { id := e.id, type := e.type } ⟨"retry", toString n.toNat⟩ =
          ⟨e.id, e.type, Text.word? (toString n.toNat) <|> none, []⟩ := rfl
      rw [Option.map_some, Option.toList_some, List.foldl_cons, List.foldl_nil, hset,
        Text.word?_toString]
      rfl
  rw [Event.fields, List.foldl_append, List.foldl_append, List.foldl_append, hid, htype, hretry,
    foldl_set_data]
  rfl

/-- The lines of an event complete that event and leave an empty draft. -/
theorem feedAll_lines (e : Event) : feedAll {} e.lines = ([e], {}) := by
  rw [Event.lines, feedAll_append, feedAll_map_line _ fun f hf => Event.name_of_mem_fields hf,
    foldl_set_fields, feedAll, feed_empty, finish_of_data_ne_nil e.pieces_ne_nil,
    e.intercalate_pieces]
  rfl

/-- The lines of some events, one after the other, carry these events. -/
theorem eventsOf_flatMap_lines (es : List Event) : eventsOf (es.flatMap Event.lines) = es := by
  have hfeed : feedAll {} (es.flatMap Event.lines) = (es, {}) := by
    induction es with
    | nil => rfl
    | cons e es ih =>
      rw [List.flatMap_cons, feedAll_append, feedAll_lines, ih]
      rfl
  rw [eventsOf, hfeed]
  exact List.append_nil es

end Draft

end EventStream
