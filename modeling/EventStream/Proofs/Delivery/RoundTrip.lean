import EventStream.Proofs.Delivery.WholeText
/-!
# Events that are written come back

Any list of events can be sent as a stream. Each line of the text may end with any terminator, as
long as no two of them run together, a byte order mark may stand in front, and the bytes may come in
any chunks: what is collected is the list that was written.

## Main definitions

* `Text.written` — the text of some lines, each with its terminator
* `Text.Apart` — no two terminators run together

## Main results

* `lines_written` — the text is cut into the lines that were written
* `collect_written` — the events that are collected are those that were written
-/

namespace EventStream

namespace Text

/-- The text in which each line stands in front of its terminator. -/
def written : List (String × Terminator) → List Char
  | [] => []
  | (line, t) :: rows => line.toList ++ charEnds.symbols t ++ written rows

/-- No line feed that ends an empty line stands right behind a carriage return: the two would be one
terminator. -/
def Apart : List (String × Terminator) → Prop
  | [] => True
  | [_] => True
  | (_, t) :: (line, t') :: rows =>
    ¬ (t = .carriageReturn ∧ line = "" ∧ t' = .lineFeed) ∧ Apart ((line, t') :: rows)

instance Apart.decidable : (rows : List (String × Terminator)) → Decidable (Apart rows)
  | [] => isTrue trivial
  | [_] => isTrue trivial
  | (_, t) :: (line, t') :: rows =>
    have := Apart.decidable ((line, t') :: rows)
    inferInstanceAs (Decidable
      (¬ (t = .carriageReturn ∧ line = "" ∧ t' = .lineFeed) ∧ Apart ((line, t') :: rows)))

variable {line : String} {t : Terminator} {rows : List (String × Terminator)}

theorem Apart.tail (h : Apart ((line, t) :: rows)) : Apart rows := by
  cases rows with
  | nil => trivial
  | cons row rows => exact h.2

/-- A written text starts with its first line, or with the terminator where that line is empty. -/
theorem head?_written_cons (line : String) (t : Terminator) (rows : List (String × Terminator)) :
    (written ((line, t) :: rows)).head? =
      if line = "" then (charEnds.symbols t).head? else line.toList.head? := by
  rw [written]
  split
  · next h =>
    rw [h]
    cases t <;> rfl
  · next h =>
    obtain ⟨c, cs, hcs⟩ := List.exists_cons_of_ne_nil (mt String.toList_eq_nil_iff.1 h)
    rw [hcs]
    rfl

/-- Behind a lone carriage return no line feed follows. -/
theorem Apart.head?_written_ne (h : Apart ((line, .carriageReturn) :: rows))
    (hlines : ∀ row ∈ rows, ∀ c ∈ row.1.toList, ¬ charEnds.Ends c) :
    (written rows).head? ≠ some charEnds.lf := by
  rcases rows with _ | ⟨⟨next, t'⟩, rows⟩
  · exact nofun
  · rw [head?_written_cons]
    split
    · next hempty =>
      intro hhead
      cases t' with
      | lineFeed => exact h.1 ⟨rfl, hempty, rfl⟩
      | carriageReturn => exact absurd hhead (by decide)
      | both => exact absurd hhead (by decide)
    · intro hhead
      exact hlines _ List.mem_cons_self _ (List.mem_of_mem_head? hhead) charEnds.ends_lf

/-- A written text consists of the lines that were written. -/
theorem lined_written (hlines : ∀ row ∈ rows, ∀ c ∈ row.1.toList, ¬ charEnds.Ends c)
    (h : Apart rows) :
    ∃ cut, charEnds.Lined (written rows) cut [] ∧ cut.map Row.line = rows.map (·.1.toList) := by
  induction rows with
  | nil => exact ⟨[], .tail fun _ hc => absurd hc List.not_mem_nil, rfl⟩
  | cons row rows ih =>
    obtain ⟨line, t⟩ := row
    have hrest : ∀ row ∈ rows, ∀ c ∈ row.1.toList, ¬ charEnds.Ends c := fun row hrow =>
      hlines row (List.mem_cons_of_mem _ hrow)
    obtain ⟨cut, hcut, hmap⟩ := ih hrest h.tail
    refine ⟨⟨line.toList, written rows⟩ :: cut, ?_, ?_⟩
    · -- this is where terminators must not run together
      refine .line t (hlines _ List.mem_cons_self) ?_ hcut
      rintro rfl
      exact h.head?_written_ne hrest
    · rw [List.map_cons, List.map_cons, hmap]

/-- A written text is cut into the lines that were written. -/
theorem lines_written (hlines : ∀ row ∈ rows, ∀ c ∈ row.1.toList, ¬ charEnds.Ends c)
    (h : Apart rows) : charEnds.lines (written rows) = rows.map (·.1.toList) := by
  obtain ⟨cut, hcut, hmap⟩ := lined_written hlines h
  rw [LineEnds.lines, hcut.cut_eq, if_pos rfl, List.append_nil, hmap]

/-- A written text has a byte order mark in front only where a line has. -/
theorem head?_written_ne_mark (hlines : ∀ row ∈ rows, row.1.toList.head? ≠ some mark) :
    (written rows).head? ≠ some mark := by
  rcases rows with _ | ⟨⟨line, t⟩, rows⟩
  · exact nofun
  · rw [head?_written_cons]
    split
    · cases t <;> decide
    · exact hlines _ List.mem_cons_self

/-- The lines of the bytes are those that were written, with or without a byte order mark in
front. -/
theorem lines_bytes_written {front : List UInt8} (hfront : front = [] ∨ front = byteOrderMark)
    (hends : ∀ row ∈ rows, ∀ c ∈ row.1.toList, ¬ charEnds.Ends c)
    (hmark : ∀ row ∈ rows, row.1.toList.head? ≠ some mark) (h : Apart rows) :
    byteEnds.lines (Splitter.dropByteOrderMark (front ++ bytes (written rows))) =
      (rows.map Prod.fst).map encode := by
  have hdrop : Splitter.dropByteOrderMark (front ++ bytes (written rows)) =
      bytes (written rows) := by
    rcases hfront with rfl | rfl
    · rw [List.nil_append, dropByteOrderMark_bytes, dropMark_eq_self (head?_written_ne_mark hmark)]
    · exact dropByteOrderMark_append _
  rw [hdrop, LineEnds.lines_bytes, lines_written hends h, List.map_map, List.map_map]
  rfl

end Text

variable {c : Connection} {contentType : Option String} {maxEvents : Int}

/-- Any list of events that can be written comes back from a stream that carries their lines: each
line with any terminator, the whole with or without a byte order mark in front, and the bytes in
any chunks. -/
theorem collect_written {es : List Event} (hes : ∀ e ∈ es, e.Writable)
    {rows : List (String × Terminator)} (hrows : rows.map Prod.fst = es.flatMap Event.lines)
    (hapart : Text.Apart rows) {front : List UInt8} (hfront : front = [] ∨ front = byteOrderMark)
    (hbytes : Arrival.bytes c.body.arrivals = front ++ Text.bytes (Text.written rows))
    (hend : Arrival.failure c.body.arrivals = none) (htype : Announces contentType)
    (hmax : maxEvents ≤ 0) :
    (c.collect contentType maxEvents).1 = ⟨es, none⟩ := by
  -- every row holds a line of some event, so what holds of these lines holds of the rows
  have hline : ∀ row ∈ rows, ∃ e ∈ es, row.1 ∈ e.lines := by
    intro row hrow
    have hmem : row.1 ∈ rows.map Prod.fst := List.mem_map_of_mem hrow
    rw [hrows] at hmem
    exact List.mem_flatMap.1 hmem
  have hends : ∀ row ∈ rows, ∀ c ∈ row.1.toList, ¬ charEnds.Ends c := by
    intro row hrow
    obtain ⟨e, he, hmem⟩ := hline row hrow
    exact (hes e he).not_ends_line hmem
  have hmark : ∀ row ∈ rows, row.1.toList.head? ≠ some Text.mark := by
    intro row hrow
    obtain ⟨e, -, hmem⟩ := hline row hrow
    exact Event.head?_line_ne_mark hmem
  have hlines := Text.lines_bytes_written hfront hends hmark hapart
  rw [← hbytes, hrows] at hlines
  rw [collect_eq_of_lines hend htype hmax hlines, Draft.eventsOf_flatMap_lines]

/-- Two events with every terminator, torn behind a carriage return and inside the mark. -/
theorem collect_written_two_events :
    (∀ e ∈ [(⟨" a", "", "\uFEFF\n", some 7⟩ : Event), ⟨"", ":", "", none⟩], e.Writable) ∧
    (Connection.collect ⟨⟨[.chunk [0xef, 0xbb],
        .chunk ([0xbf] ++ Text.encode "id:  a\r"), .pending,
        .chunk (Text.encode "\nretry: 7\rdata: \uFEFF\ndata: \r\r\nevent: :\ndata: \r\r")], 0⟩,
        {}⟩ (some "text/event-stream") 0).1 =
      ⟨[⟨" a", "", "\uFEFF\n", some 7⟩, ⟨"", ":", "", none⟩], none⟩ := by
  have hes : ∀ e ∈ [(⟨" a", "", "\uFEFF\n", some 7⟩ : Event), ⟨"", ":", "", none⟩], e.Writable := by
    decide +kernel
  have hrows : [("id:  a", Terminator.both), ("retry: 7", .carriageReturn),
      ("data: \uFEFF", .lineFeed), ("data: ", .carriageReturn), ("", .both),
      ("event: :", .lineFeed), ("data: ", .carriageReturn), ("", .carriageReturn)].map Prod.fst =
        [(⟨" a", "", "\uFEFF\n", some 7⟩ : Event), ⟨"", ":", "", none⟩].flatMap Event.lines := by
    decide +kernel
  have hapart : Text.Apart [("id:  a", Terminator.both), ("retry: 7", .carriageReturn),
      ("data: \uFEFF", .lineFeed), ("data: ", .carriageReturn), ("", .both),
      ("event: :", .lineFeed), ("data: ", .carriageReturn), ("", .carriageReturn)] := by
    decide +kernel
  refine ⟨hes, collect_written hes hrows hapart (Or.inr rfl) ?_ ?_ ?_ (Int.le_refl 0)⟩
  · decide +kernel
  · decide +kernel
  · decide +kernel

end EventStream
