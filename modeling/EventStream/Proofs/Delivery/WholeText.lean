import EventStream.Proofs.Delivery.FromReads
import EventStream.Proofs.Event.Writing
import EventStream.Proofs.Text.Utf8
/-!
# Streams as whole texts

A stream is decoded line by line, as the lines come. Decoding all of its bytes at once and cutting
the text afterwards gives the same: no character is torn by the end of a line, a line that is not
UTF-8 makes the whole not UTF-8, and the mark in front of the first line is the mark in front of the
text.

## Main definitions

* `Text.lines` — the lines of a whole text

## Main results

* `exists_first_bad_line` — bytes that are not UTF-8 have a first line that is not
* `readLines_false` — dropping the mark from the first line is dropping it from the text
* `collect_decodes_whole_text` — collecting without a limit is decoding the text as a whole
-/

namespace EventStream

/-- The lines of a text, without a byte order mark in front. -/
def Text.lines (text : String) : List String :=
  (charEnds.lines (Text.dropMark text.toList)).map String.ofList

/-! ### The lines that are read -/

namespace Text

open Splitter

variable {bs : List UInt8}

/-- The lines of a text are those of its bytes. -/
theorem lines_dropByteOrderMark_encode (text : String) :
    byteEnds.lines (dropByteOrderMark (encode text)) = (lines text).map encode := by
  rw [encode_eq, dropByteOrderMark_bytes, LineEnds.lines_bytes, lines, List.map_map]
  exact List.map_congr_left fun line _ => (encode_ofList line).symm

/-- Either all lines are UTF-8, or there is a first one that is not. -/
theorem eq_map_encode_or_exists_bad (lines : List (List UInt8)) :
    (∃ texts : List String, lines = texts.map encode) ∨
      ∃ (before : List String) (bad : List UInt8) (after : List (List UInt8)),
        lines = before.map encode ++ bad :: after ∧ decode? bad = none := by
  induction lines with
  | nil => exact Or.inl ⟨[], rfl⟩
  | cons line lines ih =>
    rcases hline : decode? line with _ | text
    · exact Or.inr ⟨[], line, lines, rfl, hline⟩
    · rw [decode?_eq_some_iff.1 hline]
      rcases ih with ⟨texts, rfl⟩ | ⟨before, bad, after, rfl, hbad⟩
      · exact Or.inl ⟨text :: texts, rfl⟩
      · exact Or.inr ⟨text :: before, bad, after, rfl, hbad⟩

/-- Bytes that are not UTF-8 have a first line that is not. -/
theorem exists_first_bad_line (h : decode? bs = none) :
    ∃ (before : List String) (bad : List UInt8) (after : List (List UInt8)),
      byteEnds.lines (dropByteOrderMark bs) = before.map encode ++ bad :: after ∧
        decode? bad = none := by
  rcases eq_map_encode_or_exists_bad (byteEnds.lines (dropByteOrderMark bs)) with
    ⟨texts, htexts⟩ | hbad
  · -- otherwise all lines were texts, and so would be the whole
    exfalso
    have hlines : ∀ line ∈ byteEnds.lines (dropByteOrderMark bs), ∃ cs, line = bytes cs := by
      intro line hline
      rw [htexts] at hline
      obtain ⟨text, -, rfl⟩ := List.mem_map.1 hline
      exact ⟨text.toList, rfl⟩
    have hwhole := LineEnds.exists_bytes_eq_of_lines hlines
    obtain ⟨cs, rfl⟩ := exists_bytes_eq_dropByteOrderMark_iff.1 hwhole
    rw [decode?_bytes] at h
    cases h
  · exact hbad

end Text

open Splitter

/-- Rows are read as lines, whatever stands behind them; and only whether there were any matters for
what is read at the stop. -/
theorem map_line_rowReads (failure : Option Fault) (tail : List UInt8) (started : Bool)
    (rows : List (Row UInt8)) :
    (rowReads failure tail started rows).map Read.line =
      readLines started (rows.map Row.line) ++
        (stopReads (started || rows ≠ []) tail failure).map Read.line := by
  induction rows generalizing started with
  | nil => simp [rowReads, readLines]
  | cons row rows ih =>
    rw [rowReads, List.map_cons, ih true]
    simp [readLines]

theorem rowReads_none (tail : List UInt8) (started : Bool) (rows : List (Row UInt8)) :
    (rowReads none tail started rows).map Read.line =
      readLines started (rows.map Row.line ++ if tail = [] then [] else [tail]) := by
  have hrows : rows.map Row.line ≠ [] ↔ rows ≠ [] := by rw [ne_eq, List.map_eq_nil_iff]
  rw [map_line_rowReads, readLines_append, stopReads]
  simp only [hrows]
  split <;> rfl

/-- A body that just ends is read line by line. -/
theorem map_line_reads {whole : Content} (h : whole.failure = none) (started : Bool)
    (text : List UInt8) :
    (whole.reads started text).map Read.line = readLines started (byteEnds.lines text) := by
  rw [Content.reads, h, rowReads_none]
  rfl

theorem readLine_false_append (line : List UInt8) :
    readLine false (byteOrderMark ++ line) = Text.read line := by
  rw [readLine, if_neg Bool.false_ne_true, Text.dropByteOrderMark_append]

theorem not_ends_byteOrderMark : ∀ b ∈ byteOrderMark, ¬ byteEnds.Ends b := by
  intro b hb
  simp only [byteOrderMark, List.mem_cons, List.not_mem_nil, or_false] at hb
  rcases hb with rfl | rfl | rfl <;> decide

/-- Dropping the mark from the first line is dropping it from the text, unless there is nothing
else: then an empty line is read. -/
theorem readLines_false (text : List UInt8) :
    readLines false (byteEnds.lines text) =
        (byteEnds.lines (dropByteOrderMark text)).map Text.read ∨
      dropByteOrderMark text = [] ∧ readLines false (byteEnds.lines text) = [.ok ""] := by
  by_cases hmark : byteOrderMark <+: text
  · obtain ⟨rest, rfl⟩ := hmark
    rw [Text.dropByteOrderMark_append, LineEnds.lines, LineEnds.lines,
      LineEnds.cut_append not_ends_byteOrderMark]
    -- the mark ends no line, so it sticks to the first line, or to the tail
    rcases hcut : byteEnds.cut rest with ⟨_ | ⟨row, rows⟩, tail⟩
    · by_cases htail : tail = []
      · right
        have hlined := LineEnds.lined_iff.2 hcut
        cases hlined
        subst htail
        exact ⟨rfl, rfl⟩
      · left
        have hne : byteOrderMark ++ tail ≠ [] := List.append_ne_nil_of_right_ne_nil _ htail
        rw [if_neg hne, if_neg htail]
        exact congrArg (· :: []) (readLine_false_append tail)
    · left
      rw [List.map_cons, List.map_cons, List.cons_append, List.cons_append, readLines,
        readLine_false_append, readLines_true, List.map_cons]
  · left
    rw [Text.dropByteOrderMark_eq_self hmark]
    rcases hlines : byteEnds.lines text with _ | ⟨line, lines⟩
    · rfl
    · -- a mark in front of the first line would be in front of the text
      have hline : ¬ byteOrderMark <+: line := fun h =>
        hmark (h.trans (LineEnds.prefix_of_lines_eq_cons hlines))
      rw [readLines, readLine, if_neg Bool.false_ne_true, Text.dropByteOrderMark_eq_self hline,
        readLines_true]
      rfl

/-! ### Collecting without a limit -/

section Unlimited

variable {reads : List Read} {lines : List String}

theorem collectReads_unlimited (line : String) (rest : Option (List UInt8)) (reads : List Read)
    (d : Draft) (events : List Event) :
    collectReads none (⟨.ok line, rest⟩ :: reads) d events =
      collectReads none reads (d.feed line).2 (events ++ (d.feed line).1.toList) := by
  rcases hfeed : (d.feed line).1 with _ | event
  · rw [collectReads_of_none hfeed, Option.toList_none, List.append_nil]
  · rw [collectReads_of_not_reached hfeed fun ⟨_, hn, _⟩ => nomatch hn]
    rfl

/-- Reads that bring lines to the end give the events of these lines. -/
theorem collectReads_of_map_line_eq (h : reads.map Read.line = lines.map .ok) (d : Draft)
    (events : List Event) :
    (collectReads none reads d events).1 =
      ⟨events ++ (d.feedAll lines).1 ++ (d.feedAll lines).2.finish.1.toList, none⟩ := by
  induction lines generalizing reads d events with
  | nil =>
    rw [List.map_eq_nil_iff.1 h, collectReads, Draft.feedAll, List.append_nil]
  | cons line lines ih =>
    obtain ⟨read, reads, rfl, hread, hreads⟩ := List.map_eq_cons_iff.1 h
    obtain ⟨_, rest⟩ := read
    cases hread
    rw [collectReads_unlimited, ih hreads, Draft.feedAll, List.append_assoc events]

/-- Reads that bring lines and then a failure give the events that the lines have completed. -/
theorem collectReads_of_map_line_eq_append {fault : Fault} {more : List (Except Fault String)}
    (h : reads.map Read.line = lines.map .ok ++ .error fault :: more) (d : Draft)
    (events : List Event) :
    (collectReads none reads d events).1 =
      ⟨events ++ (d.feedAll lines).1, some (.io fault)⟩ := by
  induction lines generalizing reads d events with
  | nil =>
    obtain ⟨read, reads, rfl, hread, -⟩ := List.map_eq_cons_iff.1 h
    obtain ⟨_, rest⟩ := read
    cases hread
    rw [collectReads, Draft.feedAll, List.append_nil]
  | cons line lines ih =>
    obtain ⟨read, reads, rfl, hread, hreads⟩ := List.map_eq_cons_iff.1 h
    obtain ⟨_, rest⟩ := read
    cases hread
    rw [collectReads_unlimited, ih hreads, Draft.feedAll, List.append_assoc events]

end Unlimited

variable {c : Connection} {contentType : Option String} {maxEvents : Int}

theorem exists_reads_of_unlimited (hend : Arrival.failure c.body.arrivals = none)
    (htype : Announces contentType) (hmax : maxEvents ≤ 0) :
    ∃ reads, (c.collect contentType maxEvents).1 = (collectReads none reads {} []).1 ∧
      reads.map Read.line = readLines false (byteEnds.lines (Arrival.bytes c.body.arrivals)) := by
  have hlimit : limitOf maxEvents = none := if_neg (Int.not_lt.2 hmax)
  have hcollect := (c.collect_of_announces htype maxEvents).1
  rw [hlimit] at hcollect
  exact ⟨_, hcollect, map_line_reads hend false _⟩

/-- Where all lines of a stream are UTF-8, all of them are fed. -/
theorem collect_eq_of_lines (hend : Arrival.failure c.body.arrivals = none)
    (htype : Announces contentType) (hmax : maxEvents ≤ 0) {lines : List String}
    (h : byteEnds.lines (dropByteOrderMark (Arrival.bytes c.body.arrivals)) =
      lines.map Text.encode) :
    (c.collect contentType maxEvents).1 = ⟨Draft.eventsOf lines, none⟩ := by
  obtain ⟨reads, hcollect, hreads⟩ := exists_reads_of_unlimited hend htype hmax
  rw [hcollect]
  rcases readLines_false (Arrival.bytes c.body.arrivals) with hlines | ⟨hnil, hlines⟩
  · rw [hlines, h, List.map_map] at hreads
    have hok : reads.map Read.line = lines.map .ok := by
      rw [hreads]
      exact List.map_congr_left fun line _ => Text.read_encode line
    exact collectReads_of_map_line_eq hok {} []
  · -- the stream holds the mark only, and feeding an empty line to an empty draft does nothing
    rw [hnil] at h
    obtain rfl := List.map_eq_nil_iff.1 h.symm
    have hok : reads.map Read.line = [""].map .ok := by rw [hreads, hlines]; rfl
    exact collectReads_of_map_line_eq hok {} []

/-- The lines in front of the first one that is not UTF-8 are fed, and then the delivery fails. -/
theorem collect_eq_of_lines_append (hend : Arrival.failure c.body.arrivals = none)
    (htype : Announces contentType) (hmax : maxEvents ≤ 0) {before : List String}
    {bad : List UInt8} {after : List (List UInt8)}
    (h : byteEnds.lines (dropByteOrderMark (Arrival.bytes c.body.arrivals)) =
      before.map Text.encode ++ bad :: after) (hbad : Text.decode? bad = none) :
    (c.collect contentType maxEvents).1 =
      ⟨(Draft.feedAll {} before).1, some (.io .invalidText)⟩ := by
  obtain ⟨reads, hcollect, hreads⟩ := exists_reads_of_unlimited hend htype hmax
  rw [hcollect]
  rcases readLines_false (Arrival.bytes c.body.arrivals) with hlines | ⟨hnil, hlines⟩
  · rw [hlines, h, List.map_append, List.map_map, List.map_cons,
      Text.read_of_decode?_eq_none hbad] at hreads
    have hok : before.map (Text.read ∘ Text.encode) = before.map .ok :=
      List.map_congr_left fun line _ => Text.read_encode line
    rw [hok] at hreads
    exact collectReads_of_map_line_eq_append hreads {} []
  · rw [hnil] at h
    exact absurd h.symm (List.append_ne_nil_of_right_ne_nil _ (List.cons_ne_nil _ _))

/-- Reading a stream line by line without a limit is the same as decoding it as a whole. It ends
without an error exactly when the bytes are UTF-8; then the events are those of the lines of the
text. Otherwise the events are those of the lines in front of the first one that is not UTF-8, and
no draft is finished. -/
theorem collect_decodes_whole_text (hend : Arrival.failure c.body.arrivals = none)
    (htype : Announces contentType) (hmax : maxEvents ≤ 0) :
    ((c.collect contentType maxEvents).1.error = none ↔
        ∃ text, Text.decode? (Arrival.bytes c.body.arrivals) = some text) ∧
      (∀ text, Text.decode? (Arrival.bytes c.body.arrivals) = some text →
        (c.collect contentType maxEvents).1.events = Draft.eventsOf (Text.lines text)) ∧
      (Text.decode? (Arrival.bytes c.body.arrivals) = none →
        ∃ before bad after,
          byteEnds.lines (dropByteOrderMark (Arrival.bytes c.body.arrivals)) =
            before.map Text.encode ++ bad :: after ∧
          Text.decode? bad = none ∧
          (c.collect contentType maxEvents).1 =
            ⟨(Draft.feedAll {} before).1,
              some (.io ⟨"InvalidData", "stream did not contain valid UTF-8"⟩)⟩) := by
  have hvalid : ∀ text, Text.decode? (Arrival.bytes c.body.arrivals) = some text →
      (c.collect contentType maxEvents).1 = ⟨Draft.eventsOf (Text.lines text), none⟩ := by
    intro text htext
    apply collect_eq_of_lines hend htype hmax
    rw [Text.decode?_eq_some_iff.1 htext, Text.lines_dropByteOrderMark_encode]
  have hinvalid : Text.decode? (Arrival.bytes c.body.arrivals) = none →
      ∃ before bad after,
        byteEnds.lines (dropByteOrderMark (Arrival.bytes c.body.arrivals)) =
          before.map Text.encode ++ bad :: after ∧
        Text.decode? bad = none ∧
        (c.collect contentType maxEvents).1 =
          ⟨(Draft.feedAll {} before).1, some (.io .invalidText)⟩ := by
    intro hnone
    obtain ⟨before, bad, after, hlines, hbad⟩ := Text.exists_first_bad_line hnone
    exact ⟨before, bad, after, hlines, hbad,
      collect_eq_of_lines_append hend htype hmax hlines hbad⟩
  refine ⟨⟨?_, ?_⟩, ?_, hinvalid⟩
  · intro herror
    rcases hdecode : Text.decode? (Arrival.bytes c.body.arrivals) with _ | text
    · obtain ⟨before, bad, after, -, -, hcollect⟩ := hinvalid hdecode
      rw [hcollect] at herror
      cases herror
    · exact ⟨text, rfl⟩
  · rintro ⟨text, htext⟩
    rw [hvalid text htext]
  · intro text htext
    rw [hvalid text htext]

/-- A mark that is torn by the end of a chunk, and a line that is torn inside a character. -/
theorem collect_decodes_whole_text_torn_mark :
    Arrival.failure [.chunk [0xef], .chunk ([0xbb, 0xbf] ++ Text.encode "data: " ++ [0xc3]),
      .chunk ([0xa9] ++ Text.encode "\r\n\rdata: b")] = none ∧
    Announces (some "text/event-stream") ∧ (0 : Int) ≤ 0 ∧
    (Connection.collect ⟨⟨[.chunk [0xef],
        .chunk ([0xbb, 0xbf] ++ Text.encode "data: " ++ [0xc3]),
        .chunk ([0xa9] ++ Text.encode "\r\n\rdata: b")], 0⟩, {}⟩
      (some "text/event-stream") 0).1.events =
        Draft.eventsOf (Text.lines "\uFEFFdata: é\r\n\rdata: b") := by
  have hend : Arrival.failure [.chunk [0xef],
      .chunk ([0xbb, 0xbf] ++ Text.encode "data: " ++ [0xc3]),
      .chunk ([0xa9] ++ Text.encode "\r\n\rdata: b")] = none := by decide +kernel
  have htype : Announces (some "text/event-stream") := by decide +kernel
  have hbytes : Text.decode? (Arrival.bytes [.chunk [0xef],
      .chunk ([0xbb, 0xbf] ++ Text.encode "data: " ++ [0xc3]),
      .chunk ([0xa9] ++ Text.encode "\r\n\rdata: b")]) =
        some "\uFEFFdata: é\r\n\rdata: b" := by decide +kernel
  have hmax : (0 : Int) ≤ 0 := Int.le_refl 0
  exact ⟨hend, htype, hmax,
    (@collect_decodes_whole_text ⟨⟨_, 0⟩, {}⟩ _ 0 hend htype hmax).2.1 _ hbytes⟩

end EventStream
