import EventStream.Proofs.Body.Outcome
import EventStream.Proofs.Delivery.WholeText
/-!
# Lines that have ended

The lines that have ended in a text stay the same whatever comes behind the text: a failure, more
bytes, or nothing. So pulling from a body that brings the text at first brings these lines at first,
as far as they are UTF-8. Only the tail depends on what follows, and where nothing follows, it is a
line that completes no event.

## Main definitions

* `endedReads` — what is read of the lines that have ended in a text

## Main results

* `upToFailure_readLines_of_valid`, `upToFailure_readLines_of_invalid` — the reading of lines fails
  exactly where one of them is not UTF-8
* `lineReads_of_fault`, `lineReads_of_append`, `lineReads_of_end` — what a body brings that fails,
  goes on or ends behind a text
* `feedAll_tail` — the tail completes no event
-/

namespace EventStream

open Splitter

/-! ### Lines that can be read -/

namespace Text

variable {bs : List UInt8}

theorem decode?_ne_none_iff : decode? bs ≠ none ↔ ∃ cs, bs = bytes cs := by
  constructor
  · intro h
    obtain ⟨text, htext⟩ := Option.ne_none_iff_exists'.1 h
    exact ⟨text.toList, decode?_eq_some_iff.1 htext⟩
  · rintro ⟨cs, rfl⟩
    rw [decode?_bytes]
    exact Option.some_ne_none _

/-- A line can be read exactly if it is UTF-8; a mark in front does not matter. -/
theorem decode?_dropByteOrderMark_eq_none_iff :
    decode? (dropByteOrderMark bs) = none ↔ decode? bs = none := by
  apply Decidable.not_iff_not.1
  rw [← ne_eq, ← ne_eq, decode?_ne_none_iff, decode?_ne_none_iff]
  exact exists_bytes_eq_dropByteOrderMark_iff

end Text

theorem Text.exists_read_eq_ok {bs : List UInt8} (h : Text.decode? bs ≠ none) :
    ∃ text, Text.read bs = .ok text := by
  obtain ⟨text, htext⟩ := Option.ne_none_iff_exists'.1 h
  exact ⟨text, by rw [Text.read, htext]⟩

theorem readLine_of_decode?_eq_none {line : List UInt8} (started : Bool)
    (h : Text.decode? line = none) : readLine started line = .error .invalidText := by
  unfold readLine
  split
  · exact Text.read_of_decode?_eq_none h
  · exact Text.read_of_decode?_eq_none (Text.decode?_dropByteOrderMark_eq_none_iff.2 h)

theorem exists_readLine_eq_ok {line : List UInt8} (started : Bool)
    (h : Text.decode? line ≠ none) : ∃ text, readLine started line = .ok text := by
  unfold readLine
  split
  · exact Text.exists_read_eq_ok h
  · exact Text.exists_read_eq_ok (mt Text.decode?_dropByteOrderMark_eq_none_iff.1 h)

/-- Lines that are all UTF-8 are read without a failure. -/
theorem upToFailure_readLines_of_valid {lines : List (List UInt8)} (started : Bool)
    (h : ∀ line ∈ lines, Text.decode? line ≠ none) :
    (upToFailure (readLines started lines)).2 = none := by
  induction lines generalizing started with
  | nil => rfl
  | cons line lines ih =>
    obtain ⟨hline, hlines⟩ := List.forall_mem_cons.1 h
    obtain ⟨text, htext⟩ := exists_readLine_eq_ok started hline
    rw [readLines, htext]
    exact ih true hlines

/-- Where a line is not UTF-8, the reading fails for that. -/
theorem upToFailure_readLines_of_invalid {lines : List (List UInt8)} (started : Bool)
    (h : ∃ line ∈ lines, Text.decode? line = none) :
    (upToFailure (readLines started lines)).2 = some .invalidText := by
  induction lines generalizing started with
  | nil => simp at h
  | cons line lines ih =>
    by_cases hline : Text.decode? line = none
    · rw [readLines, readLine_of_decode?_eq_none started hline]
      rfl
    · obtain ⟨text, htext⟩ := exists_readLine_eq_ok started hline
      rw [readLines, htext]
      apply ih true
      simpa [hline] using h

/-! ### What the lines of a text are to a body -/

section Reads

variable {b : Body} {text more : List UInt8} {fault : Fault}

/-- What is read of the lines that have ended in a text. -/
def endedReads (text : List UInt8) : List (Except Fault String) :=
  readLines false ((byteEnds.cut text).1.map Row.line)

theorem rowReads_some (fault : Fault) (tail : List UInt8) (started : Bool)
    (rows : List (Row UInt8)) :
    (rowReads (some fault) tail started rows).map Read.line =
      readLines started (rows.map Row.line) ++ [.error fault] :=
  map_line_rowReads _ _ _ _

/-- A body that fails behind a text brings the lines that have ended in it, and the failure. -/
theorem lineReads_of_fault (h : Arrival.Bring b.arrivals text (some fault)) :
    b.lineReads = endedReads text ++ [.error fault] := by
  obtain ⟨hbytes, hfailure, -⟩ := h
  have hcontent : b.content.failure = some fault := hfailure
  rw [Body.lineReads, Content.reads, hcontent, hbytes, rowReads_some]
  rfl

/-- A body that goes on behind a text brings the lines that have ended in it at first. -/
theorem lineReads_of_append (h : Arrival.Bring b.arrivals (text ++ more) none) :
    ∃ reads, b.lineReads = endedReads text ++ reads := by
  obtain ⟨hbytes, hfailure, -⟩ := h
  obtain ⟨lines, hlines⟩ := (LineEnds.lined_cut byteEnds text).prefix_append more
  rw [Body.lineReads, map_line_reads hfailure, hbytes, LineEnds.lines, ← hlines, List.append_assoc,
    readLines_append]
  exact ⟨_, rfl⟩

/-- A body that ends behind a text brings the lines that have ended in it, and then the tail. -/
theorem lineReads_of_end (h : Arrival.Bring b.arrivals text none) :
    b.lineReads = endedReads text ++ readLines ((byteEnds.cut text).1 ≠ [])
      (if (byteEnds.cut text).2 = [] then [] else [(byteEnds.cut text).2]) := by
  obtain ⟨hbytes, hfailure, -⟩ := h
  rw [Body.lineReads, map_line_reads hfailure, hbytes, LineEnds.lines, readLines_append]
  simp [endedReads]

/-- The tail of a text completes no event: it is not empty, except for a mark in front of the first
line. -/
theorem feedAll_tail (text : List UInt8) :
    (Draft.feedAll (Draft.feedAll {} (upToFailure (endedReads text)).1).2
      (upToFailure (readLines ((byteEnds.cut text).1 ≠ [])
        (if (byteEnds.cut text).2 = [] then [] else [(byteEnds.cut text).2]))).1).1 = [] := by
  by_cases htail : (byteEnds.cut text).2 = []
  · rw [if_pos htail]
    rfl
  rw [if_neg htail]
  rcases hread : readLine ((byteEnds.cut text).1 ≠ []) (byteEnds.cut text).2 with fault | line
  · rw [readLines, hread]
    rfl
  rw [readLines, hread]
  by_cases hline : line = ""
  · have hrows : (byteEnds.cut text).1 = [] := by
      refine Decidable.byContradiction fun hne => htail ?_
      rw [readLine, if_pos (decide_eq_true hne), hline] at hread
      exact Text.read_eq_empty_iff.1 hread
    simp [endedReads, hrows, hline, readLines, upToFailure, Draft.feedAll]
  · simp [readLines, upToFailure, Draft.feedAll, Draft.feed_fst_of_ne_empty _ hline]

end Reads

end EventStream
