import EventStream.Proofs.Line.Ahead
/-!
# The reads of a content

What pulling brings, one pull after the other, depends on the content of a body alone: first the
rows of the text, then the tail or the failure. The list of these reads is what a delivery works
through, so a delivery can be understood without chunks.

## Main definitions

* `Read` — what one pull brings, and the text that is left after it
* `Content.reads` — the reads of a text ahead
* `Splitter.Facing` — a splitter and a body that will bring certain reads
* `Content.Rests` — a body that has been read so far that a certain text is left
* `Splitter.readLines` — what is handed out for several lines
* `LinesFail` — lines fail only by not being UTF-8

## Main results

* `facing_start` — at the start, a body faces the reads of its content
* `Facing.pull_nil`, `Facing.pull_cons` — what a pull brings, and what is faced after it
-/

namespace EventStream

/-- What a pull brings in the middle of a content. -/
@[ext] structure Read where
  /-- The line, or the failure in its place. -/
  line : Except Fault String
  /-- The text that is still ahead, or nothing where the body has stopped. -/
  rest : Option (List UInt8)

open Splitter

/-- The reads at the stop of a body: the tail, unless there is none, or the failure. -/
def stopReads (started : Bool) (tail : List UInt8) : Option Fault → List Read
  | some fault => [⟨.error fault, none⟩]
  | none => if tail = [] then [] else [⟨readLine started tail, none⟩]

/-- The reads of the rows of a text, and those at the stop behind them. -/
def rowReads (failure : Option Fault) (tail : List UInt8) : Bool → List (Row UInt8) → List Read
  | started, [] => stopReads started tail failure
  | started, row :: rows =>
    ⟨readLine started row.line, some row.rest⟩ :: rowReads failure tail true rows

/-- The reads of a text in the middle of a content. -/
def Content.reads (whole : Content) (started : Bool) (text : List UInt8) : List Read :=
  rowReads whole.failure (byteEnds.cut text).2 started (byteEnds.cut text).1

/-- The body has been read until this text is left, or until it has stopped. -/
def Content.Rests (whole : Content) (body : Body) : Option (List UInt8) → Prop
  | some text => ∃ s : Splitter, s.buffer = [] ∧ s.Ahead whole body text
  | none => body.consumed = whole.start + whole.bytes.length

namespace Splitter

/-- Pulling will bring these reads: they come from the text ahead, or the end has been seen. -/
def Facing (whole : Content) (s : Splitter) (body : Body) (reads : List Read) : Prop :=
  (∃ text, s.Ahead whole body text ∧ reads = whole.reads s.started text) ∨
    s.finished = true ∧ reads = [] ∧ whole.Rests body none

variable {whole : Content} {s : Splitter} {c : Connection} {text : List UInt8} {reads : List Read}
  {read : Read}

/-- At the start, a body faces the reads of its content. -/
theorem facing_start (body : Body) :
    ({} : Splitter).Facing body.content body
      (body.content.reads false (Arrival.bytes body.arrivals)) :=
  Or.inl ⟨_, ahead_start body, rfl⟩

theorem rests_start (body : Body) :
    body.content.Rests body (some (Arrival.bytes body.arrivals)) :=
  ⟨{}, rfl, ahead_start body⟩

/-- Where no read is left, a pull brings nothing and the body has been read to its end. -/
theorem Facing.pull_nil (h : s.Facing whole c.body []) :
    (s.pull c).line = none ∧ whole.Rests (s.pull c).connection.body none := by
  rcases h with ⟨text, hahead, hreads⟩ | ⟨hfinished, -, hrests⟩
  · have hserves := hahead.serves_pull
    rcases hcut : byteEnds.cut text with ⟨rows, tail⟩
    simp only [Content.reads, hcut] at hreads
    cases rows with
    | cons row rows => exact absurd hreads (List.cons_ne_nil _ _).symm
    | nil =>
      -- no row is left, so a read could only come from a failure or a tail
      simp only [Pull.Serves, hcut] at hserves
      cases hfailure : whole.failure with
      | some fault =>
        rw [hfailure] at hreads
        exact absurd hreads (List.cons_ne_nil _ _).symm
      | none =>
        simp only [hfailure] at hserves
        simp only [hfailure, rowReads, stopReads] at hreads
        by_cases htail : tail = []
        · rw [if_pos htail] at hserves
          exact ⟨hserves.2.2, hserves.1⟩
        · rw [if_neg htail] at hreads
          exact absurd hreads (List.cons_ne_nil _ _).symm
  · rw [pull_of_finished hfinished]
    exact ⟨rfl, hrests⟩

/-- A pull brings the first read that is left. After it the other reads are left, unless reading
has failed. -/
theorem Facing.pull_cons (h : s.Facing whole c.body (read :: reads)) :
    (s.pull c).line = some read.line ∧ whole.Rests (s.pull c).connection.body read.rest ∧
      ((s.pull c).splitter.Facing whole (s.pull c).connection.body reads ∨
        ∃ fault, whole.failure = some fault ∧ read = ⟨.error fault, none⟩) := by
  rcases h with ⟨text, hahead, hreads⟩ | ⟨-, hnil, -⟩
  · have hserves := hahead.serves_pull
    rcases hcut : byteEnds.cut text with ⟨rows, tail⟩
    simp only [Content.reads, hcut] at hreads
    simp only [Pull.Serves, hcut] at hserves
    cases rows with
    | cons row rows =>
      obtain ⟨hline, hstarted, hbuffer, hnext⟩ := hserves
      obtain ⟨rfl, rfl⟩ := List.cons.inj hreads
      refine ⟨hline, ⟨_, hbuffer, hnext⟩, Or.inl (Or.inl ⟨row.rest, hnext, ?_⟩)⟩
      -- the rows behind the first one are the rows of what is left
      have hrest : byteEnds.cut row.rest = (rows, tail) := by
        have hlined := LineEnds.lined_iff.2 hcut
        cases hlined with
        | line _ _ _ hrest => exact hrest.cut_eq
      rw [Content.reads, hrest, hstarted]
    | nil =>
      obtain ⟨hcount, hstop⟩ := hserves
      cases hfailure : whole.failure with
      | some fault =>
        simp only [hfailure] at hstop
        rw [hfailure] at hreads
        obtain ⟨rfl, -⟩ := List.cons.inj hreads
        exact ⟨hstop, hcount, Or.inr ⟨fault, rfl, rfl⟩⟩
      | none =>
        simp only [hfailure] at hstop
        simp only [hfailure, rowReads, stopReads] at hreads
        by_cases htail : tail = []
        · rw [if_pos htail] at hreads
          exact absurd hreads (List.cons_ne_nil _ _)
        · rw [if_neg htail] at hreads hstop
          obtain ⟨rfl, rfl⟩ := List.cons.inj hreads
          exact ⟨hstop.2, hcount, Or.inl (Or.inr ⟨hstop.1, rfl, hcount⟩)⟩
  · exact absurd hnil (List.cons_ne_nil _ _)

/-- After a pull that brought a line, the other reads are left. -/
theorem Facing.pull_ok {line : String} {rest : Option (List UInt8)}
    (h : s.Facing whole c.body (⟨.ok line, rest⟩ :: reads)) :
    (s.pull c).splitter.Facing whole (s.pull c).connection.body reads := by
  obtain ⟨-, -, hfacing | ⟨fault, -, hfault⟩⟩ := h.pull_cons
  · exact hfacing
  · cases hfault

end Splitter

/-! ### Lines -/

/-- What is handed out for lines, one after the other. -/
def Splitter.readLines : Bool → List (List UInt8) → List (Except Fault String)
  | _, [] => []
  | started, line :: lines => readLine started line :: readLines true lines

theorem readLines_true (lines : List (List UInt8)) :
    readLines true lines = lines.map Text.read := by
  induction lines with
  | nil => rfl
  | cons line lines ih => rw [readLines, ih]; rfl

theorem readLines_append (started : Bool) (lines lines' : List (List UInt8)) :
    readLines started (lines ++ lines') =
      readLines started lines ++ readLines (started || lines ≠ []) lines' := by
  induction lines generalizing started with
  | nil => simp [readLines]
  | cons line lines ih =>
    rw [List.cons_append, readLines, readLines, ih]
    simp

/-! ### Failures -/

theorem Text.eq_invalidText_of_read {bytes : List UInt8} {fault : Fault}
    (h : Text.read bytes = .error fault) : fault = .invalidText := by
  unfold Text.read at h
  split at h
  · cases h
  · exact (Except.error.inj h).symm

/-- A line that cannot be read in the middle of a body is not UTF-8. -/
def LinesFail (reads : List Read) : Prop :=
  ∀ read ∈ reads, read.rest ≠ none → ∀ fault, read.line = .error fault → fault = .invalidText

theorem LinesFail.tail {read : Read} {reads : List Read} (h : LinesFail (read :: reads)) :
    LinesFail reads :=
  fun read' hread' => h read' (List.mem_cons_of_mem read hread')

theorem LinesFail.fault_eq {fault : Fault} {rest : List UInt8} {reads : List Read}
    (h : LinesFail (⟨.error fault, some rest⟩ :: reads)) : fault = .invalidText :=
  h _ List.mem_cons_self (Option.some_ne_none rest) fault rfl

/-- What is read at the stop of a body leaves no text behind. -/
theorem rest_of_mem_stopReads {started : Bool} {tail : List UInt8} {failure : Option Fault}
    {read : Read} (h : read ∈ stopReads started tail failure) : read.rest = none := by
  cases failure with
  | some fault =>
    rw [stopReads, List.mem_singleton] at h
    rw [h]
  | none =>
    rw [stopReads] at h
    split at h
    · exact absurd h List.not_mem_nil
    · rw [List.mem_singleton] at h
      rw [h]

theorem linesFail_reads (whole : Content) (started : Bool) (text : List UInt8) :
    LinesFail (whole.reads started text) := by
  unfold Content.reads
  generalize (byteEnds.cut text).1 = rows
  generalize (byteEnds.cut text).2 = tail
  -- rows fail as lines; whatever stands at the stop leaves no text behind
  induction rows generalizing started with
  | nil =>
    intro read hread hrest
    exact absurd (rest_of_mem_stopReads hread) hrest
  | cons row rows ih =>
    intro read hread hrest fault hfault
    rcases List.mem_cons.1 hread with rfl | hread
    · exact Text.eq_invalidText_of_read hfault
    · exact ih true read hread hrest fault hfault

end EventStream
