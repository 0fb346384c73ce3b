import EventStream.Proofs.Delivery.Limit
import EventStream.Proofs.Delivery.WholeText
import EventStream.Proofs.Line.Edges
/-!
# What has been read at a stage

The lines that lead from one stage to another stand at the front of the text, each with its
terminator, as long as none of them is the unfinished last line. Then the body has been read up to
the last of these terminators, and nothing has been asked behind it.

## Main results

* `Passes.exists_behind` — the body is read as far as some bytes reach
* `Passes.exists_front` — the lines stand at the front of the text
* `CompletesAt.unfinished` — an event that is completed by an empty line is not completed by the
  end of the body
* `CompletesAt.exists_taken` — the bytes taken end with the terminator of that empty line
-/

namespace EventStream

open Splitter

namespace Stage

variable {p q : Stage} {line : String} {lines : List String} {whole : Content}
  {text : List UInt8}

theorem unfinished_of_pull (h : p.pull.line = some (.ok line)) : p.splitter.finished = false := by
  by_cases hfinished : p.splitter.finished = true
  · rw [pull, pull_of_finished hfinished] at h
    cases h
  · exact Bool.eq_false_iff.2 hfinished

theorem Passes.unfinished (h : Passes p lines q) (hq : q.splitter.finished = false) :
    p.splitter.finished = false := by
  cases h with
  | nil => exact hq
  | cons hline _ => exact unfinished_of_pull hline

/-- Up to a stage behind which more lines can come, the body is read as far as some bytes reach,
and nothing has been asked behind them. -/
theorem Passes.exists_behind (h : Passes p lines q) (hq : q.splitter.finished = false) :
    ∃ n, q.body = p.body.behind n := by
  induction h with
  | nil p => exact ⟨0, p.body.behind_zero.symm⟩
  | @cons p q line lines hline hrest ih =>
    obtain ⟨m, hm⟩ := exists_pull_eq_behind (c := ⟨p.body, .mute⟩) hline (hrest.unfinished hq)
    obtain ⟨n, hn⟩ := ih hq
    have hfeed : (p.feed line).body = p.body.behind m := hm
    exact ⟨m + n, by rw [hn, hfeed, Body.behind_behind]⟩

/-- A line behind which more lines can come is the first row of the text ahead. -/
theorem exists_row_of_pull (h : p.splitter.Ahead whole p.body text)
    (hline : p.pull.line = some (.ok line)) (hnext : (p.feed line).splitter.finished = false) :
    ∃ row rows tail, byteEnds.cut text = (row :: rows, tail) ∧
      readLine p.splitter.started row.line = .ok line ∧
      (p.feed line).splitter.started = true ∧ (p.feed line).splitter.buffer = [] ∧
      (p.feed line).splitter.Ahead whole (p.feed line).body row.rest := by
  have hserves := Ahead.serves_pull (c := ⟨p.body, .mute⟩) h
  rcases hcut : byteEnds.cut text with ⟨_ | ⟨row, rows⟩, tail⟩
  · simp only [Pull.Serves, hcut] at hserves
    rcases hfailure : whole.failure with _ | fault
    · simp only [hfailure] at hserves
      cases hserves.2.1.symm.trans hnext
    · simp only [hfailure] at hserves
      cases hserves.2.symm.trans hline
  · simp only [Pull.Serves, hcut] at hserves
    obtain ⟨hrow, hstarted, hbuffer, hahead⟩ := hserves
    exact ⟨row, rows, tail, rfl, Option.some.inj (hrow.symm.trans hline), hstarted, hbuffer, hahead⟩

/-- The lines that lead to a stage stand at the front of the text, each with its terminator. What
follows them is ahead. -/
theorem Passes.exists_front (h : Passes p lines q) (hahead : p.splitter.Ahead whole p.body text)
    (hq : q.splitter.finished = false) :
    ∃ front rows rest, text = front ++ rest ∧ byteEnds.Lined front rows [] ∧
      readLines p.splitter.started (rows.map Row.line) = lines.map .ok ∧
      q.splitter.Ahead whole q.body rest ∧
      (lines ≠ [] → q.splitter.started = true ∧ q.splitter.buffer = []) := by
  induction h generalizing text with
  | nil p =>
    exact ⟨[], [], text, rfl, .tail fun _ ha => absurd ha List.not_mem_nil, rfl, hahead,
      fun hne => absurd rfl hne⟩
  | @cons p q line lines hline hrest ih =>
    obtain ⟨row, rows, tail, hcut, hrow, hstarted, hbuffer, hnext⟩ :=
      exists_row_of_pull hahead hline (hrest.unfinished hq)
    obtain ⟨front, rows', rest, hfront, hlined, hlines, hahead', hkept⟩ := ih hnext hq
    -- the first row is taken off the text, and the other lines stand in front of what is behind it
    have htext := LineEnds.lined_iff.2 hcut
    cases htext with
    | @line line' rest' _ _ t hnot ht hrows =>
      dsimp only at hfront
      subst hfront
      refine ⟨line' ++ byteEnds.symbols t ++ front, ⟨line', front⟩ :: rows', rest, ?_,
        hlined.cons_front t hnot ht, ?_, hahead', ?_⟩
      · simp only [List.append_assoc]
      · rw [hstarted] at hlines
        rw [List.map_cons, readLines, hrow, hlines, List.map_cons]
      · intro _
        cases hrest with
        | nil => exact ⟨hstarted, hbuffer⟩
        | cons _ _ => exact hkept (List.cons_ne_nil _ _)

end Stage

open Stage

namespace Body.CompletesAt

variable {b : Body} {n : Nat} {lines : List String} {p : Stage} (h : b.CompletesAt n lines p)

include h

/-- Some lines stand in front of the empty line, since the draft holds data. -/
theorem lines_ne_nil : lines ≠ [] := by
  rintro rfl
  obtain ⟨event, hevent⟩ := h.draft_feed
  rw [h.passes.draft_events_eq.1] at hevent
  cases hevent

/-- The end of the body has not been seen behind an empty line that completes an event. -/
theorem unfinished : (p.feed "").splitter.finished = false := by
  have hp := unfinished_of_pull h.pull_line
  obtain ⟨front, rows, rest, -, -, -, hahead, hkept⟩ :=
    h.passes.exists_front (ahead_start b) hp
  obtain ⟨hstarted, -⟩ := hkept h.lines_ne_nil
  have hserves := Ahead.serves_pull (c := ⟨p.body, .mute⟩) hahead
  have hline : (p.splitter.pull ⟨p.body, .mute⟩).line = some (.ok "") := h.pull_line
  rcases hcut : byteEnds.cut rest with ⟨_ | ⟨row, rows⟩, tail⟩
  · -- an unfinished last line is not empty, except for a mark in front of the first line
    exfalso
    simp only [Pull.Serves, hcut, hline, hstarted] at hserves
    rcases hfailure : b.content.failure with _ | fault
    · simp only [hfailure] at hserves
      by_cases htail : tail = []
      · rw [if_pos htail] at hserves
        cases hserves.2.2
      · rw [if_neg htail] at hserves
        exact htail (Text.read_eq_empty_iff.1 (Option.some.inj hserves.2.2).symm)
    · simp only [hfailure] at hserves
      cases hserves.2
  · simp only [Pull.Serves, hcut] at hserves
    exact hserves.2.2.2.unfinished

/-- Behind the empty line nothing is kept of a line, and lines have been handed out. -/
theorem splitter_feed :
    (p.feed "").splitter = ⟨[], (p.feed "").splitter.skipsLineFeed, true, false⟩ := by
  obtain ⟨-, -, -, -, -, -, -, hkept⟩ := h.passes_feed.exists_front (ahead_start b) h.unfinished
  obtain ⟨hstarted, hbuffer⟩ := hkept (by simp)
  exact Splitter.ext hbuffer rfl hstarted h.unfinished

/-- The bytes that have been taken consist of the lines in front and the empty line. -/
theorem exists_taken :
    ∃ taken, (p.feed "").body = b.behind taken.length ∧
      Arrival.bytes b.arrivals = taken ++ Arrival.bytes (p.feed "").body.arrivals ∧
      (byteEnds.cut taken).2 = [] ∧
      readLines false ((byteEnds.cut taken).1.map Row.line) = (lines ++ [""]).map .ok := by
  obtain ⟨m, hm⟩ := h.passes_feed.exists_behind h.unfinished
  have hbody : (p.feed "").body = b.behind m := hm
  obtain ⟨front, rows, rest, hfront, hlined, hlines, hahead, -⟩ :=
    h.passes_feed.exists_front (ahead_start b) h.unfinished
  obtain ⟨taken, htaken, hconsumed, hlast⟩ := hahead.taken
  have hlength : taken.length = m := by
    rw [hbody] at hconsumed
    exact (Nat.add_left_cancel hconsumed).symm
  refine ⟨taken, by rw [hlength, hbody], htaken, ?_⟩
  have hcut := hlined.cut_eq
  have hrest := hahead.text_eq
  have hbuffer := congrArg Splitter.buffer h.splitter_feed
  rw [hbuffer, List.nil_append] at hrest
  have hwhole := hfront.symm.trans htaken
  by_cases hskip : (p.feed "").splitter.skipsLineFeed = true ∧
      (Arrival.bytes (p.feed "").body.arrivals).head? = some lineFeed
  · -- the line feed of the last terminator has been left, and cutting does not miss it
    obtain ⟨before, rfl⟩ := List.getLast?_eq_some_iff.1 (hlast hskip.1)
    obtain ⟨more, hmore⟩ := List.head?_eq_some_iff.1 hskip.2
    rw [hrest, skip_eq_tail hskip, hmore, List.tail_cons] at hwhole
    obtain ⟨hrows, htail⟩ := byteEnds.cut_append_cr_lf before
    have hpair : front = before ++ [byteEnds.cr, byteEnds.lf] := by
      apply List.append_cancel_right (hwhole.trans _)
      simp [byteEnds]
    rw [← hpair, hcut] at hrows htail
    exact ⟨htail.symm, hrows ▸ hlines⟩
  · rw [hrest, skip_eq_self hskip, List.append_cancel_right_eq] at hwhole
    rw [← hwhole, hcut]
    exact ⟨rfl, hlines⟩

end Body.CompletesAt

end EventStream
