import EventStream.Proofs.Line.Answers
import EventStream.Proofs.Line.Restart
/-!
# No byte is lost

Wherever a splitter comes to, the bytes that have been taken are the lines that were handed out,
each with its terminator, and behind them what has been gathered. A line feed that is skipped belongs
to the terminator of the line in front of it, which has been handed out before. At the end, what has
been gathered makes a last line without a terminator.

## Main definitions

* `EndedLine` — a line with its terminator
* `Point.Accounted` — what the bytes taken consist of, and what has been handed out of them
* `Point.Middle`, `Point.Closed` — the same with what is kept for later, before the end and behind it

## Main results

* `accounted_askAll` — whatever has been answered, the bytes taken are accounted for
* `conserves_bytes` — no byte is lost or taken twice, asking comes to an end, and interruptions
  change nothing
-/

namespace EventStream

/-- A line with its terminator. -/
structure EndedLine where
  /-- The bytes of the line. -/
  line : List UInt8
  /-- What ends it. -/
  terminator : Terminator
deriving DecidableEq, Repr

/-- The bytes of a line and of its terminator. -/
def EndedLine.bytes (l : EndedLine) : List UInt8 := l.line ++ byteEnds.symbols l.terminator

theorem readLines_concat (lines : List (List UInt8)) (line : List UInt8) :
    Splitter.readLines false (lines ++ [line]) =
      Splitter.readLines false lines ++ [Splitter.readLine (lines ≠ []) line] := by
  rw [readLines_append, Bool.false_or]
  rfl

namespace Point

open Splitter

/-- The bytes that have been taken are lines with their terminators, and a rest without one. -/
structure Consists (p : Point) (rows : List EndedLine) (rest : List UInt8) : Prop where
  taken_eq : p.taken = rows.flatMap EndedLine.bytes ++ rest
  not_ends : ∀ line ∈ rest :: rows.map EndedLine.line, ∀ b ∈ line, ¬ byteEnds.Ends b

/-- Before the end, the lines have been handed out, and the rest is what has been gathered. -/
structure Middle (p : Point) (rows : List EndedLine) (rest : List UInt8) : Prop
    extends p.Consists rows rest where
  unfinished : p.splitter.finished = false
  buffer_eq : p.splitter.buffer = rest
  lines_eq : p.lines = readLines false (rows.map EndedLine.line)
  started_eq : p.splitter.started = decide (rows.map EndedLine.line ≠ [])
  /-- A line feed is skipped only where the last line has ended with a carriage return. -/
  skips : p.splitter.skipsLineFeed = true →
    rest = [] ∧ ∃ front line, rows = front ++ [⟨line, .carriageReturn⟩]

/-- Behind the end, the rest has been handed out as well, unless it is empty. -/
structure Closed (p : Point) (rows : List EndedLine) (rest : List UInt8) : Prop
    extends p.Consists rows rest where
  finished : p.splitter.finished = true
  buffer_eq : p.splitter.buffer = []
  lines_eq : p.lines =
    readLines false (rows.map EndedLine.line ++ if rest = [] then [] else [rest])

/-- The bytes taken are accounted for: before the end, the lines have been handed out, and the rest
is what has been gathered; behind it, the rest has been handed out as well, unless it is empty. -/
def Accounted (p : Point) : Prop :=
  ∃ rows rest, p.Consists rows rest ∧
    if p.splitter.finished then p.splitter.buffer = [] ∧ p.lines =
      readLines false (rows.map EndedLine.line ++ if rest = [] then [] else [rest])
    else p.splitter.buffer = rest ∧ p.lines = readLines false (rows.map EndedLine.line)

variable {p : Point} {rows : List EndedLine} {rest skipped : List UInt8}

theorem middle_start : ({} : Point).Middle [] [] where
  taken_eq := rfl
  not_ends := fun _ hline b hb => by
    rw [List.mem_singleton.1 hline] at hb
    exact absurd hb List.not_mem_nil
  unfinished := rfl
  buffer_eq := rfl
  lines_eq := rfl
  started_eq := rfl
  skips := fun h => absurd h Bool.false_ne_true

theorem lines_concat (s : Splitter) (taken : List UInt8) (replies : List Reply) (reply : Reply) :
    (Point.mk s taken (replies ++ [reply])).lines =
      (Point.mk s taken replies).lines ++ reply.line?.toList := by
  rw [lines, lines, List.filterMap_append]
  cases reply <;> rfl

/-- A line feed that is skipped belongs to the terminator of the last line. -/
theorem Middle.exists_skip (h : p.Middle rows rest)
    (honly : skipped = [] ∨ skipped = [lineFeed] ∧ p.splitter.skipsLineFeed = true) :
    ∃ rows' : List EndedLine, rows'.map EndedLine.line = rows.map EndedLine.line ∧
      p.taken ++ skipped = rows'.flatMap EndedLine.bytes ++ rest := by
  rcases honly with rfl | ⟨rfl, hskips⟩
  · exact ⟨rows, rfl, by rw [List.append_nil, h.taken_eq]⟩
  · obtain ⟨rfl, front, line, rfl⟩ := h.skips hskips
    refine ⟨front ++ [⟨line, .both⟩], by simp, ?_⟩
    rw [h.taken_eq, List.flatMap_append, List.flatMap_append, List.append_assoc, List.append_assoc,
      List.append_assoc]
    simp [EndedLine.bytes, LineEnds.symbols, byteEnds]

/-- Bytes without a terminator are gathered. -/
theorem Middle.of_forall_not_ends (h : p.Middle rows rest) {first : UInt8} {more : List UInt8}
    (hmore : ∀ b ∈ p.splitter.skip (first :: more), ¬ byteEnds.Ends b) :
    ∃ rows', (p.ask (.bytes first more)).Middle rows'
      (rest ++ p.splitter.skip (first :: more)) := by
  obtain ⟨skipped, hskipped, honly⟩ := p.splitter.exists_eq_append_skip (first :: more)
  obtain ⟨rows', hrows, htaken⟩ := h.exists_skip honly
  obtain ⟨hrest, hlines⟩ := List.forall_mem_cons.1 h.not_ends
  rw [ask_of_unfinished h.unfinished, fill_of_forall_not_ends hmore]
  refine ⟨rows', ⟨?_, ?_⟩, h.unfinished, ?_, ?_, ?_, fun hskips => nomatch hskips⟩
  · dsimp only
    conv => lhs; rw [hskipped]
    rw [← List.append_assoc, htaken, List.append_assoc]
  · rw [hrows]
    exact List.forall_mem_cons.2 ⟨List.forall_mem_append.2 ⟨hrest, hmore⟩, hlines⟩
  · exact congrArg (· ++ _) h.buffer_eq
  · rw [lines_concat, hrows, ← h.lines_eq]
    exact List.append_nil _
  · rw [hrows]
    exact h.started_eq

/-- Bytes with a terminator complete a line, which is handed out. -/
theorem Middle.of_eq_append_cons (h : p.Middle rows rest) {first b : UInt8}
    {more text behind : List UInt8} (hmore : p.splitter.skip (first :: more) = text ++ b :: behind)
    (htext : ∀ a ∈ text, ¬ byteEnds.Ends a) (hb : byteEnds.Ends b) :
    ∃ rows', (p.ask (.bytes first more)).Middle rows' [] := by
  obtain ⟨skipped, t, skips, honly, hskips, hfill⟩ := exists_fill_eq hmore htext hb
  obtain ⟨rows', hrows, htaken⟩ := h.exists_skip honly
  obtain ⟨hrest, hlines⟩ := List.forall_mem_cons.1 h.not_ends
  rw [ask_of_unfinished h.unfinished, hfill]
  refine ⟨rows' ++ [⟨rest ++ text, t⟩], ⟨?_, ?_⟩, h.unfinished, rfl, ?_, ?_, fun hskip => ?_⟩
  · dsimp only
    rw [← List.append_assoc, ← List.append_assoc, htaken]
    simp [EndedLine.bytes]
  · rw [List.map_append, hrows]
    refine List.forall_mem_cons.2 ⟨fun a ha => absurd ha List.not_mem_nil, ?_⟩
    refine List.forall_mem_append.2 ⟨hlines, List.forall_mem_singleton.2 ?_⟩
    exact List.forall_mem_append.2 ⟨hrest, htext⟩
  · rw [lines_concat, List.map_append, hrows, List.map_singleton, readLines_concat, ← h.started_eq,
      ← h.buffer_eq, ← h.lines_eq]
    rfl
  · simp
  · exact ⟨rfl, rows', rest ++ text, by rw [hskips hskip]⟩

/-- At the end, what has been gathered makes a last line. -/
theorem Middle.closed (h : p.Middle rows rest) : (p.ask .ended).Closed rows rest := by
  rw [ask_of_unfinished h.unfinished]
  by_cases hrest : rest = []
  · rw [fill_ended_of_nil (h.buffer_eq.trans hrest)]
    refine ⟨⟨?_, h.not_ends⟩, rfl, h.buffer_eq.trans hrest, ?_⟩
    · exact (List.append_nil _).trans h.taken_eq
    · rw [if_pos hrest, lines_concat]
      exact (List.append_nil _).trans (h.lines_eq.trans (congrArg _ (List.append_nil _).symm))
  · rw [fill_ended_of_ne_nil (h.buffer_eq ▸ hrest)]
    refine ⟨⟨?_, h.not_ends⟩, rfl, rfl, ?_⟩
    · exact (List.append_nil _).trans h.taken_eq
    · rw [if_neg hrest, readLines_concat, lines_concat, ← h.started_eq, ← h.buffer_eq,
        ← h.lines_eq]
      rfl

theorem Middle.of_line?_eq_none (h : p.Middle rows rest) {reply : Reply}
    (hreply : reply.line? = none) :
    Middle { p with replies := p.replies ++ [reply] } rows rest := by
  refine ⟨⟨h.taken_eq, h.not_ends⟩, h.unfinished, h.buffer_eq, ?_, h.started_eq, h.skips⟩
  rw [lines_concat, hreply, ← h.lines_eq]
  exact List.append_nil _

/-- What an answer does before the end. -/
theorem Middle.ask (h : p.Middle rows rest) (a : Answer) : ∃ rows' rest',
    (p.ask a).Middle rows' rest' ∨ (p.ask a).Closed rows' rest' := by
  cases a with
  | bytes first more =>
    rcases byteEnds.eq_append_cons_or_forall_not_ends (p.splitter.skip (first :: more)) with
      ⟨text, b, behind, hmore, htext, hb⟩ | hmore
    · obtain ⟨rows', hnext⟩ := h.of_eq_append_cons hmore htext hb
      exact ⟨rows', _, Or.inl hnext⟩
    · obtain ⟨rows', hnext⟩ := h.of_forall_not_ends hmore
      exact ⟨rows', _, Or.inl hnext⟩
  | ended => exact ⟨rows, rest, Or.inr h.closed⟩
  | pending =>
    rw [ask_of_fill_eq rfl h.unfinished]
    exact ⟨rows, rest, Or.inl (h.of_line?_eq_none rfl)⟩
  | fault fault =>
    rw [ask_of_fill_eq rfl h.unfinished]
    exact ⟨rows, rest, Or.inl (h.of_line?_eq_none rfl)⟩

/-- What several answers do. -/
theorem Middle.askAll (h : p.Middle rows rest) (answers : List Answer) : ∃ rows' rest',
    (p.askAll answers).Middle rows' rest' ∨ (p.askAll answers).Closed rows' rest' := by
  induction answers generalizing p rows rest with
  | nil => exact ⟨rows, rest, Or.inl h⟩
  | cons a answers ih =>
    rw [askAll_cons]
    obtain ⟨rows', rest', hmiddle | hclosed⟩ := h.ask a
    · exact ih hmiddle
    · rw [askAll_of_finished hclosed.finished]
      exact ⟨rows', rest', Or.inr hclosed⟩

/-- Whatever has been answered, the bytes taken are accounted for. -/
theorem accounted_askAll (answers : List Answer) : (({} : Point).askAll answers).Accounted := by
  obtain ⟨rows, rest, hmiddle | hclosed⟩ := middle_start.askAll answers
  · refine ⟨rows, rest, hmiddle.toConsists, ?_⟩
    rw [if_neg (Bool.eq_false_iff.1 hmiddle.unfinished)]
    exact ⟨hmiddle.buffer_eq, hmiddle.lines_eq⟩
  · refine ⟨rows, rest, hclosed.toConsists, ?_⟩
    rw [if_pos hclosed.finished]
    exact ⟨hclosed.buffer_eq, hclosed.lines_eq⟩

/-- No byte is lost, and none is taken twice. Whatever has been answered so far, the bytes taken are
the lines that were handed out, each with its terminator, and what has been gathered behind them;
none of these holds a byte that ends lines, and at the end what has been gathered is handed out as
well, unless it is empty. Behind the end nothing is asked. Before it, of the bytes that are there at
least one is taken and no more than there are, and only places among them are looked at. Where
nothing is there yet, or reading fails, nothing changes, and whatever is answered later comes to the
same as without that. Asking goes on only as long as bytes are taken, so if no more than `left` bytes
come, it stops with one of the next `left + 1` answers.

Pulls from a body are such answers: they hand out the same, and the bytes taken are those that are
gone from the body. Where something has to be waited for in a body, pulling brings the same as
without it. Where reading fails, the failure is handed out between the others, unless the body ends
before. -/
theorem conserves_bytes :
    (∀ answers : List Answer,
      let p := ({} : Point).askAll answers
      p.Accounted ∧
      (p.splitter.finished = true → ∀ c, p.splitter.pull c = ⟨none, p.splitter, c⟩) ∧
      (p.splitter.finished = false →
        (∀ first more, ∃ used, p.splitter.cutAt? (first :: more) =
            some ((p.splitter.cut (first :: more)).splitter,
              (p.splitter.cut (first :: more)).complete, used) ∧
          1 ≤ used ∧ used ≤ (first :: more).length ∧
          (p.ask (.bytes first more)).taken = p.taken ++ (first :: more).take used) ∧
        p.ask .pending = { p with replies := p.replies ++ [.waits] } ∧
        (∀ fault, p.ask (.fault fault) = { p with replies := p.replies ++ [.fails fault] }) ∧
        ∀ more : List Answer,
          (∃ (s : Splitter) (taken : List UInt8) (later : List Reply),
            p.askAll more = ⟨s, taken, p.replies ++ later⟩ ∧
            p.askAll (.pending :: more) = ⟨s, taken, p.replies ++ .waits :: later⟩ ∧
            ∀ fault, p.askAll (.fault fault :: more) =
              ⟨s, taken, p.replies ++ .fails fault :: later⟩) ∧
          ∀ left < more.length, (p.askAll more).taken.length ≤ p.taken.length + left →
            p.StopsWithin left more)) ∧
    (∀ (c : Connection) (k : Nat), ∃ answers,
      let p := ({} : Point).askAll answers
      p.splitter = (nthPull {} c k).splitter ∧
      p.items = (List.range (k + 1)).filterMap (handedOut {} c) ∧
      Arrival.offered c.body.arrivals =
        p.taken ++ Arrival.offered (nthPull {} c k).connection.body.arrivals ∧
      (nthPull {} c k).connection.body.consumed = c.body.consumed + p.taken.length) ∧
    ∀ (s : Splitter) (c : Connection) (back : List Arrival),
      s.handedOut (c.followedBy (.pending :: back)) = s.handedOut (c.followedBy back) ∧
      ∀ fault,
        (∃ m, InsertedAt m (.error fault) (s.handedOut (c.followedBy back))
          (s.handedOut (c.followedBy (.fault fault :: back)))) ∨
        s.EndsBefore c ∧
          s.handedOut (c.followedBy (.fault fault :: back)) = s.handedOut (c.followedBy back) := by
  refine ⟨fun answers => ?_, fun c k => ?_, fun s c back => ?_⟩
  · intro p
    refine ⟨accounted_askAll answers, pull_of_finished, fun hunfinished => ?_⟩
    refine ⟨fun first more => ?_, ask_of_fill_eq rfl hunfinished,
      fun fault => ask_of_fill_eq rfl hunfinished, fun more => ?_⟩
    · obtain ⟨used, hcut, hpos, hle, htaken, -⟩ := p.splitter.exists_taken_fill first more
      refine ⟨used, hcut, hpos, hle, ?_⟩
      rw [ask_of_unfinished hunfinished, htaken]
    · exact ⟨exists_askAll_cons_eq hunfinished more, fun left => stopsWithin hunfinished⟩
  · obtain ⟨answers, hsplitter, hitems, taken, htaken, hoffered, hconsumed⟩ :=
      exists_askAll_nthPull {} c k
    have hstart : (({} : Point).askAll answers).taken = taken := htaken
    refine ⟨answers, hsplitter, hitems, ?_⟩
    rw [hstart]
    exact ⟨hoffered, hconsumed⟩
  · exact ⟨handedOut_pending s c back, fun fault => handedOut_fault s c fault back⟩

/-- A chunk ends between the two bytes of a terminator, and nothing is there for a while. The line
feed alone is a chunk of which nothing but itself is taken; asking goes on behind it, and stops with
what follows. -/
theorem conserves_bytes_torn_pair :
    let p := ({} : Point).askAll [.bytes 0x61 [carriageReturn], .pending]
    let more : List Answer := [.bytes lineFeed [], .bytes 0x62 [], .ended]
    p.splitter.finished = false ∧ p.lines = [.ok "a"] ∧
    (p.ask (.bytes lineFeed [])).taken = p.taken ++ [lineFeed] ∧ p.StopsWithin 2 more := by
  intro p more
  have hunfinished : p.splitter.finished = false := rfl
  obtain ⟨hbytes, -, -, hmore⟩ :=
    (conserves_bytes.1 [.bytes 0x61 [carriageReturn], .pending]).2.2 hunfinished
  obtain ⟨used, -, hpos, hle, htaken⟩ := hbytes lineFeed []
  obtain rfl : used = 1 := Nat.le_antisymm hle hpos
  have hcount : (p.askAll more).taken.length ≤ p.taken.length + 2 := by decide +kernel
  exact ⟨hunfinished, rfl, htaken, (hmore more).2 2 (Nat.lt_succ_self 2) hcount⟩

end Point

end EventStream
