import EventStream.Cancellation.Basic
import EventStream.Line.Splitter
/-!
# Pulling lines from a connection

A connection is a body together with the cancellation pair that may fire while the body is read.
Pulling asks the body until a line is complete, a failure comes, or the body ends; at the end, bytes
without a terminator make a last line. After the end the body is not asked again.

## Main definitions

* `Connection` — a body and the cancellation pair beside it
* `Splitter.pull` — the next line, if there is one

## Main results

* `Splitter.remaining_pull_lt` — each line brings the end nearer, so lines can be pulled in a loop
-/

namespace EventStream

/-- A body being read, and the cancellation pair that can fire meanwhile. -/
@[ext] structure Connection where
  /-- The body. -/
  body : Body := {}
  /-- The cancellation pair. -/
  cancellation : Cancellation := {}
deriving DecidableEq, Repr

/-- What a pull brings, and what it leaves. -/
@[ext] structure Pull where
  /-- The line, or the failure in its place; nothing when the body has ended. -/
  line : Option (Except Fault String)
  /-- The splitter after the pull. -/
  splitter : Splitter
  /-- The connection after the pull. -/
  connection : Connection

namespace Splitter

/-- What a pull brings when the body tells that it has ended: the bytes gathered so far, if there
are any. -/
def atEnd (s : Splitter) (c : Connection) : Pull :=
  if s.buffer = [] then ⟨none, { s with finished := true }, c⟩
  else ⟨some s.takeLine.1, { s.takeLine.2 with finished := true }, c⟩

/-- The arrivals that remain when `rest` is left of the chunk in front. -/
def putBack (rest : List UInt8) (arrivals : List Arrival) : List Arrival :=
  if rest = [] then arrivals else .chunk rest :: arrivals

/-- Asks for bytes until a line is complete, a failure comes, or the body ends. -/
def ask (s : Splitter) (cancellation : Cancellation) (consumed : Nat) : List Arrival → Pull
  | [] => s.atEnd ⟨⟨[], consumed⟩, cancellation⟩
  | .pending :: arrivals => s.ask cancellation consumed arrivals
  | .cancel reason :: arrivals => s.ask (cancellation.fire reason) consumed arrivals
  | .fault fault :: arrivals => ⟨some (.error fault), s, ⟨⟨arrivals, consumed⟩, cancellation⟩⟩
  | .chunk bytes :: arrivals =>
    if bytes = [] then s.atEnd ⟨⟨arrivals, consumed⟩, cancellation⟩
    else
      let cut := s.cut bytes
      let consumed := consumed + (bytes.length - cut.rest.length)
      if cut.complete then
        ⟨some cut.splitter.takeLine.1, cut.splitter.takeLine.2,
          ⟨⟨putBack cut.rest arrivals, consumed⟩, cancellation⟩⟩
      else cut.splitter.ask cancellation consumed arrivals

/-- The next line of a connection. -/
def pull (s : Splitter) (c : Connection) : Pull :=
  if s.finished then ⟨none, s, c⟩ else s.ask c.cancellation c.body.consumed c.body.arrivals

/-- A bound on the lines that are still to come, failures included. -/
def remaining (s : Splitter) (c : Connection) : Nat :=
  c.body.size + if s.finished then 0 else 1

variable {s : Splitter} {c : Connection}

/-- A splitter that has seen the end of a body asks for nothing, whatever body it is given. -/
theorem pull_of_finished (h : s.finished = true) (c : Connection) : s.pull c = ⟨none, s, c⟩ :=
  if_pos h

theorem pull_of_unfinished (h : s.finished = false) (c : Connection) :
    s.pull c = s.ask c.cancellation c.body.consumed c.body.arrivals :=
  if_neg (Bool.eq_false_iff.1 h)

theorem size_putBack_le (rest : List UInt8) (arrivals : List Arrival) (m n : Nat) :
    (Body.mk (putBack rest arrivals) m).size ≤ rest.length + 1 + (Body.mk arrivals n).size := by
  unfold putBack
  split
  · simp only [Body.size]
    omega
  · simp [Body.size, Arrival.size]

theorem remaining_atEnd (s : Splitter) (c : Connection) :
    (s.atEnd c).splitter.remaining (s.atEnd c).connection = c.body.size := by
  unfold atEnd
  split <;> rfl

/-- A pull that brings a line leaves less of the body, or has seen its end. -/
theorem remaining_ask_lt (hs : s.finished = false) (k : Cancellation) (n : Nat)
    (arrivals : List Arrival) :
    (s.ask k n arrivals).splitter.remaining (s.ask k n arrivals).connection
      < (Body.mk arrivals n).size + 1 := by
  induction arrivals generalizing s k n with
  | nil =>
    rw [ask, remaining_atEnd]
    exact Nat.lt_succ_self _
  | cons a arrivals ih =>
    rw [Body.size_cons]
    cases a with
    -- a question asked again costs its arrival
    | pending =>
      have := ih hs k n
      rw [ask]
      omega
    | cancel reason =>
      have := ih hs (k.fire reason) n
      rw [ask]
      omega
    | fault fault =>
      simp only [ask, remaining, hs, Arrival.size, Body.size]
      simp
    | chunk bytes =>
      rw [ask]
      split
      -- the end costs its arrival, and a line at the end sets the flag
      · rw [remaining_atEnd]
        simp only [Body.size]
        omega
      · next hne =>
        have hlt := length_rest_cut_lt (s := s) hne
        dsimp only
        split
        -- a complete line costs at least its terminator
        · have := size_putBack_le (s.cut bytes).rest arrivals
            (n + (bytes.length - (s.cut bytes).rest.length)) n
          simp only [remaining, finished_takeLine, finished_cut, hs, Arrival.size] at this ⊢
          simp only [Bool.false_eq_true, if_false]
          omega
        · have hcut : (s.cut bytes).splitter.finished = false := by
            rw [finished_cut, hs]
          have := ih hcut k (n + (bytes.length - (s.cut bytes).rest.length))
          simp only [Body.size] at this ⊢
          omega

/-- Each line that a pull brings leaves fewer to come. -/
theorem remaining_pull_lt {line : Except Fault String} (h : (s.pull c).line = some line) :
    (s.pull c).splitter.remaining (s.pull c).connection < s.remaining c := by
  unfold pull at h ⊢
  split
  · next hs =>
    rw [if_pos hs] at h
    contradiction
  · next hs =>
    rw [Bool.not_eq_true] at hs
    have hlt := remaining_ask_lt hs c.cancellation c.body.consumed c.body.arrivals
    have hremaining : s.remaining c = c.body.size + 1 := by
      simp [remaining, hs]
    rw [hremaining]
    exact hlt

end Splitter

end EventStream
