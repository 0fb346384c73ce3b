import EventStream.Proofs.Line.Places
import EventStream.Proofs.Line.Reads
import EventStream.Proofs.Line.Sequence
/-!
# One answer after the other

A pull asks for bytes until it has something to hand out. What answers may be anything: bytes in
pieces of any size, the end, a failure, or that nothing is there yet. Between two answers nothing is
kept but the splitter. So pulls can be taken apart into answers, and what holds behind any answers
holds wherever a pull comes to.

## Main definitions

* `Answer`, `Reply` — what is answered to a question for bytes, and what comes of it
* `Splitter.fill` — what a splitter does with one answer
* `Point`, `Point.askAll` — a place between two answers, and the places that are reached
* `Point.StopsWithin` — asking comes to an end
* `Point.Leads` — what is handed out and taken from a body on the way from one place to another

## Main results

* `exists_askAll_cons_eq` — an answer that brings nothing does not matter for the others
* `stopsWithin` — where bytes run out, asking comes to an end
* `exists_askAll_nthPull` — pulls are answers, one after the other
-/

namespace EventStream

/-- What is answered to a question for bytes. -/
inductive Answer where
  /-- There are bytes: a first one, and maybe others. -/
  | bytes (first : UInt8) (more : List UInt8)
  /-- There are no more bytes. -/
  | ended
  /-- Nothing is there yet. -/
  | pending
  /-- Reading fails. -/
  | fault (fault : Fault)
deriving DecidableEq, Repr

/-- What comes of an answer. -/
inductive Reply where
  /-- No line is complete, and the next question is asked at once. -/
  | goesOn
  /-- There is nothing to be done until the question is asked again. -/
  | waits
  /-- A line is handed out, or a failure in its place if it is not UTF-8. -/
  | line (line : Except Fault String)
  /-- The failure to read is handed out. -/
  | fails (fault : Fault)
  /-- There are no more lines. -/
  | ends

namespace Reply

/-- The line that is handed out. -/
def line? : Reply → Option (Except Fault String)
  | .line l => some l
  | _ => none

/-- All that is handed out: a line or a failure. -/
def item? : Reply → Option (Except Fault String)
  | .line l => some l
  | .fails fault => some (.error fault)
  | _ => none

end Reply

/-- What is done with an answer. -/
@[ext] structure Fill where
  /-- What comes of it. -/
  reply : Reply
  /-- The splitter behind it. -/
  splitter : Splitter
  /-- The bytes that are taken. -/
  taken : List UInt8

/-- What a splitter does with one answer. -/
def Splitter.fill (s : Splitter) : Answer → Fill
  | .bytes first more =>
    let cut := s.cut (first :: more)
    let taken := (first :: more).take ((first :: more).length - cut.rest.length)
    if cut.complete then ⟨.line cut.splitter.takeLine.1, cut.splitter.takeLine.2, taken⟩
    else ⟨.goesOn, cut.splitter, taken⟩
  | .ended =>
    let p := s.atEnd {}
    ⟨p.line.elim .ends .line, p.splitter, []⟩
  | .pending => ⟨.waits, s, []⟩
  | .fault fault => ⟨.fails fault, s, []⟩

/-- A place between two answers. -/
@[ext] structure Point where
  /-- The splitter. -/
  splitter : Splitter := {}
  /-- The bytes that have been taken so far. -/
  taken : List UInt8 := []
  /-- What has come of the answers so far. -/
  replies : List Reply := []

namespace Point

/-- The lines that have been handed out so far. -/
def lines (p : Point) : List (Except Fault String) := p.replies.filterMap Reply.line?

/-- All that has been handed out so far, failures to read among it. -/
def items (p : Point) : List (Except Fault String) := p.replies.filterMap Reply.item?

/-- The place behind one more answer. Behind the end nothing is asked. -/
def ask (p : Point) (a : Answer) : Point :=
  if p.splitter.finished then p
  else
    let fill := p.splitter.fill a
    ⟨fill.splitter, p.taken ++ fill.taken, p.replies ++ [fill.reply]⟩

/-- The place behind several answers. -/
def askAll (p : Point) (answers : List Answer) : Point := answers.foldl ask p

variable {p : Point} {answers : List Answer}

theorem ask_of_finished (h : p.splitter.finished = true) (a : Answer) : p.ask a = p := if_pos h

theorem ask_of_unfinished (h : p.splitter.finished = false) (a : Answer) :
    p.ask a = ⟨(p.splitter.fill a).splitter, p.taken ++ (p.splitter.fill a).taken,
      p.replies ++ [(p.splitter.fill a).reply]⟩ :=
  if_neg (Bool.eq_false_iff.1 h)

theorem askAll_cons (p : Point) (a : Answer) (answers : List Answer) :
    p.askAll (a :: answers) = (p.ask a).askAll answers := rfl

theorem askAll_append (p : Point) (answers answers' : List Answer) :
    p.askAll (answers ++ answers') = (p.askAll answers).askAll answers' := List.foldl_append

theorem askAll_of_finished (h : p.splitter.finished = true) (answers : List Answer) :
    p.askAll answers = p := by
  induction answers with
  | nil => rfl
  | cons a answers ih => rw [askAll_cons, ask_of_finished h, ih]

end Point

/-! ### Single answers -/

namespace Splitter

variable {s : Splitter} {first b : UInt8} {more text rest : List UInt8}

theorem fill_of_forall_not_ends (h : ∀ b ∈ s.skip (first :: more), ¬ byteEnds.Ends b) :
    s.fill (.bytes first more) =
      ⟨.goesOn, { s with buffer := s.buffer ++ s.skip (first :: more), skipsLineFeed := false },
        first :: more⟩ := by
  rw [fill, cut_of_forall_not_ends h]
  dsimp only
  rw [if_neg Bool.false_ne_true, List.length_nil, Nat.sub_zero, List.take_length]

/-- From bytes with a terminator those are taken that reach to its end, and a line feed in front
that is skipped. -/
theorem exists_fill_eq (h : s.skip (first :: more) = text ++ b :: rest)
    (htext : ∀ a ∈ text, ¬ byteEnds.Ends a) (hb : byteEnds.Ends b) :
    ∃ skipped t skips, (skipped = [] ∨ skipped = [lineFeed] ∧ s.skipsLineFeed = true) ∧
      (skips = true → t = .carriageReturn) ∧
      s.fill (.bytes first more) =
        ⟨.line (readLine s.started (s.buffer ++ text)), ⟨[], skips, true, s.finished⟩,
          skipped ++ text ++ byteEnds.symbols t⟩ := by
  obtain ⟨skipped, t, htaken, honly, hlast⟩ := exists_taken_eq h hb
  refine ⟨skipped, t, decide (b = carriageReturn ∧ rest = []), honly,
    fun hskips => hlast (of_decide_eq_true hskips), ?_⟩
  rw [fill, cut_of_eq_append_cons h htext hb, htaken]
  dsimp only
  rw [if_pos rfl, List.length_append, Nat.add_sub_cancel, List.take_left]
  rfl

/-- Of bytes that are there at least one is taken, and the others are left. -/
theorem exists_taken_fill (s : Splitter) (first : UInt8) (more : List UInt8) :
    ∃ used, s.cutAt? (first :: more) =
        some ((s.cut (first :: more)).splitter, (s.cut (first :: more)).complete, used) ∧
      1 ≤ used ∧ used ≤ (first :: more).length ∧
      (s.fill (.bytes first more)).taken = (first :: more).take used ∧
      (s.cut (first :: more)).rest = (first :: more).drop used := by
  obtain ⟨used, hcut, hpos, hle, hrest⟩ := s.exists_cutAt?_eq (List.cons_ne_nil first more)
  refine ⟨used, hcut, hpos, hle, ?_, hrest⟩
  have hused : (first :: more).length - (s.cut (first :: more)).rest.length = used := by
    rw [hrest, List.length_drop]
    omega
  rw [fill]
  split <;> exact congrArg ((first :: more).take ·) hused

theorem fill_of_complete (h : (s.cut (first :: more)).complete = true) :
    (s.fill (.bytes first more)).reply = .line (s.cut (first :: more)).splitter.takeLine.1 ∧
      (s.fill (.bytes first more)).splitter = (s.cut (first :: more)).splitter.takeLine.2 := by
  simp only [fill, if_pos h, and_self]

theorem fill_of_not_complete (h : ¬ (s.cut (first :: more)).complete = true) :
    (s.fill (.bytes first more)).reply = .goesOn ∧
      (s.fill (.bytes first more)).splitter = (s.cut (first :: more)).splitter := by
  simp only [fill, if_neg h, and_self]

/-- Of a chunk that completes no line nothing is left. -/
theorem rest_cut_of_not_complete {chunk : List UInt8} (h : ¬ (s.cut chunk).complete = true) :
    (s.cut chunk).rest = [] := by
  rcases byteEnds.eq_append_cons_or_forall_not_ends (s.skip chunk) with
    ⟨text, b, rest, hchunk, htext, hb⟩ | hchunk
  · rw [cut_of_eq_append_cons hchunk htext hb] at h
    exact absurd rfl h
  · rw [cut_of_forall_not_ends hchunk]

theorem fill_ended_of_nil (h : s.buffer = []) :
    s.fill .ended = ⟨.ends, { s with finished := true }, []⟩ := by
  rw [fill, atEnd, if_pos h]
  rfl

theorem fill_ended_of_ne_nil (h : s.buffer ≠ []) :
    s.fill .ended =
      ⟨.line (readLine s.started s.buffer), ⟨[], s.skipsLineFeed, true, true⟩, []⟩ := by
  rw [fill, atEnd, if_neg h]
  rfl

/-- Where the next question is asked at once, some bytes have been taken. -/
theorem fill_of_goesOn {a : Answer} (h : (s.fill a).reply = .goesOn) :
    1 ≤ (s.fill a).taken.length ∧ (s.fill a).splitter.finished = s.finished := by
  cases a with
  | bytes first more =>
    obtain ⟨used, -, hpos, hle, htaken, -⟩ := s.exists_taken_fill first more
    rw [htaken, List.length_take]
    refine ⟨by omega, ?_⟩
    by_cases hcomplete : (s.cut (first :: more)).complete = true
    · cases (fill_of_complete hcomplete).1.symm.trans h
    · rw [(fill_of_not_complete hcomplete).2, finished_cut]
  | ended =>
    by_cases hempty : s.buffer = []
    · rw [fill_ended_of_nil hempty] at h
      cases h
    · rw [fill_ended_of_ne_nil hempty] at h
      cases h
  | pending => cases h
  | fault fault => cases h

end Splitter

/-! ### Several answers -/

namespace Point

open Splitter

variable {p : Point} {a : Answer} {reply : Reply} {answers : List Answer}

/-- What comes of answers depends on the splitter only. -/
theorem exists_askAll_eq (s : Splitter) (answers : List Answer) :
    ∃ (s' : Splitter) (taken : List UInt8) (later : List Reply), ∀ p : Point, p.splitter = s →
      p.askAll answers = ⟨s', p.taken ++ taken, p.replies ++ later⟩ := by
  induction answers generalizing s with
  | nil =>
    refine ⟨s, [], [], fun p hp => ?_⟩
    rw [List.append_nil, List.append_nil, ← hp]
    rfl
  | cons a answers ih =>
    rcases hs : s.finished with _ | _
    · obtain ⟨s', taken, later, hlater⟩ := ih (s.fill a).splitter
      refine ⟨s', (s.fill a).taken ++ taken, (s.fill a).reply :: later, fun p hp => ?_⟩
      subst hp
      rw [askAll_cons, ask_of_unfinished hs, hlater _ rfl, List.append_assoc, List.append_assoc]
      rfl
    · refine ⟨s, [], [], fun p hp => ?_⟩
      subst hp
      rw [askAll_of_finished hs, List.append_nil, List.append_nil]

/-- An answer that brings nothing changes nothing, but for what comes of it. -/
theorem ask_of_fill_eq (h : p.splitter.fill a = ⟨reply, p.splitter, []⟩)
    (hunfinished : p.splitter.finished = false) :
    p.ask a = { p with replies := p.replies ++ [reply] } := by
  rw [ask_of_unfinished hunfinished, h, List.append_nil]

/-- Without such answers, all the others come to the same. -/
theorem exists_askAll_cons_eq (hunfinished : p.splitter.finished = false) (answers : List Answer) :
    ∃ (s' : Splitter) (taken : List UInt8) (later : List Reply),
      p.askAll answers = ⟨s', taken, p.replies ++ later⟩ ∧
      p.askAll (.pending :: answers) = ⟨s', taken, p.replies ++ .waits :: later⟩ ∧
      ∀ fault, p.askAll (.fault fault :: answers) =
        ⟨s', taken, p.replies ++ .fails fault :: later⟩ := by
  obtain ⟨s', taken, later, hlater⟩ := exists_askAll_eq p.splitter answers
  refine ⟨s', p.taken ++ taken, later, hlater p rfl, ?_, fun fault => ?_⟩
  · rw [askAll_cons, ask_of_fill_eq rfl hunfinished,
      hlater { p with replies := p.replies ++ [.waits] } rfl, List.append_assoc]
    rfl
  · rw [askAll_cons, ask_of_fill_eq rfl hunfinished,
      hlater { p with replies := p.replies ++ [.fails fault] } rfl, List.append_assoc]
    rfl

theorem length_taken_le_askAll (p : Point) (answers : List Answer) :
    p.taken.length ≤ (p.askAll answers).taken.length := by
  obtain ⟨s', taken, later, hlater⟩ := exists_askAll_eq p.splitter answers
  rw [hlater p rfl, List.length_append]
  exact Nat.le_add_right _ _

/-- Among these answers one stops the asking: not the next question comes of it, but something to
be handed out, or nothing for now. Each of the answers in front of it, of which there are at most so
many, brings the next question at once. -/
def StopsWithin (p : Point) (left : Nat) (answers : List Answer) : Prop :=
  ∃ before a after reply, answers = before ++ a :: after ∧ before.length ≤ left ∧
    reply ≠ .goesOn ∧ (p.askAll (before ++ [a])).replies =
      p.replies ++ List.replicate before.length .goesOn ++ [reply]

/-- Asking comes to an end: of more answers than there are bytes to be taken, one stops it. -/
theorem stopsWithin (hunfinished : p.splitter.finished = false) {left : Nat}
    (hlength : left < answers.length)
    (htaken : (p.askAll answers).taken.length ≤ p.taken.length + left) :
    p.StopsWithin left answers := by
  induction answers generalizing p left with
  | nil => exact absurd hlength (Nat.not_lt_zero _)
  | cons a answers ih =>
    rw [askAll_cons] at htaken
    rw [List.length_cons] at hlength
    have hask := ask_of_unfinished hunfinished a
    by_cases hgoes : (p.splitter.fill a).reply = .goesOn
    · -- a byte has been taken, so fewer are left for the other answers
      obtain ⟨hpos, hfinished⟩ := fill_of_goesOn hgoes
      have hnext : (p.ask a).splitter.finished = false := by
        rw [hask]
        exact hfinished.trans hunfinished
      have hcount : p.taken.length + 1 ≤ (p.ask a).taken.length := by
        rw [hask, List.length_append]
        exact Nat.add_le_add_left hpos _
      have hle := (p.ask a).length_taken_le_askAll answers
      have hbound : ((p.ask a).askAll answers).taken.length ≤
          (p.ask a).taken.length + (left - 1) := by omega
      obtain ⟨before, b, after, reply, hanswers, hbefore, hreply, hreplies⟩ :=
        ih hnext (by omega) hbound
      refine ⟨a :: before, b, after, reply, congrArg (a :: ·) hanswers, ?_, hreply, ?_⟩
      · rw [List.length_cons]
        omega
      · rw [List.cons_append, askAll_cons, hreplies, hask, hgoes, List.length_cons,
          List.replicate_succ]
        simp only [List.append_assoc, List.cons_append, List.nil_append]
    · refine ⟨[], a, answers, _, rfl, Nat.zero_le _, hgoes, ?_⟩
      rw [List.nil_append, askAll_cons, hask]
      exact (congrArg (· ++ _) (List.append_nil _)).symm

end Point

/-! ### Pulls -/

/-- All bytes that arrivals bring, whatever comes between them. -/
def Arrival.offered : List Arrival → List UInt8
  | [] => []
  | .chunk bytes :: arrivals => bytes ++ offered arrivals
  | _ :: arrivals => offered arrivals

theorem Splitter.offered_putBack (rest : List UInt8) (arrivals : List Arrival) :
    Arrival.offered (putBack rest arrivals) = rest ++ Arrival.offered arrivals := by
  unfold putBack
  split
  · next h => rw [h, List.nil_append]
  · rfl

namespace Point

open Splitter

variable {p : Point}

/-- Between two places this has been handed out, and the bytes taken are those that a body has lost
meanwhile. -/
structure Leads (p p' : Point) (body body' : Body) (handed : List (Except Fault String)) :
    Prop where
  items_eq : p'.items = p.items ++ handed
  taken : ∃ taken, p'.taken = p.taken ++ taken ∧
    Arrival.offered body.arrivals = taken ++ Arrival.offered body'.arrivals ∧
    body'.consumed = body.consumed + taken.length

variable {p' p'' : Point} {body body' body'' : Body} {handed handed' : List (Except Fault String)}

theorem Leads.refl (p : Point) (body : Body) : p.Leads p body body [] where
  items_eq := (List.append_nil _).symm
  taken := ⟨[], (List.append_nil _).symm, rfl, rfl⟩

theorem Leads.trans (h : p.Leads p' body body' handed) (h' : p'.Leads p'' body' body'' handed') :
    p.Leads p'' body body'' (handed ++ handed') where
  items_eq := by rw [h'.items_eq, h.items_eq, List.append_assoc]
  taken := by
    obtain ⟨taken, htaken, hoffered, hconsumed⟩ := h.taken
    obtain ⟨taken', htaken', hoffered', hconsumed'⟩ := h'.taken
    refine ⟨taken ++ taken', ?_, ?_, ?_⟩
    · rw [htaken', htaken, List.append_assoc]
    · rw [hoffered, hoffered', List.append_assoc]
    · rw [hconsumed', hconsumed, List.length_append, Nat.add_assoc]

/-- One answer leads on if the body loses the bytes that are taken from it. -/
theorem leads_ask (h : p.splitter.finished = false) {a : Answer}
    (hoffered : Arrival.offered body.arrivals =
      (p.splitter.fill a).taken ++ Arrival.offered body'.arrivals)
    (hconsumed : body'.consumed = body.consumed + (p.splitter.fill a).taken.length) :
    p.Leads (p.ask a) body body' (p.splitter.fill a).reply.item?.toList := by
  rw [ask_of_unfinished h]
  refine ⟨?_, _, rfl, hoffered, hconsumed⟩
  rw [items, items, List.filterMap_append]
  cases (p.splitter.fill a).reply <;> rfl

/-- The end of a body is one answer. -/
theorem leads_ended (h : p.splitter.finished = false) (c : Connection)
    (hoffered : Arrival.offered body.arrivals = Arrival.offered c.body.arrivals)
    (hconsumed : c.body.consumed = body.consumed) :
    (p.ask .ended).splitter = (p.splitter.atEnd c).splitter ∧
      p.Leads (p.ask .ended) body (p.splitter.atEnd c).connection.body
        (p.splitter.atEnd c).line.toList := by
  have hleads : p.Leads (p.ask .ended) body c.body (p.splitter.fill .ended).reply.item?.toList :=
    leads_ask h hoffered hconsumed
  rw [connection_atEnd]
  by_cases hempty : p.splitter.buffer = []
  · rw [ask_of_unfinished h, fill_ended_of_nil hempty] at hleads ⊢
    rw [atEnd, if_pos hempty]
    exact ⟨rfl, hleads⟩
  · rw [ask_of_unfinished h, fill_ended_of_ne_nil hempty] at hleads ⊢
    rw [atEnd, if_neg hempty]
    exact ⟨rfl, hleads⟩

/-- Bytes that are there are one answer: the body loses those that are taken, and keeps the rest of
the chunk. -/
theorem leads_bytes (h : p.splitter.finished = false) (first : UInt8) (more : List UInt8)
    (arrivals : List Arrival) (n : Nat) :
    p.Leads (p.ask (.bytes first more)) ⟨.chunk (first :: more) :: arrivals, n⟩
      ⟨putBack (p.splitter.cut (first :: more)).rest arrivals,
        n + ((first :: more).length - (p.splitter.cut (first :: more)).rest.length)⟩
      (p.splitter.fill (.bytes first more)).reply.item?.toList := by
  obtain ⟨used, -, -, hle, htaken, hrest⟩ := p.splitter.exists_taken_fill first more
  refine leads_ask h ?_ (congrArg (n + ·) ?_)
  · rw [htaken, offered_putBack, hrest, ← List.append_assoc, List.take_append_drop]
    rfl
  · rw [htaken, hrest, List.length_drop, List.length_take]
    omega

/-- Asking for bytes is some answers, one after the other. -/
theorem exists_askAll_ask (h : p.splitter.finished = false) (k : Cancellation) (n : Nat)
    (arrivals : List Arrival) :
    ∃ answers, (p.askAll answers).splitter = (p.splitter.ask k n arrivals).splitter ∧
      p.Leads (p.askAll answers) ⟨arrivals, n⟩ (p.splitter.ask k n arrivals).connection.body
        (p.splitter.ask k n arrivals).line.toList := by
  -- a cancellation is not an answer, and each other arrival is one
  induction arrivals generalizing p k n with
  | nil => exact ⟨[.ended], leads_ended h _ rfl rfl⟩
  | cons a arrivals ih =>
    cases a with
    | pending =>
      have hask := ask_of_fill_eq (p := p) (a := .pending) rfl h
      have hleads : p.Leads (p.ask .pending) ⟨.pending :: arrivals, n⟩ ⟨arrivals, n⟩ [] :=
        leads_ask h rfl rfl
      obtain ⟨answers, hsplitter, hnext⟩ := ih (p := p.ask .pending) (hask ▸ h) k n
      rw [hask] at hsplitter hnext hleads
      refine ⟨.pending :: answers, ?_⟩
      rw [askAll_cons, hask]
      exact ⟨hsplitter, hleads.trans hnext⟩
    | cancel reason =>
      obtain ⟨answers, hsplitter, hitems, htaken⟩ := ih h (k.fire reason) n
      exact ⟨answers, hsplitter, hitems, htaken⟩
    | fault fault =>
      have hask := ask_of_fill_eq (p := p) (a := .fault fault) rfl h
      have hsplitter : (p.ask (.fault fault)).splitter = p.splitter := by rw [hask]
      exact ⟨[.fault fault], hsplitter, leads_ask h rfl rfl⟩
    | chunk chunk =>
      cases chunk with
      | nil => exact ⟨[.ended], leads_ended h _ rfl rfl⟩
      | cons first more =>
        have hsplitter : (p.ask (.bytes first more)).splitter =
            (p.splitter.fill (.bytes first more)).splitter := by rw [ask_of_unfinished h]
        have hleads := leads_bytes h first more arrivals n
        rw [Splitter.ask, if_neg (List.cons_ne_nil _ _)]
        dsimp only
        by_cases hcomplete : (p.splitter.cut (first :: more)).complete = true
        · obtain ⟨hreply, hnext⟩ := fill_of_complete hcomplete
          rw [hreply] at hleads
          rw [if_pos hcomplete]
          exact ⟨[.bytes first more], hsplitter.trans hnext, hleads⟩
        · -- nothing is left of the chunk, and the next arrival answers
          obtain ⟨hreply, hnext⟩ := fill_of_not_complete hcomplete
          have hempty : putBack (p.splitter.cut (first :: more)).rest arrivals = arrivals :=
            if_pos (rest_cut_of_not_complete hcomplete)
          have hunfinished : (p.ask (.bytes first more)).splitter.finished = false := by
            rw [hsplitter, hnext, finished_cut, h]
          rw [hreply, hempty] at hleads
          obtain ⟨answers, hrun, hlater⟩ := ih hunfinished k _
          rw [hsplitter, hnext] at hrun hlater
          rw [if_neg hcomplete]
          exact ⟨.bytes first more :: answers, hrun, hleads.trans hlater⟩

/-- A pull is some answers, one after the other. -/
theorem exists_askAll_pull (p : Point) (c : Connection) :
    ∃ answers, (p.askAll answers).splitter = (p.splitter.pull c).splitter ∧
      p.Leads (p.askAll answers) c.body (p.splitter.pull c).connection.body
        (p.splitter.pull c).line.toList := by
  rcases h : p.splitter.finished with _ | _
  · rw [pull_of_unfinished h]
    exact exists_askAll_ask h _ _ _
  · rw [pull_of_finished h]
    exact ⟨[], rfl, .refl p c.body⟩

theorem filterMap_range_succ {α : Type} (f : Nat → Option α) (k : Nat) :
    (List.range (k + 1)).filterMap f =
      (f 0).toList ++ (List.range k).filterMap fun i => f (i + 1) := by
  rw [List.range_succ_eq_map, List.filterMap_cons, List.filterMap_map]
  cases f 0 <;> rfl

/-- Several pulls are some answers, one after the other. -/
theorem exists_askAll_nthPull (p : Point) (c : Connection) (k : Nat) :
    ∃ answers, (p.askAll answers).splitter = (p.splitter.nthPull c k).splitter ∧
      p.Leads (p.askAll answers) c.body (p.splitter.nthPull c k).connection.body
        ((List.range (k + 1)).filterMap fun i => (p.splitter.nthPull c i).line) := by
  induction k generalizing p c with
  | zero =>
    rw [filterMap_range_succ, List.range_zero, List.filterMap_nil, List.append_nil]
    exact p.exists_askAll_pull c
  | succ k ih =>
    obtain ⟨answers, hsplitter, hleads⟩ := p.exists_askAll_pull c
    obtain ⟨answers', hsplitter', hleads'⟩ := ih (p.askAll answers) (p.splitter.pull c).connection
    rw [hsplitter] at hsplitter' hleads'
    refine ⟨answers ++ answers', ?_⟩
    rw [askAll_append, filterMap_range_succ]
    exact ⟨hsplitter', hleads.trans hleads'⟩

end Point

end EventStream
