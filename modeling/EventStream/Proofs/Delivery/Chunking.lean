import EventStream.Proofs.Delivery.EndedLines
/-!
# Chunks do not matter

Two bodies that bring the same bytes and stop in the same way deliver the same, in whatever chunks
the bytes come and however often one has to wait for them. The bytes consumed are the same too, but
for one case: a delivery that stops on a line which ends with a carriage return may or may not have
seen that a line feed follows.

## Main definitions

* `Outcome.StoppedOn` — the delivery stopped on the last of some lines, before the body did
* `Outcome.StoppedOnLine` — the same for the lines that have ended in a text
* `Content.CountsAgree` — two counts of consumed bytes agree up to such a line feed

## Main results

* `exists_stoppedOn_collectReads`, `exists_stoppedOn_deliverReads` — a delivery that leaves some
  text has stopped on the last line in front of it
* `Lined.exists_taken` — the lines that have been read are those that have ended in what was taken
* `Rests.countsAgree` — bodies with the same text left have been read equally far
* `deliveries_independent_of_chunks` — the same content gives the same deliveries
-/

namespace EventStream

open Splitter

/-- With this draft and these events at the start, the delivery has read these lines and stopped on
the last of them. -/
inductive Outcome.StoppedOn (limit : Option Nat) (d : Draft) (events : List Event)
    (reads : List (Except Fault String)) : Outcome → Prop
  /-- The last line completes an event, and with it the limit is reached. -/
  | reached {lines : List String} {line : String} : reads = (lines ++ [line]).map .ok →
      ((d.feedAll lines).2.feed line).1 ≠ none →
      Reached limit (events ++ (d.feedAll (lines ++ [line])).1).length →
      StoppedOn limit d events reads ⟨events ++ (d.feedAll (lines ++ [line])).1, none⟩
  /-- Behind the last line the signal is seen to have fired. -/
  | cancelled {lines : List String} (reason : String) : reads = lines.map .ok →
      StoppedOn limit d events reads ⟨events ++ (d.feedAll lines).1, some (.cancelled reason)⟩
  /-- The last line is not UTF-8. -/
  | invalid {lines : List String} : reads = lines.map .ok ++ [.error .invalidText] →
      StoppedOn limit d events reads ⟨events ++ (d.feedAll lines).1, some (.io .invalidText)⟩

/-- The delivery has stopped on the last of the lines that have ended in a text. -/
def Outcome.StoppedOnLine (o : Outcome) (limit : Option Nat) (text : List UInt8) : Prop :=
  o.StoppedOn limit {} [] (endedReads text)

/-- Two counts of consumed bytes are equal, or they stand on both sides of a line feed right behind
a carriage return. Then these two end the line on which the delivery has stopped. -/
def Content.CountsAgree (whole : Content) (stopped : List UInt8 → Prop) (m n : Nat) : Prop :=
  m = n ∨ ∃ before after,
    whole.bytes = before ++ carriageReturn :: lineFeed :: after ∧
      stopped (before ++ [carriageReturn, lineFeed]) ∧
      (m = whole.start + before.length + 1 ∧ n = whole.start + before.length + 2 ∨
        m = whole.start + before.length + 2 ∧ n = whole.start + before.length + 1)

section Counts

variable {whole : Content} {body body' : Body} {text : List UInt8} {s : Splitter}

/-- Between two lines, either all but the text ahead has been consumed, or a carriage return has
been and the line feed behind it has not. -/
theorem Splitter.Ahead.consumed_cases (h : s.Ahead whole body text) (hbuffer : s.buffer = []) :
    (∃ taken, whole.bytes = taken ++ text ∧ body.consumed = whole.start + taken.length) ∨
      ∃ before, whole.bytes = before ++ carriageReturn :: lineFeed :: text ∧
        body.consumed = whole.start + before.length + 1 := by
  obtain ⟨taken, hbytes, hconsumed, hlast⟩ := h.taken
  have htext := h.text_eq
  rw [hbuffer, List.nil_append] at htext
  by_cases hskip : s.skipsLineFeed = true ∧
      (Arrival.bytes body.arrivals).head? = some lineFeed
  · right
    obtain ⟨before, rfl⟩ := List.getLast?_eq_some_iff.1 (hlast hskip.1)
    obtain ⟨rest, hrest⟩ := List.head?_eq_some_iff.1 hskip.2
    rw [Splitter.skip_eq_tail hskip, hrest, List.tail_cons] at htext
    refine ⟨before, ?_, ?_⟩
    · rw [hbytes, hrest, htext, List.append_assoc, List.singleton_append]
    · rw [hconsumed, List.length_append, List.length_singleton, Nat.add_assoc]
  · left
    rw [Splitter.skip_eq_self hskip] at htext
    exact ⟨taken, by rw [hbytes, htext], hconsumed⟩

theorem Content.CountsAgree.symm {stopped : List UInt8 → Prop} {m n : Nat}
    (h : whole.CountsAgree stopped m n) : whole.CountsAgree stopped n m := by
  rcases h with rfl | ⟨before, after, hbytes, hline, hcounts⟩
  · exact Or.inl rfl
  · exact Or.inr ⟨before, after, hbytes, hline, hcounts.symm.imp And.symm And.symm⟩

/-- One body stands right in front of the text that is left, and the other one line feed before
it. -/
theorem Content.countsAgree_of_pair {stopped : List UInt8 → Prop} {taken before : List UInt8}
    {m n : Nat} (hbytes : whole.bytes = taken ++ text) (hcount : m = whole.start + taken.length)
    (hbytes' : whole.bytes = before ++ carriageReturn :: lineFeed :: text)
    (hcount' : n = whole.start + before.length + 1)
    (hline : stopped (before ++ [carriageReturn, lineFeed])) :
    whole.CountsAgree stopped m n := by
  refine Or.inr ⟨before, text, hbytes', hline, Or.inr ⟨?_, hcount'⟩⟩
  have hlength := congrArg List.length (hbytes.symm.trans hbytes')
  simp only [List.length_append, List.length_cons] at hlength
  omega

/-- Bodies with the same text left have been read equally far, up to a line feed. -/
theorem Content.Rests.countsAgree {rest : Option (List UInt8)} {stopped : List UInt8 → Prop}
    (h : whole.Rests body rest) (h' : whole.Rests body' rest)
    (hstopped : ∀ text, rest = some text → ∃ taken, whole.bytes = taken ++ text ∧ stopped taken) :
    whole.CountsAgree stopped body.consumed body'.consumed := by
  cases rest with
  | none => exact Or.inl (h.trans h'.symm)
  | some text =>
    obtain ⟨all, hall, hline⟩ := hstopped text rfl
    -- a pair of terminators right in front of the text that is left is the end of what was taken
    have hpair {before : List UInt8}
        (hbytes : whole.bytes = before ++ carriageReturn :: lineFeed :: text) :
        stopped (before ++ [carriageReturn, lineFeed]) := by
      have hsame : all ++ text = before ++ [carriageReturn, lineFeed] ++ text := by
        rw [← hall, hbytes, List.append_assoc, List.cons_append, List.singleton_append]
      rwa [← List.append_cancel_right hsame]
    obtain ⟨s, hbuffer, hahead⟩ := h
    obtain ⟨s', hbuffer', hahead'⟩ := h'
    -- each body stands right in front of the text that is left, or one line feed before it
    rcases hahead.consumed_cases hbuffer with ⟨taken, hbytes, hcount⟩ | ⟨before, hbytes, hcount⟩ <;>
      rcases hahead'.consumed_cases hbuffer' with
        ⟨taken', hbytes', hcount'⟩ | ⟨before', hbytes', hcount'⟩
    · left
      have hsame := List.append_cancel_right (hbytes.symm.trans hbytes')
      rw [hcount, hcount', hsame]
    · exact countsAgree_of_pair hbytes hcount hbytes' hcount' (hpair hbytes')
    · exact (countsAgree_of_pair hbytes' hcount' hbytes hcount (hpair hbytes)).symm
    · left
      have hsame := List.append_cancel_right (hbytes.symm.trans hbytes')
      rw [hcount, hcount', hsame]

end Counts

section Stops

variable {limit : Option Nat} {handler : Handler} {reads : List Read} {text rest : List UInt8}
  {d : Draft} {events : List Event}

/-- A line in front that the delivery has gone past. -/
theorem Outcome.StoppedOn.cons {line : String} {lines : List (Except Fault String)} {o : Outcome}
    (h : o.StoppedOn limit (d.feed line).2 (events ++ (d.feed line).1.toList) lines) :
    o.StoppedOn limit d events (.ok line :: lines) := by
  cases h with
  | @reached before last hreads hcompletes hreached =>
    have hcons : .ok line :: lines = (line :: before ++ [last]).map .ok := by rw [hreads]; rfl
    rw [List.append_assoc] at hreached ⊢
    exact .reached hcons hcompletes hreached
  | @cancelled before reason hreads =>
    have hcons : .ok line :: lines = (line :: before).map .ok := by rw [hreads]; rfl
    rw [List.append_assoc]
    exact .cancelled reason hcons
  | @invalid before hreads =>
    have hcons : .ok line :: lines = (line :: before).map .ok ++ [.error .invalidText] := by
      rw [hreads]
      rfl
    rw [List.append_assoc]
    exact .invalid hcons

/-- No line has been read, and the signal is seen to have fired. -/
theorem Outcome.stoppedOn_nil (limit : Option Nat) (d : Draft) (events : List Event)
    (reason : String) : Outcome.StoppedOn limit d events [] ⟨events, some (.cancelled reason)⟩ := by
  have h : Outcome.StoppedOn limit d events [] ⟨events ++ (d.feedAll []).1, _⟩ :=
    .cancelled reason rfl
  rwa [Draft.feedAll, List.append_nil] at h

/-- The first line is not UTF-8. -/
theorem Outcome.stoppedOn_invalid (limit : Option Nat) (d : Draft) (events : List Event) :
    Outcome.StoppedOn limit d events [.error .invalidText] ⟨events, some (.io .invalidText)⟩ := by
  have h : Outcome.StoppedOn limit d events [.error .invalidText]
      ⟨events ++ (d.feedAll []).1, _⟩ := .invalid rfl
  rwa [Draft.feedAll, List.append_nil] at h

/-- The text that is left behind some reads, given what is left in front of them. -/
def restBehind (before : Option (List UInt8)) (reads : List Read) : Option (List UInt8) :=
  reads.foldl (fun _ read => read.rest) before

theorem restBehind_eq_some {before : Option (List UInt8)}
    (h : restBehind before reads = some rest) :
    before = some rest ∨ ∃ read ∈ reads, read.rest = some rest := by
  induction reads generalizing before with
  | nil => exact Or.inl h
  | cons read reads ih =>
    right
    rcases ih h with hread | ⟨read', hmem, hread'⟩
    · exact ⟨read, List.mem_cons_self, hread⟩
    · exact ⟨read', List.mem_cons_of_mem _ hmem, hread'⟩

/-- Collecting that leaves some text has stopped on the last line in front of it. -/
theorem exists_stoppedOn_collectReads (h : LinesFail reads) (before : Option (List UInt8))
    (d : Draft) (events : List Event) (hrest : (collectReads limit reads d events).2 = some rest) :
    ∃ front back, reads = front ++ back ∧ restBehind before front = some rest ∧
      (collectReads limit reads d events).1.StoppedOn limit d events (front.map Read.line) := by
  -- each line that the delivery goes past stands in front of those on which it stops
  induction reads generalizing before d events with
  | nil => cases hrest
  | cons read reads ih =>
    rcases read with ⟨fault | line, next⟩
    · -- a failure that leaves text behind is that of a line
      obtain rfl : next = some rest := hrest
      obtain rfl := h.fault_eq
      exact ⟨[⟨.error .invalidText, some rest⟩], reads, rfl, rfl, Outcome.stoppedOn_invalid _ _ _⟩
    · rcases hfeed : (d.feed line).1 with _ | event
      · rw [collectReads_of_none hfeed] at hrest ⊢
        obtain ⟨front, back, rfl, hbehind, hstopped⟩ := ih h.tail next _ events hrest
        refine ⟨⟨.ok line, next⟩ :: front, back, rfl, hbehind, Outcome.StoppedOn.cons ?_⟩
        rwa [hfeed, Option.toList_none, List.append_nil]
      · by_cases hreached : Reached limit (events ++ [event]).length
        · rw [collectReads_of_reached hfeed hreached] at hrest ⊢
          obtain rfl : next = some rest := hrest
          refine ⟨[⟨.ok line, some rest⟩], reads, rfl, rfl, ?_⟩
          have hevents : (d.feedAll ([] ++ [line])).1 = [event] := by
            simp [Draft.feedAll, hfeed]
          rw [← hevents] at hreached ⊢
          exact .reached rfl (by simp [Draft.feedAll, hfeed]) hreached
        · rw [collectReads_of_not_reached hfeed hreached] at hrest ⊢
          obtain ⟨front, back, rfl, hbehind, hstopped⟩ := ih h.tail next _ _ hrest
          refine ⟨⟨.ok line, next⟩ :: front, back, rfl, hbehind, Outcome.StoppedOn.cons ?_⟩
          rwa [hfeed, Option.toList_some]

/-- Delivering that leaves some text has stopped on the last line in front of it, if there is
one. -/
theorem exists_stoppedOn_deliverReads (h : LinesFail reads) (k : Cancellation)
    (before : Option (List UInt8)) (d : Draft) (events : List Event)
    (hrest : (deliverReads handler reads k before d events).2.2 = some rest) :
    ∃ front back, reads = front ++ back ∧ restBehind before front = some rest ∧
      (deliverReads handler reads k before d events).1.StoppedOn none d events
        (front.map Read.line) := by
  induction reads generalizing k before d events with
  | nil =>
    rcases hcheck : k.check.1 with _ | reason
    · rw [deliverReads_nil hcheck] at hrest
      cases hrest
    · rw [deliverReads_of_cancelled hcheck] at hrest ⊢
      exact ⟨[], [], rfl, hrest, Outcome.stoppedOn_nil _ _ _ reason⟩
  | cons read reads ih =>
    rcases hcheck : k.check.1 with _ | reason
    · rcases read with ⟨fault | line, next⟩
      · rw [deliverReads_error hcheck] at hrest ⊢
        obtain rfl : next = some rest := hrest
        obtain rfl := h.fault_eq
        exact ⟨[⟨.error .invalidText, some rest⟩], reads, rfl, rfl,
          Outcome.stoppedOn_invalid _ _ _⟩
      · rw [deliverReads_ok hcheck] at hrest ⊢
        obtain ⟨front, back, rfl, hbehind, hstopped⟩ := ih h.tail _ next _ _ hrest
        exact ⟨⟨.ok line, next⟩ :: front, back, rfl, hbehind, hstopped.cons⟩
    · rw [deliverReads_of_cancelled hcheck] at hrest ⊢
      exact ⟨[], read :: reads, rfl, hrest, Outcome.stoppedOn_nil _ _ _ reason⟩

/-- The reads in front of some text that is left are those of the lines that have ended in what was
taken. -/
theorem LineEnds.Lined.exists_taken {rows : List (Row UInt8)} {tail : List UInt8}
    (h : byteEnds.Lined text rows tail) {failure : Option Fault} {started : Bool}
    {front back : List Read} (hreads : rowReads failure tail started rows = front ++ back)
    (hrest : restBehind (some text) front = some rest) :
    ∃ taken rows', text = taken ++ rest ∧ byteEnds.Lined taken rows' [] ∧
      readLines started (rows'.map Row.line) = front.map Read.line := by
  -- on the lines of the text: a read in front takes the first of them, with its terminator
  induction h generalizing started front with
  | @tail text htext =>
    cases front with
    | nil =>
      obtain rfl := Option.some.inj hrest
      exact ⟨[], [], rfl, .tail fun _ ha => absurd ha List.not_mem_nil, rfl⟩
    | cons read front =>
      -- no text is left behind what is read at the stop
      exfalso
      have hstop : ∀ read' ∈ read :: front, read'.rest = none := fun read' hmem =>
        rest_of_mem_stopReads (hreads ▸ List.mem_append_left back hmem)
      have hfront : restBehind read.rest front = some rest := hrest
      rcases restBehind_eq_some hfront with hread | ⟨read', hmem, hread'⟩
      · exact Option.some_ne_none rest (hread.symm.trans (hstop read List.mem_cons_self))
      · have hnone := hstop read' (List.mem_cons_of_mem _ hmem)
        exact Option.some_ne_none rest (hread'.symm.trans hnone)
  | @line line text rows tail t hline ht hrows ih =>
    cases front with
    | nil =>
      obtain rfl := Option.some.inj hrest
      exact ⟨[], [], rfl, .tail fun _ ha => absurd ha List.not_mem_nil, rfl⟩
    | cons read front =>
      obtain ⟨rfl, hback⟩ := List.cons.inj hreads
      obtain ⟨taken, rows', rfl, hlined, hlines⟩ := ih hback hrest
      refine ⟨line ++ byteEnds.symbols t ++ taken, ⟨line, taken⟩ :: rows', ?_,
        hlined.cons_front t hline ht, ?_⟩
      · simp only [List.append_assoc]
      · rw [List.map_cons, readLines, hlines]
        rfl

/-- A delivery that has stopped on the last of some reads has stopped on the last of the lines that
have ended in what was taken. -/
theorem exists_stoppedOnLine {whole : Content} {front back : List Read} {o : Outcome}
    (hreads : whole.reads false text = front ++ back)
    (hrest : restBehind (some text) front = some rest)
    (h : o.StoppedOn limit {} [] (front.map Read.line)) :
    ∃ taken, text = taken ++ rest ∧ o.StoppedOnLine limit taken := by
  obtain ⟨taken, rows, htext, hlined, hlines⟩ :=
    (LineEnds.lined_cut byteEnds text).exists_taken hreads hrest
  refine ⟨taken, htext, ?_⟩
  rwa [Outcome.StoppedOnLine, endedReads, hlined.cut_eq, hlines]

end Stops

/-- Whatever brings the same bytes and stops in the same way is collected alike, and delivered alike
to every handler; the bodies are then read equally far, up to the line feed of a pair that ends the
line on which the delivery stopped. -/
theorem deliveries_independent_of_chunks {arrivals arrivals' : List Arrival} {text : List UInt8}
    {stop : Option Fault} (h : Arrival.Bring arrivals text stop)
    (h' : Arrival.Bring arrivals' text stop) {contentType : Option String}
    (htype : Announces contentType) (n : Nat) (k : Cancellation) (maxEvents : Int)
    (handler : Handler) :
    ((Connection.collect ⟨⟨arrivals, n⟩, k⟩ contentType maxEvents).1 =
        (Connection.collect ⟨⟨arrivals', n⟩, k⟩ contentType maxEvents).1 ∧
      Content.CountsAgree ⟨text, stop, n⟩
        ((Connection.collect ⟨⟨arrivals, n⟩, k⟩ contentType maxEvents).1.StoppedOnLine
          (limitOf maxEvents))
        (Connection.collect ⟨⟨arrivals, n⟩, k⟩ contentType maxEvents).2.body.consumed
        (Connection.collect ⟨⟨arrivals', n⟩, k⟩ contentType maxEvents).2.body.consumed) ∧
    ((Connection.deliver ⟨⟨arrivals, n⟩, k⟩ contentType handler).1 =
        (Connection.deliver ⟨⟨arrivals', n⟩, k⟩ contentType handler).1 ∧
      Content.CountsAgree ⟨text, stop, n⟩
        ((Connection.deliver ⟨⟨arrivals, n⟩, k⟩ contentType handler).1.StoppedOnLine none)
        (Connection.deliver ⟨⟨arrivals, n⟩, k⟩ contentType handler).2.body.consumed
        (Connection.deliver ⟨⟨arrivals', n⟩, k⟩ contentType handler).2.body.consumed) := by
  obtain ⟨rfl, rfl, hquiet⟩ := h
  obtain ⟨hbytes, hfailure, hquiet'⟩ := h'
  -- both bodies have the same content, and a delivery depends on nothing else
  have hcontent : Body.content ⟨arrivals', n⟩ = Body.content ⟨arrivals, n⟩ := by
    rw [Body.content, Body.content, hbytes, hfailure]
  constructor
  · obtain ⟨houtcome, hrests⟩ :=
      Connection.collect_of_announces ⟨⟨arrivals, n⟩, k⟩ htype maxEvents
    obtain ⟨houtcome', hrests'⟩ :=
      Connection.collect_of_announces ⟨⟨arrivals', n⟩, k⟩ htype maxEvents
    simp only [hcontent, hbytes] at houtcome' hrests'
    refine ⟨houtcome.trans houtcome'.symm, hrests.countsAgree hrests' fun rest hrest => ?_⟩
    obtain ⟨front, back, hreads, hbehind, hstopped⟩ :=
      exists_stoppedOn_collectReads (linesFail_reads _ _ _) (some _) _ _ hrest
    rw [houtcome]
    exact exists_stoppedOnLine hreads hbehind hstopped
  · obtain ⟨houtcome, -, hrests⟩ :=
      Connection.deliver_of_announces ⟨⟨arrivals, n⟩, k⟩ htype handler hquiet
    obtain ⟨houtcome', -, hrests'⟩ :=
      Connection.deliver_of_announces ⟨⟨arrivals', n⟩, k⟩ htype handler hquiet'
    simp only [hcontent, hbytes] at houtcome' hrests'
    refine ⟨houtcome.trans houtcome'.symm, hrests.countsAgree hrests' fun rest hrest => ?_⟩
    obtain ⟨front, back, hreads, hbehind, hstopped⟩ :=
      exists_stoppedOn_deliverReads (linesFail_reads _ _ _) _ _ _ _ hrest
    rw [houtcome]
    exact exists_stoppedOnLine hreads hbehind hstopped

/-- A pair of terminators in one chunk and the same pair torn apart, with a limit of one event. -/
theorem deliveries_independent_of_chunks_torn_pair :
    Arrival.Bring [.chunk (Text.encode "data: a\r\n\r\nx")] (Text.encode "data: a\r\n\r\nx") none ∧
    Arrival.Bring
      [.chunk (Text.encode "data: a\r\n\r"), .pending, .chunk (Text.encode "\nx")]
      (Text.encode "data: a\r\n\r\nx") none ∧
    Announces (some "text/event-stream") ∧
    (Connection.collect ⟨⟨[.chunk (Text.encode "data: a\r\n\r\nx")], 0⟩, {}⟩
        (some "text/event-stream") 1).1 =
      (Connection.collect
        ⟨⟨[.chunk (Text.encode "data: a\r\n\r"), .pending, .chunk (Text.encode "\nx")], 0⟩, {}⟩
        (some "text/event-stream") 1).1 := by
  have h : Arrival.Bring [.chunk (Text.encode "data: a\r\n\r\nx")]
      (Text.encode "data: a\r\n\r\nx") none := by decide +kernel
  have h' : Arrival.Bring
      [.chunk (Text.encode "data: a\r\n\r"), .pending, .chunk (Text.encode "\nx")]
      (Text.encode "data: a\r\n\r\nx") none := by decide +kernel
  have htype : Announces (some "text/event-stream") := by decide +kernel
  exact ⟨h, h', htype, (deliveries_independent_of_chunks h h' htype 0 {} 1 fun _ => []).1.1⟩

end EventStream
