import EventStream.Proofs.Delivery.Bounded
import EventStream.Proofs.Delivery.EndedLines
import EventStream.Proofs.Event.Padding
/-!
# Comments that keep a connection alive

A server can send comments to keep a connection alive while it has nothing to tell. Wherever a line
has ended, such a comment goes unnoticed: the lines around it are cut and read as before, the
comment says nothing, and what is collected is the same, the error included.

## Main definitions

* `Outcome.upTo` — what is collected of an outcome with a limit

## Main results

* `collect_eq_upTo` — what is collected depends on what the body has to tell and on the limit
* `outcome_insert` — a line that says nothing changes nothing of what a body has to tell
* `ignorable_lines_unnoticed` — padding of any kind between lines, and comments between bytes, leave
  the events as they are
-/

namespace EventStream

open Splitter

/-! ### What a limit leaves of an outcome -/

/-- What is collected where a body has this to tell. A limit that the events meet takes the first of
them and hides the error. -/
def Outcome.upTo (o : Outcome) (maxEvents : Int) : Outcome :=
  if 0 < maxEvents ∧ maxEvents ≤ o.events.length then ⟨o.events.take maxEvents.toNat, none⟩ else o

namespace Connection

variable {c c' : Connection}

theorem collect_eq_upTo {contentType : Option String} (htype : Announces contentType)
    (c : Connection) (maxEvents : Int) :
    (c.collect contentType maxEvents).1 = c.body.outcome.upTo maxEvents := by
  by_cases hpos : 0 < maxEvents
  · obtain ⟨n, rfl⟩ := Int.eq_ofNat_of_zero_le (Int.le_of_lt hpos)
    unfold Outcome.upTo
    split
    · next hle =>
      exact (collect_of_le_length htype (Int.natCast_pos.1 hpos) (Int.ofNat_le.1 hle.2)).1
    · next hle =>
      apply (collect_of_length_lt htype _).1
      exact Nat.lt_of_not_le fun h => hle ⟨hpos, Int.ofNat_le.2 h⟩
  · rw [(collect_unlimited htype (Int.not_lt.1 hpos)).1, Outcome.upTo, if_neg fun h => hpos h.1]

/-- Bodies that have the same to tell are collected alike. -/
theorem collect_congr (h : c'.body.outcome = c.body.outcome) (contentType : Option String)
    (maxEvents : Int) :
    (c'.collect contentType maxEvents).1 = (c.collect contentType maxEvents).1 := by
  by_cases htype : Announces contentType
  · rw [collect_eq_upTo htype, collect_eq_upTo htype, h]
  · rw [collect_of_not_announces htype, collect_of_not_announces htype]

end Connection

/-! ### A line between two others -/

namespace Body

variable {b b' : Body} {reads more : List (Except Fault String)} {line : String}

/-- A line that says nothing changes nothing of what a body has to tell, wherever it comes. -/
theorem outcome_insert (h : b.lineReads = reads ++ more)
    (h' : b'.lineReads = reads ++ .ok line :: more)
    (hline : ∀ d : Draft, d.feed line = (none, d)) : b'.outcome = b.outcome := by
  cases hfirst : (upToFailure reads).2 with
  | some fault =>
    -- the line comes too late to be read
    obtain ⟨hlines, hfailure⟩ := lines_failure_of_some h hfirst
    obtain ⟨hlines', hfailure'⟩ := lines_failure_of_some h' hfirst
    exact outcome_congr (hlines'.trans hlines.symm) (hfailure'.trans hfailure.symm)
  | none =>
    obtain ⟨hlines, hfailure⟩ := lines_failure_of_none h hfirst
    obtain ⟨hlines', hfailure'⟩ := lines_failure_of_none h' hfirst
    apply outcome_congr_feedAll
    · rw [hlines, hlines', upToFailure]
      exact Draft.feedAll_insert (hline _) _
    · rw [hfailure, hfailure', upToFailure]

/-- Lines that have ended are read by themselves, and what follows is read by itself. -/
theorem lineReads_of_parts {front rest : List UInt8} (hparts : byteEnds.Parts front rest)
    (hbytes : Arrival.bytes b.arrivals = front ++ rest) :
    b.lineReads = endedReads front ++
      (rowReads (Arrival.failure b.arrivals) (byteEnds.cut rest).2 true
        (byteEnds.cut rest).1).map Read.line := by
  -- there is a line in front, so what follows is not the start of the body
  obtain ⟨rows, hne, hrows, hlined⟩ :=
    (LineEnds.lined_cut byteEnds front).append hparts (LineEnds.lined_cut byteEnds rest)
  have hlines : (rows ++ (byteEnds.cut rest).1).map Row.line =
      (byteEnds.cut front).1.map Row.line ++ (byteEnds.cut rest).1.map Row.line := by
    rw [List.map_append, hrows]
  have hne' : (byteEnds.cut front).1.map Row.line ≠ [] := by
    rw [← hrows]
    exact mt List.map_eq_nil_iff.1 hne
  rw [lineReads, Content.reads, content, hbytes, hlined.cut_eq, map_line_rowReads,
    map_line_rowReads, hlines, readLines_append, endedReads, List.append_assoc]
  simp [hne, hne']

end Body

/-! ### Comments -/

namespace Text

/-- The line of a comment, with the line feed behind it. -/
theorem encode_comment (comment : String) :
    encode (":" ++ comment ++ "\n") = encode (":" ++ comment) ++ [lineFeed] := by
  rw [encode_eq, encode_eq, String.toList_append, bytes_append]
  rfl

/-- A comment starts with a colon. -/
theorem encode_comment_eq_cons (comment : String) :
    encode (":" ++ comment ++ "\n") = 0x3a :: encode (comment ++ "\n") := by
  rw [String.append_assoc, encode_eq, String.toList_append, bytes_append]
  rfl

variable {comment : String}

theorem not_ends_encode_comment (h : ∀ c ∈ comment.toList, ¬ charEnds.Ends c) :
    ∀ b ∈ encode (":" ++ comment), ¬ byteEnds.Ends b := by
  apply not_ends_of_mem_bytes
  rw [String.toList_append]
  refine List.forall_mem_append.2 ⟨fun c hc => ?_, h⟩
  obtain rfl := List.mem_singleton.1 hc
  decide

end Text

namespace Body

variable {b b' : Body} {front rest : List UInt8} {comment : String}

/-- A comment behind the end of a line goes unnoticed. -/
theorem outcome_comment (hparts : byteEnds.Parts front rest)
    (hcomment : ∀ c ∈ comment.toList, ¬ charEnds.Ends c)
    (hbytes : Arrival.bytes b.arrivals = front ++ rest)
    (hbytes' : Arrival.bytes b'.arrivals =
      front ++ (Text.encode (":" ++ comment ++ "\n") ++ rest))
    (hfailure : Arrival.failure b'.arrivals = Arrival.failure b.arrivals) :
    b'.outcome = b.outcome := by
  -- the colon is no line feed, so a carriage return in front of the comment stands alone
  have hparts' : byteEnds.Parts front (Text.encode (":" ++ comment ++ "\n") ++ rest) := by
    obtain ⟨last, hlast, hends, -⟩ := hparts
    refine ⟨last, hlast, hends, fun _ => ?_⟩
    rw [Text.encode_comment_eq_cons, List.cons_append, List.head?_cons]
    decide
  -- the comment makes one row, and behind it everything is as it would be without
  have hcut : byteEnds.cut (Text.encode (":" ++ comment ++ "\n") ++ rest) =
      (⟨Text.encode (":" ++ comment), rest⟩ :: (byteEnds.cut rest).1, (byteEnds.cut rest).2) := by
    have hbehind : byteEnds.behind lineFeed rest = rest :=
      byteEnds.behind_eq_self fun h => byteEnds.cr_ne_lf h.1.symm
    have hends : byteEnds.Ends lineFeed := byteEnds.ends_lf
    rw [Text.encode_comment, List.append_assoc, List.singleton_append,
      LineEnds.cut_append_cons (Text.not_ends_encode_comment hcomment) hends, hbehind]
  have hreads := lineReads_of_parts hparts' hbytes'
  rw [hcut, hfailure, rowReads, List.map_cons, readLine, if_pos rfl, Text.read_encode] at hreads
  apply outcome_insert (lineReads_of_parts hparts hbytes) hreads
  intro d
  exact Draft.feed_of_ofLine?_eq_none (Field.ofLine?_comment comment)

end Body

/-- Lines that say nothing go unnoticed. Put anywhere between the lines of a stream, they leave its
events as they are. And a comment that is put into the bytes of a body, behind the end of any line,
leaves as they are the events that are collected, with any limit, and the error. -/
theorem ignorable_lines_unnoticed :
    (∀ lines padded : List String, Draft.Padded lines padded →
      Draft.eventsOf padded = Draft.eventsOf lines) ∧
    ∀ (c c' : Connection) (front rest : List UInt8) (comment : String),
      byteEnds.Parts front rest → (∀ x ∈ comment.toList, ¬ charEnds.Ends x) →
      Arrival.bytes c.body.arrivals = front ++ rest →
      Arrival.bytes c'.body.arrivals =
        front ++ (Text.encode (":" ++ comment ++ "\n") ++ rest) →
      Arrival.failure c'.body.arrivals = Arrival.failure c.body.arrivals →
      ∀ contentType maxEvents,
        (c'.collect contentType maxEvents).1 = (c.collect contentType maxEvents).1 := by
  constructor
  · intro lines padded h
    exact h.eventsOf_eq
  · intro c c' front rest comment hparts hcomment hbytes hbytes' hfailure
    exact Connection.collect_congr (Body.outcome_comment hparts hcomment hbytes hbytes' hfailure)

/-- A comment and a second empty line around an event, and a comment that a chunk tears, behind a
carriage return. -/
theorem ignorable_lines_unnoticed_torn_comment :
    Draft.eventsOf ["data: a", ": ping", "", ""] = Draft.eventsOf ["data: a", ""] ∧
    (Connection.collect ⟨⟨[.chunk (Text.encode "data: a\r:pi"), .pending,
        .chunk (Text.encode "ng\ndata: b\n\n")], 0⟩, {}⟩ (some "text/event-stream") 1).1 =
      (Connection.collect ⟨⟨[.chunk (Text.encode "data: a\rdata: b\n\n")], 0⟩, {}⟩
        (some "text/event-stream") 1).1 := by
  have hcomment : Draft.Ignorable ["data: a"] ": ping" := .comment (Field.Holds.comment " ping")
  have hempty : Draft.Ignorable ["data: a", ": ping", ""] "" := .empty (by decide +kernel)
  have hfirst : Draft.Padded ["data: a", ""] (["data: a"] ++ ": ping" :: [""]) :=
    .insert .refl hcomment
  have hpadded : Draft.Padded ["data: a", ""] (["data: a", ": ping", ""] ++ "" :: []) :=
    .insert hfirst hempty
  have hparts : byteEnds.Parts (Text.encode "data: a\r") (Text.encode "data: b\n\n") :=
    ⟨carriageReturn, by decide +kernel, byteEnds.ends_cr, fun _ => by decide +kernel⟩
  have hping : ∀ c ∈ "ping".toList, ¬ charEnds.Ends c := by simp [LineEnds.Ends, charEnds]
  refine ⟨ignorable_lines_unnoticed.1 _ _ hpadded, ?_⟩
  apply ignorable_lines_unnoticed.2 _ _ _ _ "ping" hparts hping
  · decide +kernel
  · decide +kernel
  · rfl

end EventStream
