import EventStream.Proofs.Line.Edges
/-!
# The lines of a body, one after the other

A splitter that starts with a body hands out the lines of what the body brings, in order, and each
time it has taken the bytes through the terminator and no more. There is one exception: where a
chunk ends between a carriage return and a line feed, the line feed stays in the body until the next
pull. When the body has ended it is not asked again.

## Main definitions

* `Splitter.nthPull` — what a pull brings after a number of other pulls
* `Arrival.Torn` — a chunk ends inside the terminator in front of a text
* `Arrival.reach` — how many bytes have been taken once this text is left
* `Splitter.Stands` — a splitter in front of a text that starts behind a terminator

## Main results

* `Stands.pull_row`, `Stands.pull_stop` — a pull brings the first row, or comes to the stop
* `nthPull_of_lined` — pulling brings the lines of a body and takes no byte too many
-/

namespace EventStream

namespace LineEnds

variable {α : Type} {e : LineEnds α} {whole line rest text : List α} {a b : α}

/-- A text starts somewhere in a whole, and not between the two symbols of a terminator. -/
structure Starts (e : LineEnds α) (whole text : List α) : Prop where
  suffix : text <:+ whole
  not_inside : text.head? = some e.lf → ¬ e.cr :: text <:+ whole

/-- In front of a text there is one symbol only. -/
theorem eq_of_cons_suffix (ha : a :: text <:+ whole) (hb : b :: text <:+ whole) : a = b := by
  have hsuffix := List.suffix_of_suffix_length_le ha hb (by simp)
  exact (List.cons.inj (hsuffix.eq_of_length (by simp))).1

theorem Starts.self (whole : List α) : e.Starts whole whole where
  suffix := List.suffix_refl whole
  not_inside := fun _ h => absurd h.length_le (Nat.not_succ_le_self _)

/-- The symbol that ends a line stands in front of what follows. -/
theorem Starts.cons_suffix (h : e.Starts whole (line ++ b :: rest)) : b :: rest <:+ whole :=
  (List.suffix_append line (b :: rest)).trans h.suffix

/-- No carriage return stands in front of a line feed that ends a line of its own. -/
theorem Starts.not_cr_lf_suffix (h : e.Starts whole (line ++ e.lf :: rest))
    (hline : ∀ a ∈ line, ¬ e.Ends a) : ¬ e.cr :: e.lf :: rest <:+ whole := by
  intro hcr
  -- the symbol in front of it is the last one of the line, or comes before the text
  obtain rfl | ⟨front, a, rfl⟩ := List.eq_nil_or_concat line
  · exact h.not_inside rfl hcr
  · rw [List.concat_eq_append] at h hline
    rw [List.append_assoc] at h
    have ha := eq_of_cons_suffix h.cons_suffix hcr
    exact hline a (List.mem_append_right _ List.mem_cons_self) (ha ▸ e.ends_cr)

variable [DecidableEq α]

/-- What a terminator leaves behind starts where the terminator ends. -/
theorem Starts.behind (h : e.Starts whole (line ++ b :: rest)) :
    e.Starts whole (e.behind b rest) := by
  have hsuffix := h.cons_suffix
  by_cases hpair : b = e.cr ∧ rest.head? = some e.lf
  · -- the line feed belongs to the terminator, and no carriage return stands at its place
    obtain ⟨rest, rfl⟩ := List.head?_eq_some_iff.1 hpair.2
    have hlf : e.lf :: rest <:+ whole := (List.suffix_cons _ _).trans hsuffix
    rw [e.behind_eq_tail hpair, List.tail_cons]
    exact ⟨(List.suffix_cons _ _).trans hlf, fun _ hcr => e.cr_ne_lf (eq_of_cons_suffix hcr hlf)⟩
  · rw [e.behind_eq_self hpair]
    exact ⟨(List.suffix_cons _ _).trans hsuffix, fun hhead hcr =>
      hpair ⟨eq_of_cons_suffix hsuffix hcr, hhead⟩⟩

end LineEnds

namespace Arrival

/-- A chunk ends between the carriage return and the line feed in front of this text. -/
def Torn (arrivals : List Arrival) (rest : List UInt8) : Prop :=
  carriageReturn :: lineFeed :: rest <:+ bytes arrivals ∧
    (bytes arrivals).length - rest.length - 1 ∈ edges arrivals

instance (arrivals : List Arrival) (rest : List UInt8) : Decidable (Torn arrivals rest) :=
  inferInstanceAs (Decidable (_ ∧ _))

/-- The number of bytes that have been taken once a line has come and this text is left: all in
front of it, but for a line feed that a chunk has torn off. -/
def reach (arrivals : List Arrival) (rest : List UInt8) : Nat :=
  let count := (bytes arrivals).length - rest.length
  if Torn arrivals rest then count - 1 else count

variable {arrivals : List Arrival} {line rest : List UInt8} {b : UInt8}

/-- The bytes that are taken for a line reach as far as what is left says. -/
theorem through_eq_reach (h : byteEnds.Starts (bytes arrivals) (line ++ b :: rest))
    (hline : ∀ a ∈ line, ¬ byteEnds.Ends a) :
    through arrivals b rest = reach arrivals (byteEnds.behind b rest) := by
  have hsuffix := h.cons_suffix
  by_cases hpair : b = carriageReturn ∧ rest.head? = some lineFeed
  · -- the pair is in front of what is left, so an edge between the two is all that counts
    obtain ⟨rest, rfl⟩ := List.head?_eq_some_iff.1 hpair.2
    have hlength := hsuffix.length_le
    rw [byteEnds.behind_eq_tail hpair, List.tail_cons]
    obtain ⟨rfl, -⟩ := hpair
    simp only [List.length_cons] at hlength
    have hcount : (bytes arrivals).length - (lineFeed :: rest).length =
        (bytes arrivals).length - rest.length - 1 := by
      rw [List.length_cons]
      omega
    dsimp only [through, reach]
    rw [hcount]
    by_cases hedge : (bytes arrivals).length - rest.length - 1 ∈ edges arrivals
    · rw [if_neg fun h => h.2.2 hedge, if_pos ⟨hsuffix, hedge⟩]
    · rw [if_pos ⟨rfl, rfl, hedge⟩, if_neg fun h => hedge h.2]
      omega
  · have hnot : ¬ Torn arrivals rest := by
      rintro ⟨hcr, -⟩
      have hlf : lineFeed :: rest <:+ bytes arrivals := (List.suffix_cons _ _).trans hcr
      obtain rfl := LineEnds.eq_of_cons_suffix hsuffix hlf
      exact h.not_cr_lf_suffix hline hcr
    have hall : ¬ (b = carriageReturn ∧ rest.head? = some lineFeed ∧
        (bytes arrivals).length - rest.length ∉ edges arrivals) := fun h => hpair ⟨h.1, h.2.1⟩
    simp only [byteEnds.behind_eq_self hpair, through, reach, if_neg hnot, if_neg hall]

end Arrival

namespace Splitter

open Arrival

/-- What the pull brings that comes after `k` other pulls. -/
def nthPull (s : Splitter) (c : Connection) : Nat → Pull
  | 0 => s.pull c
  | k + 1 => (s.pull c).splitter.nthPull (s.pull c).connection k

/-- The text is ahead of the splitter and starts behind a terminator, or at the start of the body;
the body has been read so far that some bytes of the original one have been taken. -/
structure Stands (original : Body) (text : List UInt8) (s : Splitter) (body : Body) : Prop where
  ahead : s.Ahead original.content body text
  starts : byteEnds.Starts (bytes original.arrivals) text
  behind : ∃ n, body = original.behind n

theorem stands_start (body : Body) : Stands body (bytes body.arrivals) {} body where
  ahead := ahead_start body
  starts := .self _
  behind := ⟨0, body.behind_zero.symm⟩

variable {original body : Body} {s : Splitter} {c : Connection} {text tail : List UInt8}
  {row : Row UInt8} {rows : List (Row UInt8)}

/-- The number of bytes taken is the number of those that no longer come. -/
theorem Stands.length_bytes (h : Stands original text s body) {n : Nat}
    (hbody : body = original.behind n) :
    n ≤ (bytes original.arrivals).length ∧
      (bytes body.arrivals).length = (bytes original.arrivals).length - n := by
  -- the count of bytes consumed has grown by both
  obtain ⟨taken, htaken, hconsumed, -⟩ := h.ahead.taken
  have hn : body.consumed = original.consumed + n := hbody ▸ rfl
  have hlength : (bytes original.arrivals).length = taken.length + (bytes body.arrivals).length :=
    (congrArg List.length htaken).trans List.length_append
  have hstart : body.consumed = original.consumed + taken.length := hconsumed
  omega

/-- A pull brings the first row, has then read as far as the row reaches, and stands in front of
what follows. -/
theorem Stands.pull_row (h : Stands original text s c.body)
    (hcut : byteEnds.cut text = (row :: rows, tail)) :
    (s.pull c).line = some (readLine s.started row.line) ∧ (s.pull c).splitter.started = true ∧
      (s.pull c).connection.body = original.behind (reach original.arrivals row.rest) ∧
      Stands original row.rest (s.pull c).splitter (s.pull c).connection.body := by
  have hserves := h.ahead.serves_pull
  simp only [Pull.Serves, hcut] at hserves
  obtain ⟨hline, hstarted, -, hahead⟩ := hserves
  obtain ⟨n, hbody⟩ := h.behind
  obtain ⟨hn, hcount⟩ := h.length_bytes hbody
  cases extent_pull (c := c) h.ahead.unfinished with
  | stop htext =>
    -- without a terminator there would be no row
    have hnot : byteEnds.cut text = ([], text) := by
      apply LineEnds.cut_of_forall_not_ends
      rw [h.ahead.text_eq]
      exact List.forall_mem_append.2 ⟨h.ahead.not_ends, htext⟩
    rw [hnot] at hcut
    cases hcut
  | @line line rest b htext hnot hb hleft =>
    -- the symbol that the pull has come to is the one that ends the row
    have hfront := List.forall_mem_append.2 ⟨h.ahead.not_ends, hnot⟩
    have htext' : text = (s.buffer ++ line) ++ b :: rest := by
      rw [h.ahead.text_eq, htext, List.append_assoc]
    have hrow : row.rest = byteEnds.behind b rest := by
      rw [htext', LineEnds.cut_append_cons hfront hb] at hcut
      cases hcut
      rfl
    have hstarts := h.starts
    rw [htext'] at hstarts
    -- what is taken from here on and what was taken before make up the whole way to it
    have hreach : (s.pull c).connection.body =
        original.behind (reach original.arrivals row.rest) := by
      have hlt := length_lt_of_skip_eq htext
      rw [hcount] at hlt
      rw [hbody] at hleft hcount
      rw [hleft, Body.behind_behind, hrow, ← through_eq_reach hstarts hfront]
      exact congrArg original.behind (through_behind hn hcount hlt)
    exact ⟨hline, hstarted, hreach, hahead, hrow ▸ hstarts.behind, _, hreach⟩

/-- Where no row is left, a pull reads the body to its stop and brings the failure or the tail; at
the end of the body it is not asked again. -/
theorem Stands.pull_stop (h : Stands original text s c.body)
    (hcut : byteEnds.cut text = ([], tail)) :
    (s.pull c).connection.body = ⟨past original.arrivals,
        original.consumed + (bytes original.arrivals).length⟩ ∧
      match failure original.arrivals with
      | some stop => (s.pull c).line = some (.error stop)
      | none => (s.pull c).splitter.finished = true ∧
          (s.pull c).line = if tail = [] then none else some (readLine s.started tail) := by
  have hserves := h.ahead.serves_pull
  simp only [Pull.Serves, hcut] at hserves
  obtain ⟨hconsumed, hstop⟩ := hserves
  refine ⟨?_, hstop⟩
  obtain ⟨n, hbody⟩ := h.behind
  obtain ⟨hn, -⟩ := h.length_bytes hbody
  cases extent_pull (c := c) h.ahead.unfinished with
  | @line line rest b htext hnot hb =>
    -- a terminator would make a row
    have hfront := List.forall_mem_append.2 ⟨h.ahead.not_ends, hnot⟩
    rw [h.ahead.text_eq, htext, ← List.append_assoc, LineEnds.cut_append_cons hfront hb] at hcut
    cases hcut
  | stop _ hleft =>
    apply Body.ext
    · rw [hleft, hbody]
      exact past_behind hn
    · exact hconsumed

/-- From a splitter that stands in front of a text, pulling brings the rows of the text and then
comes to the stop. -/
theorem Stands.nthPull (h : Stands original text s c.body)
    (hlined : byteEnds.Lined text rows tail) :
    (∀ k row, rows[k]? = some row →
      (s.nthPull c k).line = some (readLine (s.started || decide (0 < k)) row.line) ∧
      (s.nthPull c k).connection.body = original.behind (reach original.arrivals row.rest)) ∧
    (s.nthPull c rows.length).connection.body = ⟨past original.arrivals,
      original.consumed + (bytes original.arrivals).length⟩ ∧
    match failure original.arrivals with
    | some stop => (s.nthPull c rows.length).line = some (.error stop)
    | none => (s.nthPull c rows.length).splitter.finished = true ∧
        (s.nthPull c rows.length).line = if tail = [] then none
          else some (readLine (s.started || decide (0 < rows.length)) tail) := by
  -- a pull stands in front of the next row, so the rows are counted down with the pulls
  induction hlined generalizing s c with
  | @tail text htext =>
    refine ⟨fun k row hrow => (Option.some_ne_none row hrow.symm).elim, ?_⟩
    have hstop := h.pull_stop (LineEnds.cut_of_forall_not_ends htext)
    simpa only [List.length_nil, Splitter.nthPull, Nat.lt_irrefl, decide_false, Bool.or_false]
      using hstop
  | @line text rest rows tail t htext ht hrest ih =>
    have hcut := (LineEnds.Lined.line t htext ht hrest).cut_eq
    obtain ⟨hline, hstarted, hbody, hstands⟩ := h.pull_row hcut
    obtain ⟨hrows, hleft, hstop⟩ := ih hstands
    refine ⟨?_, hleft, ?_⟩
    · intro k row hrow
      cases k with
      | zero =>
        obtain rfl := Option.some.inj hrow
        simpa [Splitter.nthPull] using ⟨hline, hbody⟩
      | succ k => simpa [Splitter.nthPull, hstarted] using hrows k row hrow
    · simpa [Splitter.nthPull, hstarted] using hstop

/-! ### Behind the end -/

/-- Pulls are counted on from any of them. -/
theorem nthPull_add (s : Splitter) (c : Connection) (m k : Nat) :
    s.nthPull c (m + (k + 1)) =
      (s.nthPull c m).splitter.nthPull (s.nthPull c m).connection k := by
  induction m generalizing s c with
  | zero =>
    rw [Nat.zero_add]
    rfl
  | succ m ih =>
    rw [Nat.add_right_comm]
    exact ih _ _

theorem nthPull_of_finished (h : s.finished = true) (c : Connection) (k : Nat) :
    s.nthPull c k = ⟨none, s, c⟩ := by
  induction k with
  | zero => exact pull_of_finished h c
  | succ k ih => rw [nthPull, pull_of_finished h c, ih]

/-- What a body brings is pulled line by line. Each pull brings the next line, the first one without
a byte order mark, and reads the body up to the end of its terminator; a line feed that a chunk has
torn off its carriage return stays in the body. Behind the last terminator the body is read to its
stop. There a failure is brought as it is; at the end of the body, what is left makes a last line
unless it is empty, and from then on no pull touches a body. -/
theorem nthPull_of_lined (h : byteEnds.Lined (bytes c.body.arrivals) rows tail) :
    (∀ k row, rows[k]? = some row →
      (nthPull {} c k).line = some (readLine (decide (0 < k)) row.line) ∧
      (nthPull {} c k).connection.body = c.body.behind (reach c.body.arrivals row.rest)) ∧
    (nthPull {} c rows.length).connection.body =
      ⟨past c.body.arrivals, c.body.consumed + (bytes c.body.arrivals).length⟩ ∧
    match failure c.body.arrivals with
    | some stop => (nthPull {} c rows.length).line = some (.error stop)
    | none =>
      ((nthPull {} c rows.length).line =
        if tail = [] then none else some (readLine (decide (0 < rows.length)) tail)) ∧
      ∀ n ≥ rows.length, ∀ c',
        (nthPull {} c n).splitter.pull c' = ⟨none, (nthPull {} c n).splitter, c'⟩ := by
  obtain ⟨hrows, hbody, hstop⟩ := (stands_start c.body).nthPull h
  refine ⟨hrows, hbody, ?_⟩
  split
  · next stop hfailure => simpa only [hfailure] using hstop
  · next hfailure =>
    simp only [hfailure] at hstop
    obtain ⟨hfinished, hline⟩ := hstop
    refine ⟨hline, fun n hn c' => pull_of_finished ?_ c'⟩
    -- the pull at the end sets the flag, and the later ones leave it as it is
    obtain ⟨k, rfl⟩ := Nat.exists_eq_add_of_le hn
    cases k with
    | zero => exact hfinished
    | succ k =>
      rw [nthPull_add, nthPull_of_finished hfinished]
      exact hfinished

/-- A chunk ends between the two symbols behind the first line. The line comes without its mark,
the line feed stays in the body, and the next pull passes over it to the last line. -/
theorem nthPull_torn :
    let body : Body := ⟨[.chunk (byteOrderMark ++ [0x61, 0x0d]), .pending, .chunk [0x0a, 0x62]], 0⟩
    byteEnds.Lined (bytes body.arrivals) [⟨byteOrderMark ++ [0x61], [0x62]⟩] [0x62] ∧
      (nthPull {} ⟨body, {}⟩ 0).line = some (.ok "a") ∧
      (nthPull {} ⟨body, {}⟩ 0).connection.body = ⟨[.pending, .chunk [0x0a, 0x62]], 5⟩ ∧
      (nthPull {} ⟨body, {}⟩ 1).line = some (.ok "b") := by
  intro body
  have hlined : byteEnds.Lined (bytes body.arrivals) [⟨byteOrderMark ++ [0x61], [0x62]⟩] [0x62] :=
    LineEnds.lined_iff.2 (by decide)
  obtain ⟨hrows, -, hlast, -⟩ := nthPull_of_lined (c := ⟨body, {}⟩) hlined
  obtain ⟨hline, hbody⟩ := hrows 0 _ rfl
  exact ⟨hlined, hline.trans (congrArg some (Text.read_encode "a")), hbody.trans (by decide),
    hlast.trans (congrArg some (Text.read_encode "b"))⟩

end Splitter

end EventStream
