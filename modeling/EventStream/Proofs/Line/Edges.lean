import EventStream.Proofs.Line.Position
/-!
# Where chunks end

A splitter cannot look behind the end of a chunk. So how far a body is read for a line depends on
where its chunks end: if a chunk ends between the two symbols of a terminator, the second one stays
in the body for the time being. Where the body stops, it has been read to its end, and nothing that
comes behind the stop has been touched.

## Main definitions

* `Arrival.edges` — the numbers of bytes behind which a chunk ends
* `Arrival.past` — what is left behind the first stop
* `Arrival.through` — the number of bytes that are taken for a line
* `Pull.Extent` — how far a pull reads a body

## Main results

* `mem_edges_behind`, `past_behind` — what is left of these behind some bytes
* `extent_pull` — a pull reads the body through the terminator of a line, or to the stop
* `exists_pull_eq_behind` — behind the terminator of a line nothing more has been asked
-/

namespace EventStream

namespace Arrival

/-- The numbers of bytes behind which a chunk ends, before the first stop. -/
def edges : List Arrival → List Nat
  | [] => []
  | .chunk piece :: arrivals =>
    if piece = [] then [] else piece.length :: (edges arrivals).map (piece.length + ·)
  | .fault _ :: _ => []
  | .pending :: arrivals => edges arrivals
  | .cancel _ :: arrivals => edges arrivals

/-- What is left behind the first stop. -/
def past : List Arrival → List Arrival
  | [] => []
  | .chunk piece :: arrivals => if piece = [] then arrivals else past arrivals
  | .fault _ :: arrivals => arrivals
  | .pending :: arrivals => past arrivals
  | .cancel _ :: arrivals => past arrivals

/-- The number of bytes that are taken for a line which ends with the symbol in front of `rest`. A
line feed behind a carriage return is taken along unless a chunk ends between the two. -/
def through (arrivals : List Arrival) (b : UInt8) (rest : List UInt8) : Nat :=
  let count := (bytes arrivals).length - rest.length
  if b = carriageReturn ∧ rest.head? = some lineFeed ∧ count ∉ edges arrivals then count + 1
  else count

variable {piece rest : List UInt8} {arrivals : List Arrival} {b : UInt8} {m n : Nat}

theorem past_chunk (h : piece ≠ []) (arrivals : List Arrival) :
    past (.chunk piece :: arrivals) = past arrivals := by
  rw [past, if_neg h]

/-- A chunk in front adds its end, and moves the ends of the others. -/
theorem mem_edges_chunk (h : piece ≠ []) :
    n ∈ edges (.chunk piece :: arrivals) ↔
      n = piece.length ∨ ∃ m ∈ edges arrivals, piece.length + m = n := by
  rw [edges, if_neg h, List.mem_cons, List.mem_map]

/-- Behind a chunk, the others end where they ended before. -/
theorem add_mem_edges_chunk (h : piece ≠ []) (hm : 0 < m) :
    piece.length + m ∈ edges (.chunk piece :: arrivals) ↔ m ∈ edges arrivals := by
  rw [mem_edges_chunk h]
  constructor
  · rintro (hfirst | ⟨e, he, hsum⟩)
    · omega
    · rwa [← Nat.add_left_cancel hsum]
  · intro hmem
    exact Or.inr ⟨m, hmem, rfl⟩

/-- Inside a chunk none ends. -/
theorem notMem_edges_chunk (h : n < piece.length) : n ∉ edges (.chunk piece :: arrivals) := by
  have hne : piece ≠ [] := List.length_pos_iff.1 (Nat.zero_lt_of_lt h)
  rw [mem_edges_chunk hne]
  rintro (rfl | ⟨m, -, rfl⟩) <;> omega

/-! ### Behind some bytes -/

/-- Taking bytes that come before the stop passes what brings none, and ends inside a chunk or goes
on behind it. -/
@[elab_as_elim]
theorem behind_induction {motive : Nat → List Arrival → Prop}
    (zero : ∀ arrivals, motive 0 arrivals)
    (pending : ∀ {n arrivals}, 0 < n → motive n arrivals → motive n (.pending :: arrivals))
    (cancel : ∀ {n arrivals} (reason : String), 0 < n → motive n arrivals →
      motive n (.cancel reason :: arrivals))
    (inside : ∀ {n piece arrivals}, 0 < n → n < piece.length →
      motive n (.chunk piece :: arrivals))
    (beyond : ∀ {n piece arrivals}, 0 < n → piece ≠ [] → piece.length ≤ n →
      motive (n - piece.length) arrivals → motive n (.chunk piece :: arrivals))
    (hn : n ≤ (bytes arrivals).length) : motive n arrivals := by
  induction arrivals generalizing n with
  | nil =>
    obtain rfl := Nat.le_zero.1 hn
    exact zero []
  | cons a arrivals ih =>
    obtain rfl | hpos := Nat.eq_zero_or_pos n
    · exact zero _
    cases a with
    | pending => exact pending hpos (ih hn)
    | cancel reason => exact cancel reason hpos (ih hn)
    | fault fault => exact absurd hn (Nat.not_le.2 hpos)
    | chunk piece =>
      by_cases hempty : piece = []
      · rw [bytes, if_pos hempty] at hn
        exact absurd hn (Nat.not_le.2 hpos)
      · rw [bytes_chunk hempty, List.length_append] at hn
        by_cases hlt : n < piece.length
        · exact inside hpos hlt
        · exact beyond hpos hempty (Nat.le_of_not_lt hlt) (ih (by omega))

private theorem drop_ne_nil (h : n < piece.length) : piece.drop n ≠ [] := by
  rw [ne_eq, List.drop_eq_nil_iff]
  exact Nat.not_le.2 h

/-- Taking bytes moves the ends of the chunks that are left. -/
theorem mem_edges_behind (hn : n ≤ (bytes arrivals).length) (hm : 0 < m) :
    m ∈ edges (behind n arrivals) ↔ n + m ∈ edges arrivals := by
  refine behind_induction ?zero ?pending ?cancel ?inside ?beyond hn
  case zero =>
    intro arrivals
    rw [behind_zero, Nat.zero_add]
  case pending =>
    intro n arrivals hpos ih
    rwa [behind_pending hpos]
  case cancel =>
    intro n arrivals reason hpos ih
    rwa [behind_cancel hpos]
  case inside =>
    -- the chunk is shorter by the bytes taken, and ends at the same place
    intro n piece arrivals hpos hlt
    have hne : piece ≠ [] := List.length_pos_iff.1 (Nat.zero_lt_of_lt hlt)
    rw [behind_chunk_of_lt hpos hlt, mem_edges_chunk (drop_ne_nil hlt), mem_edges_chunk hne,
      List.length_drop]
    apply or_congr
    · omega
    · apply exists_congr
      intro e
      apply and_congr_right'
      omega
  case beyond =>
    -- the chunk is gone, and the place lies behind it
    intro n piece arrivals hpos hne hle ih
    have hsplit : n + m = piece.length + (n - piece.length + m) := by omega
    rw [behind_chunk_of_le hpos hle, ih, hsplit, add_mem_edges_chunk hne (by omega)]

/-- Taking bytes leaves what comes behind the stop. -/
theorem past_behind (hn : n ≤ (bytes arrivals).length) :
    past (behind n arrivals) = past arrivals := by
  refine behind_induction ?zero ?pending ?cancel ?inside ?beyond hn
  case zero =>
    intro arrivals
    rw [behind_zero]
  case pending =>
    intro n arrivals hpos ih
    rwa [behind_pending hpos]
  case cancel =>
    intro n arrivals reason hpos ih
    rwa [behind_cancel hpos]
  case inside =>
    intro n piece arrivals hpos hlt
    have hne := List.length_pos_iff.1 (Nat.zero_lt_of_lt hlt)
    rw [behind_chunk_of_lt hpos hlt, past_chunk (drop_ne_nil hlt), past_chunk hne]
  case beyond =>
    intro n piece arrivals hpos hne hle ih
    rw [behind_chunk_of_le hpos hle, ih, past_chunk hne]

/-! ### The bytes of one line -/

/-- For a line that goes on behind a chunk, the whole chunk is taken, and then what is taken of the
others. -/
theorem through_chunk (h : piece ≠ []) (hrest : rest.length < (bytes arrivals).length) :
    through (.chunk piece :: arrivals) b rest = piece.length + through arrivals b rest := by
  have hcount : (bytes (.chunk piece :: arrivals)).length - rest.length =
      piece.length + ((bytes arrivals).length - rest.length) := by
    rw [bytes_chunk h, List.length_append]
    omega
  simp only [through, hcount, add_mem_edges_chunk h (Nat.sub_pos_of_lt hrest)]
  split <;> omega

/-- The same behind some bytes. -/
theorem through_behind (hn : n ≤ (bytes arrivals).length)
    (hcount : (bytes (behind n arrivals)).length = (bytes arrivals).length - n)
    (hrest : rest.length < (bytes arrivals).length - n) :
    n + through (behind n arrivals) b rest = through arrivals b rest := by
  have hsplit : (bytes arrivals).length - rest.length =
      n + ((bytes arrivals).length - n - rest.length) := by omega
  simp only [through, hcount, hsplit, mem_edges_behind hn (Nat.sub_pos_of_lt hrest)]
  split <;> omega

theorem through_pos (hrest : rest.length < (bytes arrivals).length) :
    0 < through arrivals b rest := by
  have hpos := Nat.sub_pos_of_lt hrest
  dsimp only [through]
  split <;> omega

end Arrival

namespace Splitter

open Arrival

variable {s : Splitter} {arrivals : List Arrival} {line rest chunk : List UInt8} {b : UInt8}

theorem length_lt_of_skip_eq (h : s.skip chunk = line ++ b :: rest) :
    rest.length < chunk.length := by
  have hle := length_skip_le s chunk
  rw [h, List.length_append, List.length_cons] at hle
  omega

/-- What is taken from a chunk for a line that ends in it. The end of the chunk decides whether a
line feed behind a carriage return can be seen. -/
theorem through_chunk_append (hlt : rest.length < chunk.length) (arrivals : List Arrival) :
    through (.chunk chunk :: arrivals) b (rest ++ bytes arrivals) =
      chunk.length - (byteEnds.behind b rest).length := by
  have hne : chunk ≠ [] := List.length_pos_iff.1 (Nat.zero_lt_of_lt hlt)
  have hcount : (bytes (.chunk chunk :: arrivals)).length - (rest ++ bytes arrivals).length =
      chunk.length - rest.length := by
    rw [bytes_chunk hne, List.length_append, List.length_append]
    omega
  simp only [through, hcount]
  cases rest with
  | nil =>
    have hedge : chunk.length ∈ edges (.chunk chunk :: arrivals) :=
      (mem_edges_chunk hne).2 (Or.inl rfl)
    rw [if_neg fun h => h.2.2 hedge,
      byteEnds.behind_eq_self fun h => Option.some_ne_none _ h.2.symm]
  | cons c rest =>
    have hinside : chunk.length - (c :: rest).length ∉ edges (.chunk chunk :: arrivals) := by
      apply notMem_edges_chunk
      rw [List.length_cons]
      omega
    by_cases hpair : b = carriageReturn ∧ some c = some lineFeed
    · rw [if_pos ⟨hpair.1, hpair.2, hinside⟩, byteEnds.behind_eq_tail hpair]
      simp only [List.length_cons, List.tail_cons] at hlt ⊢
      omega
    · rw [if_neg fun h => hpair ⟨h.1, h.2.1⟩, byteEnds.behind_eq_self hpair]

/-- A line that ends in a chunk is taken from it, and what is left of the chunk is put back. -/
theorem putBack_eq_behind (hchunk : s.skip chunk = line ++ b :: rest) (hb : byteEnds.Ends b)
    (arrivals : List Arrival) (n : Nat) :
    Body.mk (putBack (byteEnds.behind b rest) arrivals)
        (n + (chunk.length - (byteEnds.behind b rest).length)) =
      Body.behind ⟨.chunk chunk :: arrivals, n⟩
        (through (.chunk chunk :: arrivals) b (rest ++ bytes arrivals)) := by
  have hlt := length_lt_of_skip_eq hchunk
  obtain ⟨front, hfront, -⟩ := exists_append_behind hchunk hb
  have hlength : chunk.length - (byteEnds.behind b rest).length = front.length := by
    have hsum := congrArg List.length hfront
    rw [List.length_append] at hsum
    omega
  have hne : front ≠ [] := by
    rintro rfl
    have hbehind : (byteEnds.behind b rest).length ≤ rest.length := by
      unfold LineEnds.behind
      split <;> simp
    rw [hfront, List.nil_append] at hlt
    omega
  have hbehind := behind_eq_putBack hne (byteEnds.behind b rest) arrivals
  rw [← hfront] at hbehind
  rw [through_chunk_append hlt, hlength, Body.behind, hbehind]

theorem finished_atEnd (s : Splitter) (c : Connection) : (s.atEnd c).splitter.finished = true := by
  unfold atEnd
  split <;> rfl

theorem connection_atEnd (s : Splitter) (c : Connection) : (s.atEnd c).connection = c := by
  unfold atEnd
  split <;> rfl

end Splitter

/-- How far a pull reads a body: through the terminator of a line, or to the stop. A line that is
handed out at the stop is the last one. -/
inductive Pull.Extent (s : Splitter) (body : Body) (p : Pull) : Prop
  | line {line rest : List UInt8} {b : UInt8} :
      s.skip (Arrival.bytes body.arrivals) = line ++ b :: rest →
      (∀ a ∈ line, ¬ byteEnds.Ends a) → byteEnds.Ends b →
      p.connection.body = body.behind (Arrival.through body.arrivals b rest) → Extent s body p
  | stop : (∀ b ∈ s.skip (Arrival.bytes body.arrivals), ¬ byteEnds.Ends b) →
      p.connection.body =
        ⟨Arrival.past body.arrivals, body.consumed + (Arrival.bytes body.arrivals).length⟩ →
      (∀ line, p.line = some (.ok line) → p.splitter.finished = true) → Extent s body p

namespace Pull.Extent

open Arrival

variable {s : Splitter} {p : Pull} {a : Arrival} {arrivals : List Arrival} {piece : List UInt8}
  {n : Nat}

/-- An arrival that brings nothing and stops nothing is passed. -/
theorem cons (h : Extent s ⟨arrivals, n⟩ p) (hbytes : bytes (a :: arrivals) = bytes arrivals)
    (hedges : edges (a :: arrivals) = edges arrivals) (hpast : past (a :: arrivals) = past arrivals)
    (hbehind : ∀ {m}, 0 < m → behind m (a :: arrivals) = behind m arrivals) :
    Extent s ⟨a :: arrivals, n⟩ p := by
  cases h with
  | @line line rest b htext hline hb hbody =>
    have hpos := through_pos (b := b) (Splitter.length_lt_of_skip_eq htext)
    refine .line (hbytes ▸ htext) hline hb (hbody.trans ?_)
    simp only [Body.behind, through, hbytes, hedges] at hpos ⊢
    rw [hbehind hpos]
  | stop htext hbody hlast =>
    refine .stop (hbytes ▸ htext) (hbody.trans ?_) hlast
    simp only [hbytes, hpast]

/-- A chunk without a terminator is taken as a whole. -/
theorem chunk (hne : piece ≠ []) (hpiece : ∀ b ∈ s.skip piece, ¬ byteEnds.Ends b)
    (h : Extent (s.cut piece).splitter ⟨arrivals, n + piece.length⟩ p) :
    Extent s ⟨.chunk piece :: arrivals, n⟩ p := by
  have hskip : (s.cut piece).splitter.skip (bytes arrivals) = bytes arrivals := by
    rw [Splitter.cut_of_forall_not_ends hpiece]
    exact Splitter.skip_of_skipsLineFeed_eq_false rfl _
  have htext : s.skip (bytes (.chunk piece :: arrivals)) = s.skip piece ++ bytes arrivals := by
    rw [bytes_chunk hne, Splitter.skip_append hne]
  cases h with
  | @line line rest b hrest hline hb hbody =>
    rw [hskip] at hrest
    have hlt : rest.length < (bytes arrivals).length := by
      rw [hrest, List.length_append, List.length_cons]
      omega
    refine @Pull.Extent.line _ _ _ (s.skip piece ++ line) rest b ?_ ?_ hb ?_
    · rw [htext, hrest, List.append_assoc]
    · exact List.forall_mem_append.2 ⟨hpiece, hline⟩
    · rw [hbody, through_chunk hne hlt, ← Body.behind_behind]
      congr 1
      rw [Body.behind, behind_chunk_of_le (List.length_pos_iff.2 hne) (Nat.le_refl _),
        Nat.sub_self, behind_zero]
  | stop hrest hbody hlast =>
    rw [hskip] at hrest
    refine .stop ?_ ?_ hlast
    · rw [htext]
      exact List.forall_mem_append.2 ⟨hpiece, hrest⟩
    · rw [hbody, past_chunk hne, bytes_chunk hne, List.length_append, Nat.add_assoc]

end Pull.Extent

namespace Splitter

open Arrival

theorem not_ends_skip_nil (s : Splitter) : ∀ b ∈ s.skip [], ¬ byteEnds.Ends b := by
  rw [skip_nil]
  exact fun b hb => absurd hb List.not_mem_nil

/-- Asking reads the body through the terminator of a line, or to its stop. -/
theorem extent_ask (s : Splitter) (k : Cancellation) (n : Nat) (arrivals : List Arrival) :
    Pull.Extent s ⟨arrivals, n⟩ (s.ask k n arrivals) := by
  induction arrivals generalizing s k n with
  | nil =>
    exact .stop s.not_ends_skip_nil (congrArg Connection.body (connection_atEnd s _))
      fun _ _ => finished_atEnd s _
  | cons a arrivals ih =>
    cases a with
    | pending => exact (ih s k n).cons rfl rfl rfl behind_pending
    | cancel reason => exact (ih s (k.fire reason) n).cons rfl rfl rfl (behind_cancel · reason)
    | fault fault => exact .stop s.not_ends_skip_nil rfl nofun
    | chunk piece =>
      by_cases hne : piece = []
      · subst hne
        exact .stop s.not_ends_skip_nil (congrArg Connection.body (connection_atEnd s _))
          fun _ _ => finished_atEnd s _
      rw [ask, if_neg hne]
      dsimp only
      rcases byteEnds.eq_append_cons_or_forall_not_ends (s.skip piece) with
        ⟨line, b, rest, hpiece, hline, hb⟩ | hpiece
      · -- the line ends in this chunk
        have hcut := cut_of_eq_append_cons hpiece hline hb
        rw [if_pos (congrArg Cut.complete hcut)]
        refine @Pull.Extent.line _ _ _ line (rest ++ bytes arrivals) b ?_ hline hb ?_
        · rw [bytes_chunk hne, skip_append hne, hpiece, List.append_assoc, List.cons_append]
        · rw [congrArg Cut.rest hcut]
          exact putBack_eq_behind hpiece hb arrivals n
      · -- more is asked for
        have hcut := cut_of_forall_not_ends hpiece
        rw [if_neg (Bool.eq_false_iff.1 (congrArg Cut.complete hcut)), congrArg Cut.rest hcut]
        exact .chunk hne hpiece (ih _ k _)

variable {s : Splitter} {c : Connection}

/-- A pull reads the body through the terminator of a line, or to its stop. -/
theorem extent_pull (h : s.finished = false) : Pull.Extent s c.body (s.pull c) := by
  rw [pull_of_unfinished h]
  exact s.extent_ask c.cancellation c.body.consumed c.body.arrivals

/-- Pulling a line that is not the last one takes some bytes, and asks nothing behind them. -/
theorem exists_pull_eq_behind {text : String} (hline : (s.pull c).line = some (.ok text))
    (hunfinished : (s.pull c).splitter.finished = false) :
    ∃ m, (s.pull c).connection.body = c.body.behind m := by
  have hs : s.finished = false := by
    apply Bool.eq_false_iff.2
    intro hfinished
    rw [pull_of_finished hfinished] at hline
    cases hline
  cases extent_pull (c := c) hs with
  | line _ _ _ hbody => exact ⟨_, hbody⟩
  | stop _ _ hlast => cases (hlast text hline).symm.trans hunfinished

end Splitter

end EventStream
