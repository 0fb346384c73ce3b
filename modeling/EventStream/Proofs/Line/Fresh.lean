import EventStream.Proofs.Cancellation.Firing
import EventStream.Proofs.Line.Ahead
import EventStream.Proofs.Text.Utf8
/-!
# Starting afresh between two lines

Behind a line a splitter keeps no bytes. It still knows that lines have been handed out, and it may
know that a line feed would belong to the terminator before. A fresh splitter knows neither. The
first makes a difference only where a byte order mark is in front of what follows, since only a
fresh splitter drops it. The second makes a difference only where a line feed follows, which a fresh
splitter takes for an empty line; behind that line both are the same.

## Main definitions

* `Pull.Same` — two pulls bring the same and can be followed by the same pulls
* `Splitter.Alike` — two splitters that differ in nothing that can show

## Main results

* `Alike.pull` — pulls of such splitters are the same
* `ask_skipping` — what a line feed at the seam does
-/

namespace EventStream

/-- Two pulls bring the same line and leave the same body. Behind a line they also keep the same. -/
structure Pull.Same (p p' : Pull) : Prop where
  line_eq : p.line = p'.line
  body_eq : p.connection.body = p'.connection.body
  /-- Behind a failure or the end, nothing that is kept matters. -/
  splitter_eq : ∀ line, p.line = some (.ok line) → p.splitter = p'.splitter

namespace Splitter

/-- Two splitters in front of some bytes that differ in nothing that can show: they skip alike, and
whether lines have been handed out does not matter, since there is no mark in front. -/
structure Alike (s s' : Splitter) (text : List UInt8) : Prop where
  unfinished : s.finished = false
  unfinished' : s'.finished = false
  buffer_eq : s.buffer = s'.buffer
  /-- Between two lines the flags may differ, as long as the same is skipped. -/
  skipsLineFeed_eq : s.buffer ≠ [] → s.skipsLineFeed = s'.skipsLineFeed
  skip_eq : s.skip text = s'.skip text
  not_mark : ¬ byteOrderMark <+: s.buffer ++ s.skip text

variable {s s' : Splitter} {text chunk : List UInt8} {arrivals : List Arrival}

/-- Without a mark, a line is handed out in the same way whether it is the first one or not. -/
theorem takeLine_eq (hmark : ¬ byteOrderMark <+: s.buffer) :
    s.takeLine = (readLine true s.buffer, { s with buffer := [], started := true }) := by
  have hline : s.takeLine.1 = readLine true s.buffer := by
    rw [takeLine_fst, readLine, readLine, if_pos rfl, Text.dropByteOrderMark_eq_self hmark, ite_self]
  exact Prod.ext hline rfl

theorem Alike.atEnd (h : s.Alike s' text) (c : Connection) : (s.atEnd c).Same (s'.atEnd c) := by
  have hmark : ¬ byteOrderMark <+: s.buffer := fun hmark =>
    h.not_mark (hmark.trans (List.prefix_append _ _))
  unfold Splitter.atEnd
  rw [← h.buffer_eq, takeLine_eq hmark, takeLine_eq (h.buffer_eq ▸ hmark), ← h.buffer_eq]
  by_cases hempty : s.buffer = []
  · rw [if_pos hempty, if_pos hempty]
    exact ⟨rfl, rfl, nofun⟩
  · rw [if_neg hempty, if_neg hempty, h.skipsLineFeed_eq hempty]
    exact ⟨rfl, rfl, fun _ _ => rfl⟩

/-- Two splitters that are alike in front of a chunk skip alike in it. -/
theorem Alike.skip_chunk (h : s.Alike s' (Arrival.bytes (.chunk chunk :: arrivals)))
    (hne : chunk ≠ []) : s.skip chunk = s'.skip chunk ∧
      ¬ byteOrderMark <+: s.buffer ++ (s.skip chunk ++ Arrival.bytes arrivals) := by
  have hskip := h.skip_eq
  have hmark := h.not_mark
  rw [Arrival.bytes_chunk hne, skip_append hne] at hskip hmark
  rw [skip_append hne, List.append_cancel_right_eq] at hskip
  exact ⟨hskip, hmark⟩

/-- Behind a chunk without a terminator, they are still alike. -/
theorem Alike.of_forall_not_ends (h : s.Alike s' (Arrival.bytes (.chunk chunk :: arrivals)))
    (hne : chunk ≠ []) (hchunk : ∀ b ∈ s.skip chunk, ¬ byteEnds.Ends b) :
    (s.cut chunk).splitter.Alike (s'.cut chunk).splitter (Arrival.bytes arrivals) := by
  obtain ⟨hskip, hmark⟩ := h.skip_chunk hne
  rw [cut_of_forall_not_ends hchunk, cut_of_forall_not_ends (hskip ▸ hchunk), ← hskip,
    ← h.buffer_eq]
  refine ⟨h.unfinished, h.unfinished', rfl, fun _ => rfl, rfl, ?_⟩
  rwa [← List.append_assoc] at hmark

/-- A line that ends in a chunk is handed out alike, and behind it they are the same. -/
theorem Alike.takeLine_cut (h : s.Alike s' (Arrival.bytes (.chunk chunk :: arrivals)))
    (hne : chunk ≠ []) {line rest : List UInt8} {b : UInt8}
    (hchunk : s.skip chunk = line ++ b :: rest) (hline : ∀ a ∈ line, ¬ byteEnds.Ends a)
    (hb : byteEnds.Ends b) :
    (s.cut chunk).splitter.takeLine = (s'.cut chunk).splitter.takeLine ∧
      (s.cut chunk).rest = (s'.cut chunk).rest := by
  obtain ⟨hskip, hmark⟩ := h.skip_chunk hne
  have hgathered : ¬ byteOrderMark <+: s.buffer ++ line := by
    intro hfront
    apply hmark
    rw [hchunk, List.append_assoc, ← List.append_assoc s.buffer]
    exact hfront.trans (List.prefix_append _ _)
  rw [cut_of_eq_append_cons hchunk hline hb, cut_of_eq_append_cons (hskip ▸ hchunk) hline hb,
    ← h.buffer_eq, takeLine_eq hgathered, takeLine_eq hgathered, h.unfinished, h.unfinished']
  exact ⟨rfl, rfl⟩

/-- Asking brings the same for two splitters that are alike. -/
theorem Alike.ask (h : s.Alike s' (Arrival.bytes arrivals)) (k : Cancellation) (n : Nat) :
    (s.ask k n arrivals).Same (s'.ask k n arrivals) := by
  -- they stay alike until an arrival stops the asking
  induction arrivals generalizing s s' k n with
  | nil => exact h.atEnd _
  | cons a arrivals ih =>
    cases a with
    | pending => exact ih ⟨h.1, h.2, h.3, h.4, h.5, h.6⟩ k n
    | cancel reason => exact ih ⟨h.1, h.2, h.3, h.4, h.5, h.6⟩ (k.fire reason) n
    | fault fault => exact ⟨rfl, rfl, nofun⟩
    | chunk chunk =>
      rw [Splitter.ask, Splitter.ask]
      by_cases hempty : chunk = []
      · rw [if_pos hempty, if_pos hempty]
        exact h.atEnd _
      · rw [if_neg hempty, if_neg hempty]
        obtain ⟨hskip, -⟩ := h.skip_chunk hempty
        rcases byteEnds.eq_append_cons_or_forall_not_ends (s.skip chunk) with
          ⟨line, b, rest, hchunk, hline, hb⟩ | hchunk
        · obtain ⟨htake, hrest⟩ := h.takeLine_cut hempty hchunk hline hb
          have hcomplete : (s.cut chunk).complete = true := by
            rw [cut_of_eq_append_cons hchunk hline hb]
          have hcomplete' : (s'.cut chunk).complete = true := by
            rw [cut_of_eq_append_cons (hskip ▸ hchunk) hline hb]
          dsimp only
          rw [if_pos hcomplete, if_pos hcomplete', htake, hrest]
          exact ⟨rfl, rfl, fun _ _ => rfl⟩
        · have hnext := h.of_forall_not_ends hempty hchunk
          rw [cut_of_forall_not_ends hchunk, cut_of_forall_not_ends (hskip ▸ hchunk)] at hnext ⊢
          dsimp only
          rw [if_neg Bool.false_ne_true, if_neg Bool.false_ne_true]
          exact ih hnext k _

/-- Pulls of two splitters that are alike are the same. -/
theorem Alike.pull {c : Connection} (h : s.Alike s' (Arrival.bytes c.body.arrivals)) :
    (s.pull c).Same (s'.pull c) := by
  unfold Splitter.pull
  rw [h.unfinished, h.unfinished', if_neg Bool.false_ne_true, if_neg Bool.false_ne_true]
  exact h.ask c.cancellation c.body.consumed

/-- Behind a line, a splitter is like a fresh one if no mark follows and no line feed is to be
skipped. -/
theorem alike_fresh {skips : Bool}
    (hskip : ¬ (skips = true ∧ text.head? = some lineFeed)) (hmark : ¬ byteOrderMark <+: text) :
    Alike ⟨[], skips, true, false⟩ {} text := by
  have hself : skip ⟨[], skips, true, false⟩ text = text := skip_eq_self hskip
  refine ⟨rfl, rfl, rfl, fun hne => absurd rfl hne, ?_, ?_⟩
  · rw [hself, skip_of_skipsLineFeed_eq_false rfl]
  · rwa [hself]

/-- A chunk whose line feed is skipped is cut like the chunk behind it. -/
theorem cut_skipping (rest : List UInt8) :
    cut ⟨[], true, true, false⟩ (lineFeed :: rest) = cut ⟨[], false, true, false⟩ rest := by
  have hskip : skip ⟨[], true, true, false⟩ (lineFeed :: rest) = rest :=
    skip_eq_tail ⟨rfl, rfl⟩
  have hself : skip ⟨[], false, true, false⟩ rest = rest := skip_of_skipsLineFeed_eq_false rfl rest
  unfold cut
  rw [hskip, hself]

/-- A fresh splitter takes a line feed in front for an empty line. -/
theorem cut_lineFeed (rest : List UInt8) : cut {} (lineFeed :: rest) = ⟨{}, true, rest⟩ := by
  have hchunk : skip {} (lineFeed :: rest) = [] ++ lineFeed :: rest :=
    skip_of_skipsLineFeed_eq_false rfl _
  have hcr : ¬ (lineFeed = byteEnds.cr ∧ rest.head? = some byteEnds.lf) := fun h =>
    byteEnds.cr_ne_lf h.1.symm
  rw [cut_of_eq_append_cons hchunk (fun a ha => absurd ha List.not_mem_nil) byteEnds.ends_lf,
    byteEnds.behind_eq_self hcr]
  rfl

theorem ask_lineFeed (n : Nat) (rest : List UInt8) (arrivals : List Arrival) :
    ask {} .mute n (.chunk (lineFeed :: rest) :: arrivals) =
      ⟨some (.ok ""), ⟨[], false, true, false⟩, ⟨⟨putBack rest arrivals, n + 1⟩, .mute⟩⟩ := by
  have hempty : takeLine {} = (.ok "", ⟨[], false, true, false⟩) :=
    Prod.ext (Text.read_eq_empty_iff.2 rfl) rfl
  have hcount : (lineFeed :: rest).length - rest.length = 1 := by simp
  rw [ask, if_neg (List.cons_ne_nil _ _), cut_lineFeed]
  dsimp only
  rw [if_pos rfl, hempty, hcount]

/-- Where a line feed is skipped, asking goes on with what is behind it. -/
theorem ask_skipped (n : Nat) (rest : List UInt8) (arrivals : List Arrival) :
    ask ⟨[], true, true, false⟩ .mute n (.chunk (lineFeed :: rest) :: arrivals) =
      ask ⟨[], false, true, false⟩ .mute (n + 1) (putBack rest arrivals) := by
  rw [ask, if_neg (List.cons_ne_nil _ _), cut_skipping, putBack]
  by_cases hrest : rest = []
  · -- nothing is gathered from the chunk, and the next arrival answers
    subst hrest
    rw [if_pos rfl]
    rfl
  · have hlt := length_rest_cut_lt (s := ⟨[], false, true, false⟩) hrest
    have hcount : n + (rest.length + 1 - (cut ⟨[], false, true, false⟩ rest).rest.length) =
        n + 1 + (rest.length - (cut ⟨[], false, true, false⟩ rest).rest.length) := by
      omega
    rw [if_neg hrest, ask, if_neg hrest]
    dsimp only
    rw [List.length_cons, hcount]

/-- A line feed that a splitter would skip is an empty line for a fresh one. Behind that line, the
fresh one brings what the other brings at once. -/
theorem ask_skipping (n : Nat) (h : (Arrival.bytes arrivals).head? = some lineFeed) :
    (ask {} .mute n arrivals).line = some (.ok "") ∧
      ask ⟨[], true, true, false⟩ .mute n arrivals =
        (ask {} .mute n arrivals).splitter.pull
          ⟨(ask {} .mute n arrivals).connection.body, .mute⟩ := by
  -- the first chunk with bytes decides, and until then both wait
  induction arrivals generalizing n with
  | nil => cases h
  | cons a arrivals ih =>
    cases a with
    | pending => exact ih n h
    | cancel reason => exact ih n h
    | fault fault => cases h
    | chunk chunk =>
      cases chunk with
      | nil => cases h
      | cons b rest =>
        rw [Arrival.bytes_chunk (List.cons_ne_nil b rest)] at h
        obtain rfl : b = lineFeed := Option.some.inj h
        rw [ask_lineFeed, ask_skipped]
        exact ⟨rfl, rfl⟩

end Splitter

end EventStream
