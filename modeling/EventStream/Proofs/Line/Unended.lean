import EventStream.Proofs.Line.Ahead
/-!
# No terminator gets into a line

A splitter gathers bytes up to a terminator, and the terminator itself is never gathered. However
the body is cut into chunks, and wherever it stops, a line that is handed out holds none of the two
symbols that end lines.

## Main definitions

* `Splitter.Unended` — no byte that has been gathered ends lines
* `Pull.Unended` — the same for what a pull brings and what it leaves

## Main results

* `Unended.ask`, `Unended.pull` — pulling keeps it so, and brings lines without terminators
-/

namespace EventStream

variable {bytes : List UInt8} {line : String}

/-- A symbol that ends lines is one byte of the text, and this byte ends lines. -/
theorem Text.exists_mem_encode {c : Char} (hmem : c ∈ line.toList) (hc : charEnds.Ends c) :
    ∃ b ∈ encode line, byteEnds.Ends b := by
  rcases hc with rfl | rfl
  · exact ⟨carriageReturn, List.mem_flatMap.2 ⟨_, hmem, by decide⟩, byteEnds.ends_cr⟩
  · exact ⟨lineFeed, List.mem_flatMap.2 ⟨_, hmem, by decide⟩, byteEnds.ends_lf⟩

theorem Text.not_ends_of_read (hbytes : ∀ b ∈ bytes, ¬ byteEnds.Ends b)
    (h : Text.read bytes = .ok line) : ∀ c ∈ line.toList, ¬ charEnds.Ends c := by
  intro c hmem hc
  unfold Text.read at h
  split at h
  · next text hdecode =>
    obtain rfl := Except.ok.inj h
    rw [Text.decode?_eq_some_iff] at hdecode
    obtain ⟨b, hb, hends⟩ := Text.exists_mem_encode hmem hc
    exact hbytes b (hdecode ▸ hb) hends
  · cases h

namespace Splitter

theorem mem_of_mem_dropByteOrderMark {b : UInt8} (h : b ∈ dropByteOrderMark bytes) :
    b ∈ bytes := by
  unfold dropByteOrderMark at h
  split at h
  · exact List.mem_of_mem_drop h
  · exact h

/-- Bytes that do not end lines are read as a line without terminators, with or without the mark. -/
theorem not_ends_of_readLine (hbytes : ∀ b ∈ bytes, ¬ byteEnds.Ends b) {started : Bool}
    (h : readLine started bytes = .ok line) : ∀ c ∈ line.toList, ¬ charEnds.Ends c := by
  refine Text.not_ends_of_read (fun b hb => hbytes b ?_) h
  split at hb
  · exact hb
  · exact mem_of_mem_dropByteOrderMark hb

/-- No byte that has been gathered ends lines. -/
def Unended (s : Splitter) : Prop := ∀ b ∈ s.buffer, ¬ byteEnds.Ends b

end Splitter

/-- Neither the line that the pull brings nor what it leaves unfinished holds a terminator. -/
structure Pull.Unended (p : Pull) : Prop where
  splitter : p.splitter.Unended
  line : ∀ line, p.line = some (.ok line) → ∀ c ∈ line.toList, ¬ charEnds.Ends c

namespace Splitter.Unended

variable {s : Splitter} {chunk : List UInt8}

theorem empty : Unended {} := fun _ hb => absurd hb List.not_mem_nil

/-- A chunk is gathered up to its first terminator. -/
theorem cut (h : s.Unended) (chunk : List UInt8) : (s.cut chunk).splitter.Unended := by
  have hbuffer : (s.cut chunk).splitter.buffer =
      s.buffer ++ (s.skip chunk).takeWhile (¬ EndsLine ·) := by
    unfold Splitter.cut
    split <;> rfl
  unfold Unended
  rw [hbuffer]
  refine List.forall_mem_append.2 ⟨h, fun b hb => ?_⟩
  exact of_decide_eq_true (List.all_eq_true.1 List.all_takeWhile b hb)

/-- The line that has been gathered is handed out, and nothing of it is kept. -/
theorem takeLine (h : s.Unended) (connection : Connection) :
    Pull.Unended ⟨some s.takeLine.1, s.takeLine.2, connection⟩ where
  splitter := fun _ hb => absurd hb List.not_mem_nil
  line := fun _ hline => not_ends_of_readLine h (Option.some.inj hline)

theorem atEnd (h : s.Unended) (c : Connection) : (s.atEnd c).Unended := by
  unfold Splitter.atEnd
  split
  · exact ⟨h, nofun⟩
  · exact ⟨(h.takeLine c).splitter, (h.takeLine c).line⟩

/-- Whatever arrives, what is gathered holds no terminator, and neither does the line that comes of
it. -/
theorem ask (h : s.Unended) (k : Cancellation) (n : Nat) (arrivals : List Arrival) :
    (s.ask k n arrivals).Unended := by
  -- only a chunk is gathered, and its terminator ends the asking
  induction arrivals generalizing s k n with
  | nil => exact h.atEnd _
  | cons a arrivals ih =>
    cases a with
    | pending => exact ih h k n
    | cancel reason => exact ih h (k.fire reason) n
    | fault fault => exact ⟨h, nofun⟩
    | chunk bytes =>
      rw [Splitter.ask]
      split
      · exact h.atEnd _
      · dsimp only
        split
        · exact (h.cut bytes).takeLine _
        · exact ih (h.cut bytes) k _

theorem pull (h : s.Unended) (c : Connection) : (s.pull c).Unended := by
  unfold Splitter.pull
  split
  · exact ⟨h, nofun⟩
  · exact h.ask _ _ _

end Splitter.Unended

end EventStream
