import EventStream.Body
import EventStream.Text.Bytes
/-!
# Cutting bytes into lines

Lines end with a carriage return, a line feed, or both in this order. The splitter takes a body
chunk by chunk and hands out a line as soon as its terminator has come; what follows stays in the
body. A carriage return at the end of a chunk ends its line at once; should the next chunk start
with a line feed, that one belongs to it and is skipped. A byte order mark in front of the first
line is dropped.

## Main definitions

* `Splitter` — what is kept between two chunks
* `Splitter.cut` — cuts one chunk at its first terminator
* `Splitter.takeLine` — hands out the line that has been gathered

## Main results

* `length_rest_cut_lt` — every non-empty chunk loses at least one byte to the splitter
-/

namespace EventStream

/-- The carriage return. -/
def carriageReturn : UInt8 := 0x0d

/-- The line feed. -/
def lineFeed : UInt8 := 0x0a

/-- The byte order mark in UTF-8. -/
def byteOrderMark : List UInt8 := [0xef, 0xbb, 0xbf]

/-- A byte that ends a line. -/
def EndsLine (b : UInt8) : Prop := b = carriageReturn ∨ b = lineFeed

instance (b : UInt8) : Decidable (EndsLine b) :=
  inferInstanceAs (Decidable (b = carriageReturn ∨ b = lineFeed))

/-- The state of the cutting between two chunks. -/
@[ext] structure Splitter where
  /-- The bytes of the line that has not ended yet. -/
  buffer : List UInt8 := []
  /-- The last chunk ended with the carriage return of a line. -/
  skipsLineFeed : Bool := false
  /-- A line has been handed out. -/
  started : Bool := false
  /-- The end of the body has been seen. -/
  finished : Bool := false
deriving DecidableEq, Repr

namespace Splitter

/-- A chunk after its first terminator has been looked for. -/
@[ext] structure Cut where
  /-- The state after the bytes taken. -/
  splitter : Splitter
  /-- The bytes taken end a line. -/
  complete : Bool
  /-- The bytes that are left in the chunk. -/
  rest : List UInt8
deriving DecidableEq, Repr

/-- The chunk without the line feed that belongs to the line before. -/
def skip (s : Splitter) (chunk : List UInt8) : List UInt8 :=
  if s.skipsLineFeed ∧ chunk.head? = some lineFeed then chunk.tail else chunk

/-- Takes bytes from a chunk up to and including the first terminator, or all of them. -/
def cut (s : Splitter) (chunk : List UInt8) : Cut :=
  let text := (s.skip chunk).takeWhile (¬ EndsLine ·)
  let gathered := { s with buffer := s.buffer ++ text, skipsLineFeed := false }
  match (s.skip chunk).dropWhile (¬ EndsLine ·) with
  | [] => ⟨gathered, false, []⟩
  -- whether a line feed follows a carriage return here will show only in the next chunk
  | [b] => ⟨{ gathered with skipsLineFeed := b = carriageReturn }, true, []⟩
  | b :: b' :: rest =>
    ⟨gathered, true, if b = carriageReturn ∧ b' = lineFeed then rest else b' :: rest⟩

/-- The bytes without a byte order mark in front. -/
def dropByteOrderMark (bytes : List UInt8) : List UInt8 :=
  if byteOrderMark <+: bytes then bytes.drop byteOrderMark.length else bytes

/-- The bytes of the line that has been gathered, without the mark in front of the first line. -/
def lineBytes (s : Splitter) : List UInt8 :=
  if s.started then s.buffer else dropByteOrderMark s.buffer

/-- Hands out the line that has been gathered, and starts the next one. -/
def takeLine (s : Splitter) : Except Fault String × Splitter :=
  let line := match Text.decode? s.lineBytes with
    | some line => .ok line
    | none => .error .invalidText
  (line, { s with buffer := [], started := true })

variable {s : Splitter} {chunk : List UInt8}

theorem length_skip_le (s : Splitter) (chunk : List UInt8) :
    (s.skip chunk).length ≤ chunk.length := by
  unfold skip
  split
  · simp
  · exact Nat.le_refl _

theorem length_rest_cut_lt (h : chunk ≠ []) : (s.cut chunk).rest.length < chunk.length := by
  have hskip := length_skip_le s chunk
  have hdrop := (List.dropWhile_sublist (l := s.skip chunk) (¬ EndsLine ·)).length_le
  have hpos := List.length_pos_iff.2 h
  unfold cut
  split
  · exact hpos
  · exact hpos
  · next heq =>
    rw [heq] at hdrop
    simp only [List.length_cons] at hdrop
    dsimp only
    split
    · omega
    · simp only [List.length_cons]
      omega

@[simp] theorem finished_cut : (s.cut chunk).splitter.finished = s.finished := by
  unfold cut
  split <;> rfl

@[simp] theorem finished_takeLine : s.takeLine.2.finished = s.finished := rfl

end Splitter

end EventStream
