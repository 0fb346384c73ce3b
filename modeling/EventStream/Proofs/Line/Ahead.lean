import EventStream.Proofs.Body.Content
import EventStream.Proofs.Line.Cutting
/-!
# What is ahead of a splitter

A splitter keeps the bytes of an unfinished line and remembers a carriage return at the end of a
chunk. Together with the arrivals that are still to come, this stands for a plain text that has not
been cut yet: the text ahead. Pulling takes the first row off that text, whatever the chunks are;
at the end of the text it brings the tail or the failure.

## Main definitions

* `Content`, `Body.content` — what a body brings before it stops, and where it starts to count
* `Splitter.Ahead` — the text ahead of a splitter, and how far the body has been read
* `Pull.Serves` — what a pull has to bring when a certain text is ahead

## Main results

* `ahead_start` — at the start, the whole content is ahead
* `Ahead.serves_pull` — each pull brings what the text ahead says
-/

namespace EventStream

/-- What a body brings before it stops. -/
@[ext] structure Content where
  /-- The bytes. -/
  bytes : List UInt8
  /-- The failure at the stop, or nothing where the body just ends. -/
  failure : Option Fault
  /-- The number of bytes consumed earlier. -/
  start : Nat
deriving DecidableEq, Repr

/-- The content of a body. -/
def Body.content (b : Body) : Content :=
  ⟨Arrival.bytes b.arrivals, Arrival.failure b.arrivals, b.consumed⟩

/-- The text of some bytes, or the failure that stands for bytes that are not UTF-8. -/
def Text.read (bytes : List UInt8) : Except Fault String :=
  match Text.decode? bytes with
  | some text => .ok text
  | none => .error .invalidText

theorem Text.read_encode (s : String) : read (encode s) = .ok s := by
  rw [read, decode?_encode]

theorem Text.read_of_decode?_eq_none {bytes : List UInt8} (h : decode? bytes = none) :
    read bytes = .error .invalidText := by
  rw [read, h]

/-- No bytes are read as the empty line, and only these. -/
theorem Text.read_eq_empty_iff {bytes : List UInt8} : Text.read bytes = .ok "" ↔ bytes = [] := by
  constructor
  · intro h
    unfold Text.read at h
    split at h
    · next text hdecode =>
      rw [Except.ok.inj h, Text.decode?_eq_some_iff] at hdecode
      exact hdecode
    · cases h
  · rintro rfl
    exact Text.read_encode ""

namespace Splitter

/-- What is handed out for the bytes of a line; a mark counts only in front of the first line. -/
def readLine (started : Bool) (line : List UInt8) : Except Fault String :=
  Text.read (if started then line else dropByteOrderMark line)

theorem takeLine_fst (s : Splitter) : s.takeLine.1 = readLine s.started s.buffer := rfl

/-- The text is ahead of the splitter, in the middle of a body with this content. -/
structure Ahead (whole : Content) (s : Splitter) (body : Body) (text : List UInt8) : Prop where
  unfinished : s.finished = false
  not_ends : ∀ b ∈ s.buffer, ¬ byteEnds.Ends b
  buffer_eq_nil : s.skipsLineFeed = true → s.buffer = []
  text_eq : text = s.buffer ++ s.skip (Arrival.bytes body.arrivals)
  failure_eq : whole.failure = Arrival.failure body.arrivals
  taken : ∃ taken, whole.bytes = taken ++ Arrival.bytes body.arrivals ∧
    body.consumed = whole.start + taken.length ∧
    (s.skipsLineFeed = true → taken.getLast? = some carriageReturn)

/-- At the start, the whole content is ahead. -/
theorem ahead_start (body : Body) :
    Ahead body.content {} body (Arrival.bytes body.arrivals) where
  unfinished := rfl
  not_ends := fun _ hb => absurd hb List.not_mem_nil
  buffer_eq_nil := fun _ => rfl
  text_eq := rfl
  failure_eq := rfl
  taken := ⟨[], rfl, rfl, fun h => absurd h Bool.false_ne_true⟩

end Splitter

/-- What a pull brings and leaves when this text is ahead: the first row, or else the stop. -/
def Pull.Serves (whole : Content) (started : Bool) (text : List UInt8) (p : Pull) : Prop :=
  match byteEnds.cut text with
  | (row :: _, _) =>
    p.line = some (Splitter.readLine started row.line) ∧ p.splitter.started = true ∧
      p.splitter.buffer = [] ∧ p.splitter.Ahead whole p.connection.body row.rest
  | ([], tail) =>
    p.connection.body.consumed = whole.start + whole.bytes.length ∧
      match whole.failure with
      | some fault => p.line = some (.error fault)
      | none => p.splitter.finished = true ∧
          p.line = if tail = [] then none else some (Splitter.readLine started tail)

namespace Splitter

variable {whole : Content} {s : Splitter} {body : Body} {text chunk more : List UInt8} {b : UInt8}
  {rest : List UInt8}

/-! ### One chunk -/

theorem skip_eq_tail (h : s.skipsLineFeed = true ∧ chunk.head? = some lineFeed) :
    s.skip chunk = chunk.tail := if_pos h

theorem skip_eq_self (h : ¬ (s.skipsLineFeed = true ∧ chunk.head? = some lineFeed)) :
    s.skip chunk = chunk := if_neg h

@[simp] theorem skip_nil : s.skip [] = [] :=
  skip_eq_self fun h => absurd h.2 (by decide)

theorem skip_of_skipsLineFeed_eq_false (h : s.skipsLineFeed = false) (chunk : List UInt8) :
    s.skip chunk = chunk :=
  skip_eq_self fun hskip => Bool.false_ne_true (h.symm.trans hskip.1)

theorem skip_append (h : chunk ≠ []) (more : List UInt8) :
    s.skip (chunk ++ more) = s.skip chunk ++ more := by
  have hhead : (chunk ++ more).head? = chunk.head? := by
    cases chunk with
    | nil => exact absurd rfl h
    | cons b chunk => rfl
  -- whether a line feed is skipped shows in the first byte, which both share
  by_cases hskip : s.skipsLineFeed = true ∧ chunk.head? = some lineFeed
  · rw [skip_eq_tail hskip, skip_eq_tail (hhead ▸ hskip), List.tail_append_of_ne_nil h]
  · rw [skip_eq_self hskip, skip_eq_self (hhead ▸ hskip)]

/-- A chunk without a terminator is gathered as it is. -/
theorem cut_of_forall_not_ends (h : ∀ b ∈ s.skip chunk, ¬ byteEnds.Ends b) :
    s.cut chunk =
      ⟨{ s with buffer := s.buffer ++ s.skip chunk, skipsLineFeed := false }, false, []⟩ := by
  have hall : ∀ b ∈ s.skip chunk, decide (¬ EndsLine b) = true := fun b hb =>
    decide_eq_true (h b hb)
  have htake : (s.skip chunk).takeWhile (¬ EndsLine ·) = s.skip chunk := by
    have htake := @List.takeWhile_append_of_pos _ _ _ [] hall
    rwa [List.append_nil, List.takeWhile_nil, List.append_nil] at htake
  have hdrop : (s.skip chunk).dropWhile (¬ EndsLine ·) = [] := by
    have hdrop := @List.dropWhile_append_of_pos _ _ _ [] hall
    rwa [List.append_nil, List.dropWhile_nil] at hdrop
  simp only [cut, htake, hdrop]

/-- A chunk with a terminator is cut at the first one. -/
theorem cut_of_eq_append_cons (h : s.skip chunk = text ++ b :: rest)
    (htext : ∀ a ∈ text, ¬ byteEnds.Ends a) (hb : byteEnds.Ends b) :
    s.cut chunk =
      ⟨{ s with
          buffer := s.buffer ++ text
          skipsLineFeed := decide (b = carriageReturn ∧ rest = []) },
        true, byteEnds.behind b rest⟩ := by
  have hall : ∀ a ∈ text, decide (¬ EndsLine a) = true := fun a ha => decide_eq_true (htext a ha)
  have hends : decide (¬ EndsLine b) = false := decide_eq_false fun hnot => hnot hb
  have htake : (s.skip chunk).takeWhile (¬ EndsLine ·) = text := by
    rw [h, List.takeWhile_append_of_pos hall, List.takeWhile_cons_of_neg (by rw [hends]; decide),
      List.append_nil]
  have hdrop : (s.skip chunk).dropWhile (¬ EndsLine ·) = b :: rest := by
    rw [h, List.dropWhile_append_of_pos hall, List.dropWhile_cons_of_neg (by rw [hends]; decide)]
  simp only [cut, htake, hdrop]
  -- only behind the last byte of a chunk is it open whether a line feed follows
  cases rest with
  | nil => simp [LineEnds.behind]
  | cons b' rest => simp [LineEnds.behind, byteEnds]

/-- A chunk that has been cut leaves of the whole text what its terminator leaves. -/
theorem skip_behind (h : s.skipsLineFeed = decide (b = carriageReturn ∧ rest = []))
    (more : List UInt8) :
    s.skip (byteEnds.behind b rest ++ more) = byteEnds.behind b (rest ++ more) := by
  cases rest with
  | nil =>
    -- nothing of the chunk is left, so the flag decides about the next one
    have hbehind : byteEnds.behind b [] = [] := byteEnds.behind_eq_self fun hb => by simp at hb
    rw [hbehind, List.nil_append]
    by_cases hb : b = carriageReturn ∧ more.head? = some lineFeed
    · rw [skip_eq_tail ⟨by simp [h, hb.1], hb.2⟩, byteEnds.behind_eq_tail hb]
    · rw [skip_eq_self fun hskip => hb ⟨by simpa [h] using hskip.1, hskip.2⟩,
        byteEnds.behind_eq_self hb]
  | cons b' rest =>
    -- the byte behind the terminator is there, and the flag is down
    rw [skip_of_skipsLineFeed_eq_false (by simp [h])]
    by_cases hb : b = carriageReturn ∧ b' = lineFeed
    · have hpair : b = carriageReturn ∧ some b' = some lineFeed := ⟨hb.1, congrArg some hb.2⟩
      rw [byteEnds.behind_eq_tail hpair, List.cons_append, byteEnds.behind_eq_tail hpair]
      rfl
    · have hnot : ¬ (b = carriageReturn ∧ some b' = some lineFeed) := fun hpair =>
        hb ⟨hpair.1, Option.some.inj hpair.2⟩
      rw [byteEnds.behind_eq_self hnot, List.cons_append, byteEnds.behind_eq_self hnot]

/-- What is skipped is a line feed in front, or nothing. -/
theorem exists_eq_append_skip (s : Splitter) (chunk : List UInt8) :
    ∃ skipped, chunk = skipped ++ s.skip chunk ∧
      (skipped = [] ∨ skipped = [lineFeed] ∧ s.skipsLineFeed = true) := by
  unfold skip
  split
  · next hskip =>
    obtain ⟨rest, rfl⟩ := List.head?_eq_some_iff.1 hskip.2
    exact ⟨[lineFeed], rfl, Or.inr ⟨rfl, hskip.1⟩⟩
  · exact ⟨[], rfl, Or.inl rfl⟩

/-- What has been taken from a chunk that was cut: what is skipped, the text and its terminator.
Behind a carriage return at the end of the chunk, the next line feed is to be skipped. -/
theorem exists_taken_eq (h : s.skip chunk = text ++ b :: rest) (hb : byteEnds.Ends b) :
    ∃ skipped t,
      chunk = (skipped ++ text ++ byteEnds.symbols t) ++ byteEnds.behind b rest ∧
      (skipped = [] ∨ skipped = [lineFeed] ∧ s.skipsLineFeed = true) ∧
      (b = carriageReturn ∧ rest = [] → t = .carriageReturn) := by
  obtain ⟨skipped, hskipped, honly⟩ := s.exists_eq_append_skip chunk
  obtain ⟨t, hsymbols, -⟩ := LineEnds.exists_symbols hb rest
  refine ⟨skipped, t, ?_, honly, ?_⟩
  · rw [h, hsymbols] at hskipped
    simpa only [List.append_assoc] using hskipped
  · rintro ⟨rfl, rfl⟩
    rw [byteEnds.behind_eq_self fun hpair => by simp at hpair, List.append_nil] at hsymbols
    cases t with
    | lineFeed => exact absurd (List.cons.inj hsymbols).1 byteEnds.cr_ne_lf
    | carriageReturn => rfl
    | both => cases (List.cons.inj hsymbols).2

/-- What has been taken from a chunk that was cut; where the next line feed is to be skipped, it
ends with a carriage return. -/
theorem exists_append_behind (h : s.skip chunk = text ++ b :: rest) (hb : byteEnds.Ends b) :
    ∃ front, chunk = front ++ byteEnds.behind b rest ∧
      (b = carriageReturn ∧ rest = [] → front.getLast? = some carriageReturn) := by
  obtain ⟨skipped, t, htaken, -, hlast⟩ := exists_taken_eq h hb
  refine ⟨_, htaken, fun hends => ?_⟩
  rw [hlast hends]
  exact List.getLast?_concat

/-! ### The steps of a pull -/

theorem Ahead.consumed_eq (h : s.Ahead whole body text)
    (hbytes : Arrival.bytes body.arrivals = []) :
    body.consumed = whole.start + whole.bytes.length := by
  obtain ⟨taken, htaken, hconsumed, -⟩ := h.taken
  rw [hconsumed, htaken, hbytes, List.append_nil]

theorem Ahead.text_eq_buffer (h : s.Ahead whole body text)
    (hbytes : Arrival.bytes body.arrivals = []) : text = s.buffer := by
  rw [h.text_eq, hbytes, skip_nil, List.append_nil]

/-- A chunk without a terminator moves into the buffer and leaves the text ahead as it was. -/
theorem Ahead.of_forall_not_ends {arrivals : List Arrival} {n : Nat} (hne : chunk ≠ [])
    (h : s.Ahead whole ⟨.chunk chunk :: arrivals, n⟩ text)
    (hchunk : ∀ b ∈ s.skip chunk, ¬ byteEnds.Ends b) :
    (s.cut chunk).splitter.Ahead whole
      ⟨arrivals, n + (chunk.length - (s.cut chunk).rest.length)⟩ text := by
  rw [cut_of_forall_not_ends hchunk]
  obtain ⟨taken, htaken, hconsumed, -⟩ := h.taken
  refine ⟨h.unfinished, ?_, fun hfalse => absurd hfalse Bool.false_ne_true, ?_, ?_, ?_⟩
  · intro b hb
    rcases List.mem_append.1 hb with hb | hb
    · exact h.not_ends b hb
    · exact hchunk b hb
  · rw [skip_of_skipsLineFeed_eq_false rfl (Arrival.bytes arrivals), h.text_eq,
      Arrival.bytes_chunk hne, skip_append hne, List.append_assoc]
  · rw [h.failure_eq, Arrival.failure_chunk hne]
  · -- all of the chunk has been taken
    refine ⟨taken ++ chunk, ?_, ?_, fun hfalse => absurd hfalse Bool.false_ne_true⟩
    · rw [htaken, Arrival.bytes_chunk hne, List.append_assoc]
    · simp only [List.length_append, List.length_nil, Nat.sub_zero]
      dsimp only at hconsumed
      omega

/-- A chunk with a terminator completes the first row of the text ahead, and leaves ahead what
follows that row. -/
theorem Ahead.of_eq_append_cons {arrivals : List Arrival} {n : Nat} (hne : chunk ≠ [])
    (h : s.Ahead whole ⟨.chunk chunk :: arrivals, n⟩ text) {line : List UInt8}
    (hchunk : s.skip chunk = line ++ b :: rest) (hline : ∀ a ∈ line, ¬ byteEnds.Ends a)
    (hb : byteEnds.Ends b) :
    (s.cut chunk).splitter.takeLine.2.Ahead whole
      ⟨putBack (s.cut chunk).rest arrivals, n + (chunk.length - (s.cut chunk).rest.length)⟩
      (byteEnds.behind b (rest ++ Arrival.bytes arrivals)) := by
  obtain ⟨taken, htaken, hconsumed, -⟩ := h.taken
  obtain ⟨front, hfront, hlast⟩ := exists_append_behind hchunk hb
  rw [cut_of_eq_append_cons hchunk hline hb]
  refine ⟨h.unfinished, fun a ha => absurd ha List.not_mem_nil, fun _ => rfl, ?_, ?_, ?_⟩
  · rw [bytes_putBack, skip_behind rfl]
    rfl
  · rw [h.failure_eq, Arrival.failure_chunk hne, failure_putBack]
  · -- the chunk has been taken up to the end of the terminator
    refine ⟨taken ++ front, ?_, ?_, ?_⟩
    · rw [htaken, Arrival.bytes_chunk hne, bytes_putBack]
      conv => lhs; rw [hfront]
      simp only [List.append_assoc]
    · have hlength := congrArg List.length hfront
      simp only [List.length_append] at hlength ⊢
      dsimp only at hconsumed
      omega
    · intro hskips
      rw [List.getLast?_append, hlast (of_decide_eq_true hskips)]
      rfl

/-- At the end of the body, what has been gathered is the tail of the text. -/
theorem Ahead.serves_atEnd (h : s.Ahead whole body text)
    (hbytes : Arrival.bytes body.arrivals = []) (hfailure : whole.failure = none)
    {c : Connection} (hconsumed : c.body.consumed = body.consumed) :
    (s.atEnd c).Serves whole s.started text := by
  have htext := h.text_eq_buffer hbytes
  have hcut : byteEnds.cut text = ([], text) :=
    LineEnds.cut_of_forall_not_ends (htext ▸ h.not_ends)
  have hcount := hconsumed.trans (h.consumed_eq hbytes)
  simp only [Pull.Serves, hcut, hfailure]
  unfold atEnd
  split
  · next hempty => exact ⟨hcount, rfl, by rw [if_pos (htext.trans hempty)]⟩
  · next hempty =>
    refine ⟨hcount, rfl, ?_⟩
    rw [if_neg fun htail => hempty (htext.symm.trans htail), takeLine_fst, htext]

/-- Asking for bytes brings what the text ahead says. -/
theorem Ahead.serves_ask (k : Cancellation) {arrivals : List Arrival} {n : Nat}
    (h : s.Ahead whole ⟨arrivals, n⟩ text) : (s.ask k n arrivals).Serves whole s.started text := by
  -- the text ahead stays the same until an arrival stops the asking
  induction arrivals generalizing s k n with
  | nil => exact h.serves_atEnd rfl h.failure_eq rfl
  | cons a arrivals ih =>
    cases a with
    | pending => exact ih k ⟨h.1, h.2, h.3, h.4, h.5, h.6⟩
    | cancel reason => exact ih (k.fire reason) ⟨h.1, h.2, h.3, h.4, h.5, h.6⟩
    | fault fault =>
      -- what has been gathered holds no terminator, so there is no row left
      have htext := h.text_eq_buffer rfl
      have hcut : byteEnds.cut text = ([], text) :=
        LineEnds.cut_of_forall_not_ends (htext ▸ h.not_ends)
      have hfailure : whole.failure = some fault := h.failure_eq
      simp only [Pull.Serves, hcut, hfailure]
      exact ⟨h.consumed_eq rfl, rfl⟩
    | chunk chunk =>
      rw [ask]
      split
      · next hempty =>
        subst hempty
        exact h.serves_atEnd rfl h.failure_eq rfl
      · next hne =>
        dsimp only
        rcases byteEnds.eq_append_cons_or_forall_not_ends (s.skip chunk) with
          ⟨line, b, rest, hchunk, hline, hb⟩ | hchunk
        · -- the terminator ends the first row
          have hnot : ∀ a ∈ s.buffer ++ line, ¬ byteEnds.Ends a :=
            List.forall_mem_append.2 ⟨h.not_ends, hline⟩
          have htext : text = s.buffer ++ line ++ b :: (rest ++ Arrival.bytes arrivals) := by
            rw [h.text_eq, Arrival.bytes_chunk hne, skip_append hne, hchunk]
            simp only [List.append_assoc, List.cons_append]
          have hahead := h.of_eq_append_cons hne hchunk hline hb
          rw [if_pos (by rw [cut_of_eq_append_cons hchunk hline hb])]
          simp only [Pull.Serves, htext, LineEnds.cut_append_cons hnot hb]
          refine ⟨?_, rfl, rfl, hahead⟩
          rw [takeLine_fst, cut_of_eq_append_cons hchunk hline hb]
        · -- the chunk goes into the buffer, and the asking goes on
          have hahead := h.of_forall_not_ends hne hchunk
          rw [if_neg (by rw [cut_of_forall_not_ends hchunk]; exact Bool.false_ne_true)]
          have hstarted : (s.cut chunk).splitter.started = s.started := by
            rw [cut_of_forall_not_ends hchunk]
          rw [← hstarted]
          exact ih k hahead

/-- Each pull brings what the text ahead says. -/
theorem Ahead.serves_pull {c : Connection} (h : s.Ahead whole c.body text) :
    (s.pull c).Serves whole s.started text := by
  rw [pull_of_unfinished h.unfinished]
  exact h.serves_ask c.cancellation

end Splitter

end EventStream
