import EventStream.Proofs.Line.Ahead
/-!
# Cutting by places

A chunk lies in the memory of its reader, and cutting it is looking at places in it: where the text
starts, where the first terminator is, and what is behind that. All of these places are in the
chunk, as long as it is not empty. Of such a chunk at least one byte is taken, and no more than
there are.

## Main definitions

* `slice?` — the bytes between two places, if there are such places
* `Splitter.cutAt?` — cuts a chunk by places, and fails at the first place that is not there

## Main results

* `exists_cutAt?_eq` — it never fails, and cuts as the bytes themselves say
-/

namespace EventStream

/-- The bytes of a chunk from one place up to another, if both are there in this order. -/
def slice? (chunk : List UInt8) (start stop : Nat) : Option (List UInt8) :=
  if start ≤ stop ∧ stop ≤ chunk.length then some ((chunk.take stop).drop start) else none

namespace Splitter

/-- Where the text of a chunk starts: behind a line feed that belongs to the line before. -/
def start? (s : Splitter) (chunk : List UInt8) : Option Nat :=
  if s.skipsLineFeed then chunk[0]?.map fun b => if b = lineFeed then 1 else 0 else some 0

/-- Cuts a chunk by places: the splitter behind the bytes taken, whether they end a line, and how
many there are. Nothing comes of it if a place is not there. -/
def cutAt? (s : Splitter) (chunk : List UInt8) : Option (Splitter × Bool × Nat) := do
  let start ← s.start? chunk
  let text ← slice? chunk start chunk.length
  match text.findIdx? (EndsLine ·) with
  | none => return ({ s with buffer := s.buffer ++ text, skipsLineFeed := false }, false, chunk.length)
  | some i =>
    let stop := start + i
    let line ← slice? chunk start stop
    let b ← chunk[stop]?
    let gathered := { s with buffer := s.buffer ++ line, skipsLineFeed := false }
    -- there may be no place behind the terminator
    match chunk[stop + 1]? with
    | none => return ({ gathered with skipsLineFeed := b = carriageReturn }, true, stop + 1)
    | some b' =>
      return (gathered, true, if b = carriageReturn ∧ b' = lineFeed then stop + 2 else stop + 1)

variable {s : Splitter} {front text rest chunk : List UInt8} {b : UInt8}

theorem slice?_append (front text rest : List UInt8) :
    slice? (front ++ (text ++ rest)) front.length (front.length + text.length) = some text := by
  have hbounds : front.length ≤ front.length + text.length ∧
      front.length + text.length ≤ (front ++ (text ++ rest)).length := by
    simp only [List.length_append]
    omega
  rw [slice?, if_pos hbounds, List.take_length_add_append, List.take_left, List.drop_left]

/-- The text starts behind what is skipped. -/
theorem exists_start?_eq (h : chunk ≠ []) :
    ∃ front, chunk = front ++ s.skip chunk ∧ s.start? chunk = some front.length := by
  obtain ⟨b, rest, rfl⟩ := List.exists_cons_of_ne_nil h
  unfold start?
  by_cases hskip : s.skipsLineFeed = true ∧ b = lineFeed
  · obtain ⟨hskips, rfl⟩ := hskip
    rw [skip_eq_tail ⟨hskips, rfl⟩, if_pos hskips]
    exact ⟨[lineFeed], rfl, rfl⟩
  · have hself : s.skip (b :: rest) = b :: rest :=
      skip_eq_self fun h => hskip ⟨h.1, Option.some.inj h.2⟩
    refine ⟨[], hself.symm, ?_⟩
    by_cases hskips : s.skipsLineFeed = true
    · rw [if_pos hskips, List.getElem?_cons_zero, Option.map_some,
        if_neg fun hb => hskip ⟨hskips, hb⟩]
      rfl
    · rw [if_neg hskips]
      rfl

theorem findIdx?_endsLine_append (htext : ∀ a ∈ text, ¬ byteEnds.Ends a) (hb : byteEnds.Ends b) :
    (text ++ b :: rest).findIdx? (EndsLine ·) = some text.length := by
  have hnone : text.findIdx? (EndsLine ·) = none :=
    List.findIdx?_eq_none_iff.2 fun a ha => decide_eq_false (htext a ha)
  have hfirst : decide (EndsLine b) = true := decide_eq_true hb
  rw [List.findIdx?_append, hnone, List.findIdx?_cons, hfirst]
  simp

/-- A chunk with a terminator is cut by places at the first one. -/
theorem cutAt?_of_eq_append_cons (hstart : s.start? chunk = some front.length)
    (hchunk : chunk = front ++ (text ++ b :: rest)) (htext : ∀ a ∈ text, ¬ byteEnds.Ends a)
    (hb : byteEnds.Ends b) : s.cutAt? chunk = some
      ({ s with
          buffer := s.buffer ++ text
          skipsLineFeed := decide (b = carriageReturn ∧ rest = []) },
        true, chunk.length - (byteEnds.behind b rest).length) := by
  have hwhole : slice? chunk front.length chunk.length = some (text ++ b :: rest) := by
    have hslice := slice?_append front (text ++ b :: rest) []
    rwa [List.append_nil, ← List.length_append, ← hchunk] at hslice
  have hline : slice? chunk front.length (front.length + text.length) = some text := by
    rw [hchunk]
    exact slice?_append front text (b :: rest)
  have hplace : ∀ i, chunk[front.length + text.length + i]? = (b :: rest)[i]? := by
    intro i
    rw [hchunk, Nat.add_assoc, List.getElem?_append_right (Nat.le_add_right _ _),
      Nat.add_sub_cancel_left, List.getElem?_append_right (Nat.le_add_right _ _),
      Nat.add_sub_cancel_left]
  have hlength : chunk.length = front.length + text.length + (rest.length + 1) := by
    simp only [hchunk, List.length_append, List.length_cons]
    omega
  have hfirst : chunk[front.length + text.length]? = some b := hplace 0
  simp only [cutAt?, hstart, hwhole, findIdx?_endsLine_append htext hb, hline, hfirst, hplace 1,
    Option.bind_eq_bind, Option.bind_some]
  cases rest with
  | nil =>
    rw [byteEnds.behind_eq_self fun h => Option.some_ne_none _ h.2.symm, hlength]
    simp
  | cons b' rest =>
    -- the byte behind the terminator is there, and belongs to it or not
    rw [hlength]
    by_cases hpair : b = carriageReturn ∧ (b' :: rest).head? = some lineFeed
    · have hboth : b = carriageReturn ∧ b' = lineFeed := ⟨hpair.1, Option.some.inj hpair.2⟩
      rw [byteEnds.behind_eq_tail hpair]
      simp [hboth]
      omega
    · have hnot : ¬ (b = carriageReturn ∧ b' = lineFeed) := fun h =>
        hpair ⟨h.1, congrArg some h.2⟩
      rw [byteEnds.behind_eq_self hpair]
      simp [hnot]
      omega

/-- A chunk without a terminator is taken as a whole. -/
theorem cutAt?_of_forall_not_ends (hstart : s.start? chunk = some front.length)
    (hchunk : chunk = front ++ text) (htext : ∀ a ∈ text, ¬ byteEnds.Ends a) :
    s.cutAt? chunk =
      some ({ s with buffer := s.buffer ++ text, skipsLineFeed := false }, false, chunk.length) := by
  have hwhole : slice? chunk front.length chunk.length = some text := by
    have hslice := slice?_append front text []
    rwa [List.append_nil, ← List.length_append, ← hchunk] at hslice
  have hnone : text.findIdx? (EndsLine ·) = none :=
    List.findIdx?_eq_none_iff.2 fun a ha => decide_eq_false (htext a ha)
  simp only [cutAt?, hstart, hwhole, hnone, Option.bind_eq_bind, Option.bind_some]
  rfl

/-- All places that are looked at are there. What is taken is at least one byte and at most the
chunk, and what is left is the rest of it. -/
theorem exists_cutAt?_eq (s : Splitter) (h : chunk ≠ []) :
    ∃ used, s.cutAt? chunk = some ((s.cut chunk).splitter, (s.cut chunk).complete, used) ∧
      1 ≤ used ∧ used ≤ chunk.length ∧ (s.cut chunk).rest = chunk.drop used := by
  obtain ⟨front, hchunk, hstart⟩ := exists_start?_eq (s := s) h
  have hlt := length_rest_cut_lt (s := s) h
  rcases byteEnds.eq_append_cons_or_forall_not_ends (s.skip chunk) with
    ⟨line, b, rest, hskip, hline, hb⟩ | hskip
  · have hcut := cut_of_eq_append_cons hskip hline hb
    obtain ⟨taken, htaken, -⟩ := exists_append_behind hskip hb
    rw [hskip] at hchunk
    rw [hcut] at hlt ⊢
    refine ⟨_, cutAt?_of_eq_append_cons hstart hchunk hline hb, ?_, Nat.sub_le _ _, ?_⟩
    · dsimp only at hlt
      omega
    · have hlength := congrArg List.length htaken
      rw [List.length_append] at hlength
      have hused : chunk.length - (byteEnds.behind b rest).length = taken.length := by omega
      rw [hused]
      conv => rhs; rw [htaken]
      rw [List.drop_left]
  · rw [cut_of_forall_not_ends hskip]
    refine ⟨_, cutAt?_of_forall_not_ends hstart hchunk hskip, List.length_pos_iff.2 h, Nat.le_refl _,
      ?_⟩
    rw [List.drop_length]

end Splitter

end EventStream
