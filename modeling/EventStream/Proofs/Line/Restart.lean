import EventStream.Proofs.Line.Sequence
/-!
# Asking again

A question for bytes may have to be asked again, because nothing was there or because reading
failed. Either way the splitter keeps what it had. So wherever in a body this happens, pulling
brings the same as without it; a failure is handed out once, between the others, and pulling goes on
behind it. Only where the end of the body comes earlier is the question never asked.

## Main definitions

* `Connection.followedBy` — a connection on which more arrives later
* `Splitter.EndsBefore`, `Splitter.ComesTo` — pulling ends before what arrives later, or comes to it
* `Splitter.handedOut` — what is handed out, pull by pull

## Main results

* `endsBefore_or_comesTo` — pulling does one or the other, whatever arrives later
* `handedOut_pending` — waiting changes nothing
* `handedOut_fault` — a failure is handed out once and changes nothing else
-/

namespace EventStream

/-- The connection on which this arrives behind all that arrives anyway. -/
def Connection.followedBy (c : Connection) (tail : List Arrival) : Connection :=
  { c with body := { c.body with arrivals := c.body.arrivals ++ tail } }

/-- The pull that leaves this behind what it leaves anyway. -/
def Pull.followedBy (p : Pull) (tail : List Arrival) : Pull :=
  { p with connection := p.connection.followedBy tail }

namespace Splitter

variable {s s' : Splitter} {c c' : Connection}

theorem putBack_append (rest : List UInt8) (arrivals tail : List Arrival) :
    putBack rest (arrivals ++ tail) = putBack rest arrivals ++ tail := by
  unfold putBack
  split <;> rfl

theorem atEnd_followedBy (s : Splitter) (c : Connection) (tail : List Arrival) :
    s.atEnd (c.followedBy tail) = (s.atEnd c).followedBy tail := by
  unfold atEnd
  split <;> rfl

/-- Asking stops before what arrives later and leaves less of what arrives earlier, or it passes all
of that and goes on with what arrives later. -/
theorem ask_append (s : Splitter) (k : Cancellation) (n : Nat) (arrivals : List Arrival) :
    ((s.ask k n arrivals).connection.body.size < (Body.mk arrivals n).size ∧
      ∀ tail, s.ask k n (arrivals ++ tail) = (s.ask k n arrivals).followedBy tail) ∨
    ∃ (s' : Splitter) (k' : Cancellation) (n' : Nat), s'.finished = s.finished ∧
      ∀ tail, s.ask k n (arrivals ++ tail) = s'.ask k' n' tail := by
  induction arrivals generalizing s k n with
  | nil => exact Or.inr ⟨s, k, n, rfl, fun _ => rfl⟩
  | cons a arrivals ih =>
    have hsize : ∀ m, (Body.mk arrivals m).size ≤ (Body.mk (a :: arrivals) n).size :=
      fun _ => Nat.le_add_left _ _
    cases a with
    | pending =>
      rcases ih s k n with ⟨hlt, hstop⟩ | hpass
      · exact Or.inl ⟨Nat.lt_of_lt_of_le hlt (hsize n), hstop⟩
      · exact Or.inr hpass
    | cancel reason =>
      rcases ih s (k.fire reason) n with ⟨hlt, hstop⟩ | hpass
      · exact Or.inl ⟨Nat.lt_of_lt_of_le hlt (hsize n), hstop⟩
      · exact Or.inr hpass
    | fault fault => exact Or.inl ⟨Nat.lt_add_of_pos_left Nat.one_pos, fun _ => rfl⟩
    | chunk bytes =>
      simp only [List.cons_append, ask]
      by_cases hempty : bytes = []
      · simp only [if_pos hempty, connection_atEnd]
        refine Or.inl ⟨Nat.lt_add_of_pos_left (Nat.succ_pos _), fun tail => ?_⟩
        exact atEnd_followedBy s ⟨⟨arrivals, n⟩, k⟩ tail
      · simp only [if_neg hempty]
        by_cases hcomplete : (s.cut bytes).complete = true
        · -- what is put back is less than the chunk
          simp only [if_pos hcomplete, putBack_append]
          refine Or.inl ⟨?_, fun tail => rfl⟩
          have hput := size_putBack_le (s.cut bytes).rest arrivals
            (n + (bytes.length - (s.cut bytes).rest.length)) n
          have hrest := length_rest_cut_lt (s := s) hempty
          simp only [Body.size_cons, Arrival.size]
          omega
        · simp only [if_neg hcomplete]
          rcases ih (s.cut bytes).splitter k (n + (bytes.length - (s.cut bytes).rest.length)) with
            ⟨hlt, hstop⟩ | ⟨s', k', n', hfinished, hpass⟩
          · exact Or.inl ⟨Nat.lt_of_lt_of_le hlt (hsize _), hstop⟩
          · exact Or.inr ⟨s', k', n', hfinished.trans finished_cut, hpass⟩

/-- Pulls that are the same are followed by the same pulls. -/
theorem nthPull_congr (h : s.pull c = s'.pull c') (i : Nat) : s.nthPull c i = s'.nthPull c' i := by
  cases i with
  | zero => exact h
  | succ i => rw [nthPull, nthPull, h]

/-- Pulling comes to the end before what arrives later, which is never asked for. -/
def EndsBefore (s : Splitter) (c : Connection) : Prop :=
  ∃ m, ∀ tail, (s.nthPull (c.followedBy tail) m).splitter.finished = true ∧
    ∀ i, s.nthPull (c.followedBy tail) i = (s.nthPull c i).followedBy tail

/-- After a number of pulls, pulling comes to what arrives later. -/
def ComesTo (s : Splitter) (c : Connection) (m : Nat) : Prop :=
  ∃ (s' : Splitter) (c' : Connection), s'.finished = false ∧ c'.body.arrivals = [] ∧ ∀ tail,
    (∀ i < m, s.nthPull (c.followedBy tail) i = (s.nthPull c i).followedBy tail) ∧
    ∀ i, s.nthPull (c.followedBy tail) (m + i) = s'.nthPull (c'.followedBy tail) i

theorem endsBefore_of_finished (h : s.finished = true) (c : Connection) : s.EndsBefore c := by
  refine ⟨0, fun tail => ⟨?_, fun i => ?_⟩⟩
  · rw [nthPull_of_finished h]
    exact h
  · rw [nthPull_of_finished h, nthPull_of_finished h]
    rfl

/-- The first pull stops before what arrives later. -/
def Stops (s : Splitter) (c : Connection) : Prop :=
  ∀ tail, s.pull (c.followedBy tail) = (s.pull c).followedBy tail

theorem Stops.nthPull_succ (h : s.Stops c) (tail : List Arrival) (i : Nat) :
    s.nthPull (c.followedBy tail) (i + 1) =
      (s.pull c).splitter.nthPull ((s.pull c).connection.followedBy tail) i := by
  rw [nthPull, h tail]
  rfl

theorem Stops.endsBefore (h : s.Stops c)
    (hends : (s.pull c).splitter.EndsBefore (s.pull c).connection) : s.EndsBefore c := by
  obtain ⟨m, hends⟩ := hends
  refine ⟨m + 1, fun tail => ⟨?_, fun i => ?_⟩⟩
  · rw [h.nthPull_succ]
    exact (hends tail).1
  · cases i with
    | zero => exact h tail
    | succ i =>
      rw [h.nthPull_succ]
      exact (hends tail).2 i

theorem Stops.comesTo (h : s.Stops c) {m : Nat}
    (hcomes : (s.pull c).splitter.ComesTo (s.pull c).connection m) : s.ComesTo c (m + 1) := by
  obtain ⟨s', c', hs', hc', hcomes⟩ := hcomes
  refine ⟨s', c', hs', hc', fun tail => ⟨fun i hi => ?_, fun i => ?_⟩⟩
  · cases i with
    | zero => exact h tail
    | succ i =>
      rw [h.nthPull_succ]
      exact (hcomes tail).1 i (Nat.lt_of_succ_lt_succ hi)
  · rw [Nat.add_right_comm, h.nthPull_succ]
    exact (hcomes tail).2 i

/-- Pulling comes to its end or to what arrives later. -/
theorem endsBefore_or_comesTo (s : Splitter) (c : Connection) :
    s.EndsBefore c ∨ ∃ m, s.ComesTo c m := by
  -- a pull that stops leaves less to arrive
  induction h : c.body.size using Nat.strongRecOn generalizing s c with
  | _ size ih =>
    rcases hs : s.finished with _ | _
    · rcases s.ask_append c.cancellation c.body.consumed c.body.arrivals with
        ⟨hlt, hstop⟩ | ⟨s', k', n', hfinished, hpass⟩
      · have hstops : s.Stops c := by
          intro tail
          rw [pull_of_unfinished hs, pull_of_unfinished hs]
          exact hstop tail
        rw [← pull_of_unfinished hs] at hlt
        rcases ih _ (h ▸ hlt) (s.pull c).splitter (s.pull c).connection rfl with
          hends | ⟨m, hcomes⟩
        · exact Or.inl (hstops.endsBefore hends)
        · exact Or.inr ⟨m + 1, hstops.comesTo hcomes⟩
      · rw [hs] at hfinished
        refine Or.inr ⟨0, s', ⟨⟨[], n'⟩, k'⟩, hfinished, rfl, fun tail => ⟨nofun, fun i => ?_⟩⟩
        rw [Nat.zero_add]
        apply nthPull_congr
        rw [pull_of_unfinished hs, pull_of_unfinished hfinished]
        exact hpass tail
    · exact Or.inl (endsBefore_of_finished hs c)

/-! ### Interruptions -/

/-- What is handed out, pull by pull. -/
def handedOut (s : Splitter) (c : Connection) : Nat → Option (Except Fault String) :=
  fun i => (s.nthPull c i).line

/-- This is handed out between the others after `m` pulls, and the others as they were. -/
def InsertedAt (m : Nat) (item : Except Fault String)
    (items items' : Nat → Option (Except Fault String)) : Prop :=
  (∀ i < m, items' i = items i) ∧ items' m = some item ∧ ∀ i ≥ m, items' (i + 1) = items i

theorem EndsBefore.handedOut_followedBy (h : s.EndsBefore c) (tail : List Arrival) :
    s.handedOut (c.followedBy tail) = s.handedOut c := by
  obtain ⟨m, hends⟩ := h
  funext i
  rw [handedOut, handedOut, (hends tail).2 i]
  rfl

/-- Waiting changes nothing that pulling brings. -/
theorem handedOut_pending (s : Splitter) (c : Connection) (back : List Arrival) :
    s.handedOut (c.followedBy (.pending :: back)) = s.handedOut (c.followedBy back) := by
  rcases s.endsBefore_or_comesTo c with hends | ⟨m, s', c', hs', hc', hcomes⟩
  · rw [hends.handedOut_followedBy, hends.handedOut_followedBy]
  · funext i
    rcases Nat.lt_or_ge i m with hlt | hge
    · rw [handedOut, handedOut, (hcomes _).1 i hlt, (hcomes _).1 i hlt]
      rfl
    · obtain ⟨j, rfl⟩ := Nat.exists_eq_add_of_le hge
      rw [handedOut, handedOut, (hcomes _).2, (hcomes _).2]
      apply congrArg Pull.line
      apply nthPull_congr
      rw [pull_of_unfinished hs', pull_of_unfinished hs', Connection.followedBy,
        Connection.followedBy, hc']
      rfl

/-- A failure to read is handed out once, and what pulling brings behind it is what it would have
brought in its place. Where the end comes earlier, nothing changes. -/
theorem handedOut_fault (s : Splitter) (c : Connection) (fault : Fault) (back : List Arrival) :
    (∃ m, InsertedAt m (.error fault) (s.handedOut (c.followedBy back))
      (s.handedOut (c.followedBy (.fault fault :: back)))) ∨
    s.EndsBefore c ∧
      s.handedOut (c.followedBy (.fault fault :: back)) = s.handedOut (c.followedBy back) := by
  rcases s.endsBefore_or_comesTo c with hends | ⟨m, s', c', hs', hc', hcomes⟩
  · refine Or.inr ⟨hends, ?_⟩
    rw [hends.handedOut_followedBy, hends.handedOut_followedBy]
  · -- the failure leaves the splitter as it is, and only itself is gone from what arrives
    have hfault : s'.pull (c'.followedBy (.fault fault :: back)) =
        ⟨some (.error fault), s', c'.followedBy back⟩ := by
      rw [pull_of_unfinished hs', Connection.followedBy, Connection.followedBy, hc']
      rfl
    refine Or.inl ⟨m, fun i hi => ?_, ?_, fun i hi => ?_⟩
    · rw [handedOut, handedOut, (hcomes _).1 i hi, (hcomes _).1 i hi]
      rfl
    · have hat := (hcomes (.fault fault :: back)).2 0
      rw [Nat.add_zero, nthPull, hfault] at hat
      rw [handedOut, hat]
    · obtain ⟨j, rfl⟩ := Nat.exists_eq_add_of_le hi
      rw [handedOut, handedOut, Nat.add_assoc, (hcomes _).2, (hcomes _).2, nthPull, hfault]

end Splitter

end EventStream
