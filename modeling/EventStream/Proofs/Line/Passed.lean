import EventStream.Proofs.Body.Content
/-!
# Cancellations during a pull

Somebody may cancel while a line is being read. The pull goes on as if nothing had happened: what
it brings, and how far it reads, does not depend on the cancellation pair, and the pair has received
exactly the reasons that were passed on the way.

## Main definitions

* `Splitter.passed` — the reasons that come by while a pull asks for bytes
* `Splitter.Undisturbed` — nobody will cancel while the rest of the content is read

## Main results

* `pull_eq` — a pull brings the same whatever the cancellation pair, and the pair after it
* `Undisturbed.pull` — what is quiet stays quiet
-/

namespace EventStream.Splitter

/-- The reasons of the cancellations that come by while the splitter asks for bytes. -/
def passed (s : Splitter) : List Arrival → List String
  | [] => []
  | .pending :: arrivals => s.passed arrivals
  | .cancel reason :: arrivals => reason :: s.passed arrivals
  | .fault _ :: _ => []
  | .chunk bytes :: arrivals =>
    if bytes = [] ∨ (s.cut bytes).complete then [] else (s.cut bytes).splitter.passed arrivals

/-- The reasons that come by in the next pull. -/
def passedBy (s : Splitter) (body : Body) : List String :=
  if s.finished then [] else s.passed body.arrivals

/-- Nobody will cancel before the body stops. -/
def Undisturbed (s : Splitter) (body : Body) : Prop :=
  s.finished = false → Arrival.Quiet body.arrivals

/-- What the end of a body brings does not depend on the cancellation pair. -/
theorem atEnd_eq (s : Splitter) (body : Body) (k k' : Cancellation) :
    s.atEnd ⟨body, k⟩ = { s.atEnd ⟨body, k'⟩ with
      connection := ⟨(s.atEnd ⟨body, k'⟩).connection.body, k⟩ } := by
  unfold atEnd
  split <;> rfl

/-- Asking brings the same whatever the cancellation pair, and the pair receives the reasons that
are passed. -/
theorem ask_eq (s : Splitter) (k k' : Cancellation) (n : Nat) (arrivals : List Arrival) :
    s.ask k n arrivals = { s.ask k' n arrivals with
      connection :=
        ⟨(s.ask k' n arrivals).connection.body, k.fireAll (s.passed arrivals)⟩ } := by
  -- only an arrival that cancels touches the pair, and it counts as passed
  induction arrivals generalizing s k k' n with
  | nil => exact atEnd_eq s _ k k'
  | cons a arrivals ih =>
    cases a with
    | pending => exact ih s k k' n
    | cancel reason => exact ih s (k.fire reason) (k'.fire reason) n
    | fault fault => rfl
    | chunk bytes =>
      simp only [ask, passed]
      by_cases hempty : bytes = []
      · rw [if_pos hempty, if_pos hempty, if_pos (Or.inl hempty)]
        exact atEnd_eq s _ k k'
      · rw [if_neg hempty, if_neg hempty]
        by_cases hcomplete : (s.cut bytes).complete = true
        · rw [if_pos hcomplete, if_pos hcomplete, if_pos (Or.inr hcomplete)]
          rfl
        · rw [if_neg hcomplete, if_neg hcomplete, if_neg fun h => h.elim hempty hcomplete]
          exact ih _ k k' _

/-- A pull brings the same whatever the cancellation pair, and the pair receives the reasons that
are passed. -/
theorem pull_eq (s : Splitter) (body : Body) (k k' : Cancellation) :
    s.pull ⟨body, k⟩ = { s.pull ⟨body, k'⟩ with
      connection := ⟨(s.pull ⟨body, k'⟩).connection.body, k.fireAll (s.passedBy body)⟩ } := by
  unfold pull passedBy
  by_cases hfinished : s.finished = true
  · simp only [if_pos hfinished]
    rfl
  · simp only [if_neg hfinished]
    exact ask_eq s k k' body.consumed body.arrivals

/-! ### Quiet bodies -/

variable {s : Splitter} {c : Connection} {arrivals : List Arrival}

theorem passed_eq_nil (s : Splitter) (h : Arrival.Quiet arrivals) : s.passed arrivals = [] := by
  induction arrivals generalizing s with
  | nil => rfl
  | cons a arrivals ih =>
    cases a with
    | pending => exact ih s h
    | cancel reason => exact absurd h (List.cons_ne_nil _ _)
    | fault fault => rfl
    | chunk bytes =>
      rw [passed]
      split
      · rfl
      · next hgoes =>
        apply ih
        rwa [Arrival.Quiet, Arrival.reasons_chunk fun hempty => hgoes (Or.inl hempty)] at h

theorem undisturbed_atEnd (s : Splitter) (c : Connection) :
    (s.atEnd c).splitter.Undisturbed (s.atEnd c).connection.body := by
  intro hfinished
  unfold atEnd at hfinished
  split at hfinished <;> exact absurd hfinished.symm Bool.false_ne_true

/-- Behind a line, a quiet body is quiet or at its end. -/
theorem undisturbed_ask (s : Splitter) (k : Cancellation) (n : Nat) (h : Arrival.Quiet arrivals)
    {line : String} (hline : (s.ask k n arrivals).line = some (.ok line)) :
    (s.ask k n arrivals).splitter.Undisturbed (s.ask k n arrivals).connection.body := by
  induction arrivals generalizing s k n with
  | nil => exact undisturbed_atEnd s _
  | cons a arrivals ih =>
    cases a with
    | pending => exact ih s k n h hline
    | cancel reason => exact absurd h (List.cons_ne_nil _ _)
    | fault fault => cases hline
    | chunk bytes =>
      rw [ask] at hline ⊢
      by_cases hempty : bytes = []
      · rw [if_pos hempty]
        exact undisturbed_atEnd s _
      · rw [Arrival.Quiet, Arrival.reasons_chunk hempty] at h
        rw [if_neg hempty] at hline ⊢
        dsimp only at hline ⊢
        by_cases hcomplete : (s.cut bytes).complete = true
        · rw [if_pos hcomplete]
          intro _
          exact (reasons_putBack _ arrivals).trans h
        · rw [if_neg hcomplete] at hline ⊢
          exact ih _ k _ h hline

/-- While nobody cancels, no reason comes by in a pull. -/
theorem Undisturbed.passedBy_eq_nil {body : Body} (h : s.Undisturbed body) :
    s.passedBy body = [] := by
  unfold passedBy
  split
  · rfl
  · next hfinished => exact passed_eq_nil s (h (Bool.eq_false_iff.2 hfinished))

/-- While nobody cancels, a pull leaves the cancellation pair alone. -/
theorem Undisturbed.cancellation_pull (h : s.Undisturbed c.body) :
    (s.pull c).connection.cancellation = c.cancellation := by
  rw [pull_eq s c.body c.cancellation c.cancellation, h.passedBy_eq_nil]
  rfl

/-- While nobody cancels, nobody will cancel behind the next line either. -/
theorem Undisturbed.pull (h : s.Undisturbed c.body) {line : String}
    (hline : (s.pull c).line = some (.ok line)) :
    (s.pull c).splitter.Undisturbed (s.pull c).connection.body := by
  unfold Splitter.pull at hline ⊢
  by_cases hfinished : s.finished = true
  · rw [if_pos hfinished] at hline
    cases hline
  · rw [if_neg hfinished] at hline ⊢
    exact undisturbed_ask s _ _ (h (Bool.eq_false_iff.2 hfinished)) hline

end EventStream.Splitter
