import EventStream.Cancellation.Basic
/-!
# What the signal sees after several cancellations

Once the signal has seen a reason, it keeps it. Before that, the first cancellation counts and later
ones are lost, provided that a handle is left and the mailbox accepts messages; otherwise
cancellations do nothing at all.

## Main definitions

* `Cancellation.Armed` — nothing has fired yet, and the next cancellation will
* `Cancellation.mute` — a pair that cannot fire

## Main results

* `check_fireAll_of_fired`, `check_fireAll_of_armed` — what the signal sees after several
  cancellations
* `fireAll_of_not_armed` — where nothing can fire, cancellations do nothing
-/

namespace EventStream.Cancellation

/-- The signal has not fired, and the next cancellation will reach it. -/
structure Armed (k : Cancellation) : Prop where
  check_eq_none : k.check.1 = none
  hasLiveFrom : k.HasLiveFrom 0
  isOpen : k.mailbox.isOpen = true

instance (k : Cancellation) : Decidable k.Armed :=
  decidable_of_iff (k.check.1 = none ∧ k.HasLiveFrom 0 ∧ k.mailbox.isOpen = true)
    ⟨fun h => ⟨h.1, h.2.1, h.2.2⟩, fun h => ⟨h.check_eq_none, h.hasLiveFrom, h.isOpen⟩⟩

/-- A pair without handles, which cannot fire. -/
def mute : Cancellation := { handles := [] }

variable {k : Cancellation} {reason r : String}

/-- The signal sees the reason that it remembers, or else the one in the mailbox. -/
theorem check_fst (k : Cancellation) : k.check.1 = k.reason.or k.mailbox.message := by
  obtain ⟨handles, ⟨message, isOpen⟩, reason⟩ := k
  cases reason with
  | some reason => rfl
  | none => cases message <;> rfl

/-- A signal that sees nothing stays as it is. -/
theorem check_snd (h : k.check.1 = none) : k.check.2 = k := by
  obtain ⟨handles, ⟨message, isOpen⟩, reason⟩ := k
  cases reason with
  | some reason => cases h
  | none =>
    cases message with
    | some message => cases h
    | none => rfl

/-- What the signal has seen once, it remembers. -/
theorem check_check (h : k.check.1 = some r) : k.check.2.check.1 = some r := by
  obtain ⟨handles, ⟨message, isOpen⟩, reason⟩ := k
  cases reason with
  | some reason => exact h
  | none =>
    cases message with
    | some message => exact h
    | none => cases h

theorem fireAll_append (k : Cancellation) (reasons reasons' : List String) :
    k.fireAll (reasons ++ reasons') = (k.fireAll reasons).fireAll reasons' := List.foldl_append

theorem fire_of_not_hasLiveFrom (h : ¬ k.HasLiveFrom 0) : k.fire reason = k := if_neg h

theorem fire_of_hasLiveFrom (h : k.HasLiveFrom 0) :
    k.fire reason = { k with mailbox := k.mailbox.offer reason } := if_pos h

/-- What the signal has seen, it goes on seeing. -/
theorem check_fire_of_fired (h : k.check.1 = some r) : (k.fire reason).check.1 = some r := by
  by_cases hlive : k.HasLiveFrom 0
  · rw [check_fst, Option.or_eq_some_iff] at h
    rw [fire_of_hasLiveFrom hlive, check_fst, Option.or_eq_some_iff]
    rcases h with hreason | ⟨hreason, hmessage⟩
    · exact Or.inl hreason
    · exact Or.inr ⟨hreason, Mailbox.message_offer.2 (Or.inl hmessage)⟩
  · rw [fire_of_not_hasLiveFrom hlive, h]

/-- A cancellation reaches an armed signal. -/
theorem Armed.check_fire (h : k.Armed) : (k.fire reason).check.1 = some reason := by
  have hnone := h.check_eq_none
  rw [check_fst, Option.or_eq_none_iff] at hnone
  rw [fire_of_hasLiveFrom h.hasLiveFrom, check_fst, Option.or_eq_some_iff]
  exact Or.inr ⟨hnone.1, Mailbox.message_offer.2 (Or.inr ⟨h.isOpen, hnone.2, rfl⟩)⟩

/-- A cancellation does nothing to a signal that has neither fired nor can fire. -/
theorem fire_of_not_armed (hnone : k.check.1 = none) (h : ¬ k.Armed) : k.fire reason = k := by
  by_cases hlive : k.HasLiveFrom 0
  · have hclosed : ¬ (k.mailbox.isOpen ∧ k.mailbox.message = none) := fun hopen =>
      h ⟨hnone, hlive, hopen.1⟩
    rw [fire_of_hasLiveFrom hlive, Mailbox.offer, if_neg hclosed]
  · exact fire_of_not_hasLiveFrom hlive

theorem check_fireAll_of_fired (h : k.check.1 = some r) (reasons : List String) :
    (k.fireAll reasons).check.1 = some r := by
  induction reasons generalizing k with
  | nil => exact h
  | cons reason reasons ih => exact ih (check_fire_of_fired h)

/-- An armed signal sees the first of several cancellations. -/
theorem check_fireAll_of_armed (h : k.Armed) (reasons : List String) :
    (k.fireAll reasons).check.1 = reasons.head? := by
  cases reasons with
  | nil => exact h.check_eq_none
  | cons reason reasons => exact check_fireAll_of_fired h.check_fire reasons

theorem fireAll_of_not_armed (hnone : k.check.1 = none) (h : ¬ k.Armed) (reasons : List String) :
    k.fireAll reasons = k := by
  induction reasons with
  | nil => rfl
  | cons reason reasons ih =>
    rw [fireAll, List.foldl_cons, fire_of_not_armed hnone h]
    exact ih

theorem not_armed_mute : ¬ mute.Armed := by decide

theorem check_mute : mute.check.1 = none := rfl

end EventStream.Cancellation
