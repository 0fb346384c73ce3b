/-!
# Mailboxes

A mailbox has room for one message. A message is accepted only while the box is open and empty. A
closed box accepts nothing more, but a message that is already in it can still be taken out.

## Main definitions

* `Mailbox` — the box
* `Mailbox.offer`, `Mailbox.take`, `Mailbox.close` — put a message in, take it out, shut the box
-/

namespace EventStream

/-- A box with room for one message. -/
@[ext] structure Mailbox where
  /-- The message that waits to be taken. -/
  message : Option String := none
  /-- The box still accepts messages. -/
  isOpen : Bool := true
deriving DecidableEq, Repr

namespace Mailbox

/-- Puts a message into the box, if it is open and empty. -/
def offer (m : Mailbox) (message : String) : Mailbox :=
  if m.isOpen ∧ m.message = none then { m with message := some message } else m

/-- Takes out the message that waits, if there is one. -/
def take (m : Mailbox) : Option String × Mailbox :=
  (m.message, { m with message := none })

/-- Shuts the box. -/
def close (m : Mailbox) : Mailbox :=
  { m with isOpen := false }

variable {m : Mailbox} {s t : String}

theorem message_offer : (m.offer s).message = some t ↔
    m.message = some t ∨ m.isOpen ∧ m.message = none ∧ s = t := by
  unfold offer
  split
  · next h => simp [h.1, h.2]
  · next h =>
    constructor
    · exact Or.inl
    · rintro (ht | ⟨hopen, hnone, -⟩)
      · exact ht
      · exact absurd ⟨hopen, hnone⟩ h

@[simp] theorem isOpen_offer : (m.offer s).isOpen = m.isOpen := by
  unfold offer
  split <;> rfl

@[simp] theorem message_close : m.close.message = m.message := rfl

@[simp] theorem isOpen_close : m.close.isOpen = false := rfl

end Mailbox

end EventStream
