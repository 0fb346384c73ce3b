import EventStream.Text.Bytes
/-!
# Decimal words

Numbers in a stream are written in decimal and have to fit into 64 bits. They are read digit by
digit in 64-bit arithmetic, and a result that does not fit is none: it is never taken modulo `2 ^ 64`.

## Main definitions

* `Text.times?`, `Text.plus?` — products and sums of words that are words
* `Text.push?` — a word with one more digit behind it
* `Text.ofDigits?` — the word that some digits write
* `Text.number?` — the word that a text holds, with a plus sign in front or without one
* `Text.word?` — the word that a text of digits holds
-/

namespace EventStream.Text

variable {m n k : UInt64} {c : Char}

/-- The product of two words, if it is a word. -/
def times? (m n : UInt64) : Option UInt64 :=
  if m.toNat * n.toNat < UInt64.size then some (m * n) else none

/-- The sum of two words, if it is a word. -/
def plus? (m n : UInt64) : Option UInt64 :=
  if m.toNat + n.toNat < UInt64.size then some (m + n) else none

theorem times?_eq_some_iff : times? m n = some k ↔ m.toNat * n.toNat = k.toNat := by
  unfold times?
  split
  · next hlt =>
    rw [Option.some.injEq, ← UInt64.toNat_inj, UInt64.toNat_mul, Nat.mod_eq_of_lt hlt]
  · next hlt => exact iff_of_false nofun fun h => hlt (h ▸ k.toNat_lt)

theorem plus?_eq_some_iff : plus? m n = some k ↔ m.toNat + n.toNat = k.toNat := by
  unfold plus?
  split
  · next hlt =>
    rw [Option.some.injEq, ← UInt64.toNat_inj, UInt64.toNat_add, Nat.mod_eq_of_lt hlt]
  · next hlt => exact iff_of_false nofun fun h => hlt (h ▸ k.toNat_lt)

/-- The value of an ASCII digit. -/
def digitValue (c : Char) : Nat := c.toNat - '0'.toNat

theorem digitValue_lt (hc : c.isDigit) : digitValue c < 10 := by
  have hle := (Char.isDigit_iff_toNat.1 hc).2
  have hnine : '9'.toNat = '0'.toNat + 9 := rfl
  unfold digitValue
  omega

/-- The word with one more digit behind it, if the character is a digit and the result is a
word. -/
def push? (n : UInt64) (c : Char) : Option UInt64 := do
  let tens ← times? n 10
  let digit ← if c.isDigit then some (UInt64.ofNat (digitValue c)) else none
  plus? tens digit

/-- A digit is put behind a word by counting the word ten times. -/
theorem push?_eq_some_iff :
    push? n c = some k ↔ c.isDigit ∧ 10 * n.toNat + digitValue c = k.toNat := by
  have hten : (10 : UInt64).toNat = 10 := rfl
  by_cases hc : c.isDigit
  · have hdigit : (UInt64.ofNat (digitValue c)).toNat = digitValue c :=
      UInt64.toNat_ofNat_of_lt' (Nat.lt_trans (digitValue_lt hc) (by decide))
    simp only [push?, hc, if_true, Option.bind_eq_bind, Option.bind_eq_some_iff, Option.some.injEq,
      exists_eq_left', times?_eq_some_iff, plus?_eq_some_iff, hten, hdigit, true_and]
    constructor
    · rintro ⟨tens, htens, hk⟩
      omega
    · intro hk
      have hlt := k.toNat_lt
      have htens : (UInt64.ofNat (n.toNat * 10)).toNat = n.toNat * 10 :=
        UInt64.toNat_ofNat_of_lt' (by unfold UInt64.size; omega)
      exact ⟨_, htens.symm, by omega⟩
  · simp [push?, hc]

/-- The word that some digits write, if they all are digits and the number is a word. -/
def ofDigits? (digits : List Char) : Option UInt64 := digits.foldlM push? 0

/-- Removes one plus sign from the front, if there is one. -/
def dropPlus : List Char → List Char
  | '+' :: cs => cs
  | cs => cs

/-- The word that a text holds in decimal, with a plus sign in front or without one. Leading zeros
are allowed. -/
def number? (s : String) : Option UInt64 :=
  if dropPlus s.toList = [] then none else ofDigits? (dropPlus s.toList)

/-- A byte that is an ASCII digit. -/
def IsDigitByte (b : UInt8) : Prop := 0x30 ≤ b ∧ b ≤ 0x39

instance (b : UInt8) : Decidable (IsDigitByte b) :=
  inferInstanceAs (Decidable (_ ∧ _))

/-- The word that a text holds in decimal, if the text has no other bytes than digits: a sign in
front is refused. -/
def word? (s : String) : Option UInt64 := do
  let n ← number? s
  if (encode s).all (IsDigitByte ·) then some n else none

example : word? "0018446744073709551615" = some 18446744073709551615 := by decide +kernel

example : number? "+5" = some 5 ∧ word? "+5" = none := by decide +kernel

end EventStream.Text
