import EventStream.Proofs.Text.Utf8
import EventStream.Text.Decimal
import Mathlib.Data.List.Induction
import Mathlib.Data.Nat.Digits.Defs
/-!
# Decimal numerals

A numeral consists of ASCII digits. Each digit counts ten times as much as the one behind it, so the
value of a numeral is found from its end. Reading starts at the front and works with words, of which
there are finitely many; still it finds the value of every numeral for which there is a word, and
nothing for all others, however long they are and however many zeros they start with.

## Main definitions

* `Text.value` — the number that some digits write
* `Text.Numeral` — some characters are a numeral of a number

## Main results

* `ofDigits?_eq_some_iff` — digits are read as the word that is their value
* `number?_eq_some_iff`, `word?_eq_some_iff` — the texts that are read as a word
* `numeral_iff` — the numerals of a number are its decimal digits behind any number of zeros
-/

namespace EventStream.Text

/-- The number that some digits write. The last digit counts once, and each other one counts ten
times as much as the one behind it. -/
def value (digits : List Char) : ℕ := Nat.ofDigits 10 (digits.reverse.map digitValue)

/-- The characters are ASCII digits, at least one, and write the number. -/
structure Numeral (digits : List Char) (n : ℕ) : Prop where
  ne_nil : digits ≠ []
  isDigit : ∀ c ∈ digits, c.isDigit
  value_eq : value digits = n

variable {digits : List Char} {c : Char} {s : String} {n : ℕ} {w : UInt64}

/-- One more digit makes the others count ten times as much. -/
theorem value_concat (digits : List Char) (c : Char) :
    value (digits ++ [c]) = 10 * value digits + digitValue c := by
  rw [value, List.reverse_append, List.map_append, List.reverse_singleton, List.map_singleton,
    List.singleton_append, Nat.ofDigits_cons, Nat.add_comm]
  rfl

/-! ### Reading -/

theorem exists_word (h : n < 2 ^ 64) : ∃ w : UInt64, w.toNat = n :=
  ⟨.ofNat n, UInt64.toNat_ofNat_of_lt' h⟩

/-- Digits are read as the word that is their value. If their value is no word they are read as
nothing, and so are characters that are not all digits. -/
theorem ofDigits?_eq_some_iff (digits : List Char) (w : UInt64) :
    ofDigits? digits = some w ↔ (∀ c ∈ digits, c.isDigit) ∧ value digits = w.toNat := by
  -- the value of the digits in front is at most that of all digits, so it is a word if this is
  induction digits using List.reverseRecOn generalizing w with
  | nil =>
    rw [ofDigits?, List.foldlM_nil, Option.pure_def, Option.some.injEq, ← UInt64.toNat_inj]
    exact (and_iff_right fun c hc => absurd hc List.not_mem_nil).symm
  | append_singleton digits c ih =>
    have hread : ofDigits? (digits ++ [c]) = some w ↔
        ∃ n, ofDigits? digits = some n ∧ push? n c = some w := by
      rw [ofDigits?, List.foldlM_append, Option.bind_eq_bind, Option.bind_eq_some_iff]
      simp only [List.foldlM_cons, List.foldlM_nil, bind_pure, ofDigits?]
    rw [hread, value_concat, List.forall_mem_append, List.forall_mem_singleton]
    constructor
    · rintro ⟨n, hn, hw⟩
      obtain ⟨hdigits, hvalue⟩ := (ih n).1 hn
      obtain ⟨hc, hpush⟩ := push?_eq_some_iff.1 hw
      exact ⟨⟨hdigits, hc⟩, hvalue ▸ hpush⟩
    · rintro ⟨⟨hdigits, hc⟩, hvalue⟩
      have hlt := w.toNat_lt
      obtain ⟨n, hn⟩ := exists_word (show value digits < 2 ^ 64 by omega)
      exact ⟨n, (ih n).2 ⟨hdigits, hn.symm⟩, push?_eq_some_iff.2 ⟨hc, hn ▸ hvalue⟩⟩

/-- A text is read as a word if it is a numeral of the word, perhaps behind a plus sign. -/
theorem number?_eq_some_iff : number? s = some w ↔ Numeral (dropPlus s.toList) w.toNat := by
  unfold number?
  split
  · next hnil => exact iff_of_false nofun fun h => h.ne_nil hnil
  · next hnil =>
    rw [ofDigits?_eq_some_iff]
    exact ⟨fun h => ⟨hnil, h.1, h.2⟩, fun h => ⟨h.isDigit, h.value_eq⟩⟩

/-- A plus sign is no digit. -/
theorem dropPlus_eq_self (h : ∀ c ∈ digits, c.isDigit) : dropPlus digits = digits := by
  unfold dropPlus
  split
  · exact absurd (h '+' List.mem_cons_self) (by decide)
  · rfl

theorem asciiAlike_isDigit : AsciiAlike IsDigitByte fun c => c.isDigit where
  byte b hb := Nat.lt_of_le_of_lt (UInt8.le_iff_toNat_le.1 hb.2) (by decide)
  char c hc := Nat.lt_of_le_of_lt (Char.isDigit_iff_toNat.1 hc).2 (by decide)
  iff := by decide +kernel

/-- A text of digits is read as a word if it is a numeral of the word. -/
theorem word?_eq_some_iff : word? s = some w ↔ Numeral s.toList w.toNat := by
  have hword : word? s = some w ↔ number? s = some w ∧ ∀ c ∈ s.toList, c.isDigit := by
    rw [← asciiAlike_isDigit.forall_mem_encode_iff]
    simp only [word?, Option.bind_eq_bind, Option.bind_eq_some_iff, List.all_eq_true,
      decide_eq_true_eq, Option.ite_none_right_eq_some, Option.some.injEq]
    exact ⟨fun ⟨n, hn, hbytes, hw⟩ => ⟨hw ▸ hn, hbytes⟩, fun h => ⟨w, h.1, h.2, rfl⟩⟩
  rw [hword, number?_eq_some_iff]
  constructor
  · rintro ⟨hnumeral, hdigits⟩
    rwa [dropPlus_eq_self hdigits] at hnumeral
  · intro h
    rw [dropPlus_eq_self h.isDigit]
    exact ⟨h, h.isDigit⟩

/-- What is not read is not a numeral of any word. -/
theorem word?_eq_none_iff : word? s = none ↔ ∀ n, Numeral s.toList n → 2 ^ 64 ≤ n := by
  rw [Option.eq_none_iff_forall_ne_some]
  constructor
  · intro h n hn
    by_contra hlt
    obtain ⟨w, rfl⟩ := exists_word (Nat.lt_of_not_le hlt)
    exact h w (word?_eq_some_iff.2 hn)
  · intro h w hw
    exact absurd w.toNat_lt (Nat.not_lt.2 (h _ (word?_eq_some_iff.1 hw)))

/-! ### Numerals -/

/-- A digit is what its value is written with. -/
theorem toDigits_digitValue (hc : c.isDigit) : Nat.toDigits 10 (digitValue c) = [c] := by
  have hlt := digitValue_lt hc
  have hchar : (digitValue c).digitChar = c := by
    have hle := (Char.isDigit_iff_toNat.1 hc).1
    rw [← Char.toNat_inj, Nat.toNat_digitChar_of_lt_ten hlt, digitValue]
    exact Nat.add_sub_cancel' hle
  rw [Nat.toDigits_of_lt_base hlt, hchar]

/-- Digits are the decimal digits of their value behind some zeros. -/
theorem exists_eq_replicate_append (hne : digits ≠ []) (hdigits : ∀ c ∈ digits, c.isDigit) :
    ∃ zeros, digits = List.replicate zeros '0' ++ Nat.toDigits 10 (value digits) := by
  induction digits using List.reverseRecOn with
  | nil => exact absurd rfl hne
  | append_singleton digits c ih =>
    rw [List.forall_mem_append, List.forall_mem_singleton] at hdigits
    obtain ⟨hdigits, hc⟩ := hdigits
    rcases Nat.eq_zero_or_pos (value digits) with hzero | hpos
    · -- all digits in front are zeros
      obtain ⟨zeros, heq⟩ : ∃ zeros, digits = List.replicate zeros '0' := by
        rcases eq_or_ne digits [] with rfl | hne
        · exact ⟨0, rfl⟩
        · obtain ⟨zeros, heq⟩ := ih hne hdigits
          rw [hzero, Nat.toDigits_zero, ← List.replicate_succ'] at heq
          exact ⟨_, heq⟩
      refine ⟨zeros, ?_⟩
      rw [value_concat, hzero, Nat.mul_zero, Nat.zero_add, toDigits_digitValue hc, ← heq]
    · have hne : digits ≠ [] := by
        rintro rfl
        exact Nat.lt_irrefl 0 hpos
      obtain ⟨zeros, heq⟩ := ih hne hdigits
      refine ⟨zeros, ?_⟩
      rw [value_concat, ← Nat.toDigits_append_toDigits (by decide) hpos (digitValue_lt hc),
        toDigits_digitValue hc, ← List.append_assoc, ← heq]

theorem value_eq_ofDigitChars (digits : List Char) : value digits = Nat.ofDigitChars 10 digits 0 := by
  induction digits using List.reverseRecOn with
  | nil => rfl
  | append_singleton digits c ih =>
    rw [value_concat, Nat.ofDigitChars_append, Nat.ofDigitChars_cons, Nat.ofDigitChars_nil, ih]
    rfl

/-- Zeros in front count for nothing. -/
theorem numeral_replicate_append (zeros n : ℕ) :
    Numeral (List.replicate zeros '0' ++ Nat.toDigits 10 n) n where
  ne_nil := List.append_ne_nil_of_right_ne_nil _ Nat.toDigits_ne_nil
  isDigit c hc := by
    rcases List.mem_append.1 hc with hzero | hdigit
    · rw [List.eq_of_mem_replicate hzero]
      rfl
    · exact Nat.isDigit_of_mem_toDigits (by decide) (by decide) hdigit
  value_eq := by
    rw [value_eq_ofDigitChars, Nat.ofDigitChars_append, Nat.ofDigitChars_replicate_zero,
      Nat.mul_zero, Nat.ofDigitChars_ten_toDigits]

/-- The numerals of a number are its decimal digits behind any number of zeros. -/
theorem numeral_iff :
    Numeral digits n ↔ ∃ zeros, digits = List.replicate zeros '0' ++ Nat.toDigits 10 n := by
  constructor
  · rintro ⟨hne, hdigits, rfl⟩
    exact exists_eq_replicate_append hne hdigits
  · rintro ⟨zeros, rfl⟩
    exact numeral_replicate_append zeros n

/-- A 64-bit word written in decimal is read as that word. -/
theorem word?_toString (w : UInt64) : word? (toString w.toNat) = some w := by
  have hlist : (toString w.toNat).toList = Nat.toDigits 10 w.toNat := Nat.toList_repr
  rw [word?_eq_some_iff, hlist]
  exact numeral_replicate_append 0 w.toNat

end EventStream.Text
