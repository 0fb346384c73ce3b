import EventStream.Event.Draft
import EventStream.Proofs.Text.Decimal
/-!
# Reconnection times

A stream may name a reconnection time for its events. What it names is taken if it is a decimal
numeral whose number fits into 64 bits, and else it is as if the field were not there: the time named
before stays.

## Main results

* `set_retry_numeral` — which texts set the reconnection time, and to what
-/

namespace EventStream.Draft

open EventStream.Text

/-- The texts that set the reconnection time are the numerals of the numbers up to `2 ^ 64 - 1`, and
they set it to that number and nothing else. All other texts leave the draft as it is: texts that are
no numerals, and numerals of larger numbers. No number is taken modulo `2 ^ 64` on the way, however
many digits there are: what has been read of some digits, if anything, is their value. A numeral of a
number is its decimal digits behind any number of zeros. -/
theorem set_retry_numeral (d : Draft) (v : String) :
    (∀ n, Numeral v.toList n → n ≤ 2 ^ 64 - 1 →
        ∃ w : UInt64, w.toNat = n ∧ d.set ⟨"retry", v⟩ = { d with retry := some w }) ∧
      ((∀ n, Numeral v.toList n → 2 ^ 64 ≤ n) → d.set ⟨"retry", v⟩ = d) ∧
      (∀ digits w,
        ofDigits? digits = some w ↔ (∀ c ∈ digits, c.isDigit) ∧ value digits = w.toNat) ∧
      ∀ n, Numeral v.toList n ↔
        ∃ zeros, v.toList = List.replicate zeros '0' ++ Nat.toDigits 10 n := by
  refine ⟨fun n hn hle => ?_, fun hlarge => ?_, ofDigits?_eq_some_iff, fun n => numeral_iff⟩
  · obtain ⟨w, rfl⟩ := exists_word (Nat.lt_of_le_pred (by decide) hle)
    exact ⟨w, rfl, set_retry_of_eq_some (word?_eq_some_iff.2 hn)⟩
  · exact set_retry_of_eq_none (word?_eq_none_iff.2 hlarge)

/-- The largest number is taken, also behind zeros, and the next one is not. -/
theorem set_retry_numeral_largest :
    let d : Draft := { retry := some 3000, data := ["x"] }
    Numeral "0018446744073709551615".toList 18446744073709551615 ∧
      18446744073709551615 ≤ 2 ^ 64 - 1 ∧
      (∃ w : UInt64, w.toNat = 18446744073709551615 ∧
        d.set ⟨"retry", "0018446744073709551615"⟩ = { d with retry := some w }) ∧
      (∀ n, Numeral "18446744073709551616".toList n → 2 ^ 64 ≤ n) ∧
      d.set ⟨"retry", "18446744073709551616"⟩ = d := by
  intro d
  have hnumeral : Numeral "0018446744073709551615".toList 18446744073709551615 :=
    numeral_iff.2 ⟨2, by decide +kernel⟩
  have hle : 18446744073709551615 ≤ 2 ^ 64 - 1 := by decide
  have hlarge : ∀ n, Numeral "18446744073709551616".toList n → 2 ^ 64 ≤ n := by
    rintro n ⟨-, -, rfl⟩
    decide +kernel
  exact ⟨hnumeral, hle, (set_retry_numeral d _).1 _ hnumeral hle, hlarge,
    (set_retry_numeral d _).2.1 hlarge⟩

example : ({ retry := some 3000 } : Draft).set ⟨"retry", "+5"⟩ = { retry := some 3000 } := by
  decide +kernel

end EventStream.Draft
