import EventStream.Proofs.Line.Ahead
/-!
# How far a body has been read

A body that is only asked for bytes while some are missing is read just as far as these bytes
reach: to somewhere in a chunk, or to its end, and no question has been asked behind it.

## Main definitions

* `Arrival.behind`, `Body.behind` — what is left behind a number of bytes

## Main results

* `behind_add` — taking bytes twice is taking all of them at once
* `behind_eq_putBack` — what is left of a chunk is put back
-/

namespace EventStream

namespace Arrival

/-- What is left to come once so many bytes have been taken, and nothing has been asked behind
them. -/
def behind : Nat → List Arrival → List Arrival
  | 0, arrivals => arrivals
  | _ + 1, [] => []
  | n + 1, .chunk bytes :: arrivals =>
    if n + 1 < bytes.length then .chunk (bytes.drop (n + 1)) :: arrivals
    else behind (n + 1 - bytes.length) arrivals
  | n + 1, _ :: arrivals => behind (n + 1) arrivals

variable {m n : Nat} {bytes : List UInt8} {arrivals : List Arrival}

@[simp] theorem behind_zero (arrivals : List Arrival) : behind 0 arrivals = arrivals := by
  cases arrivals <;> rfl

theorem behind_nil (n : Nat) : behind n [] = [] := by cases n <;> rfl

theorem behind_chunk_of_lt (hpos : 0 < n) (h : n < bytes.length) :
    behind n (.chunk bytes :: arrivals) = .chunk (bytes.drop n) :: arrivals := by
  obtain ⟨n, rfl⟩ := Nat.exists_eq_add_one.2 hpos
  exact if_pos h

theorem behind_chunk_of_le (hpos : 0 < n) (h : bytes.length ≤ n) :
    behind n (.chunk bytes :: arrivals) = behind (n - bytes.length) arrivals := by
  obtain ⟨n, rfl⟩ := Nat.exists_eq_add_one.2 hpos
  exact if_neg (Nat.not_lt.2 h)

theorem behind_pending (hpos : 0 < n) : behind n (.pending :: arrivals) = behind n arrivals := by
  obtain ⟨n, rfl⟩ := Nat.exists_eq_add_one.2 hpos
  rfl

theorem behind_cancel (hpos : 0 < n) (reason : String) :
    behind n (.cancel reason :: arrivals) = behind n arrivals := by
  obtain ⟨n, rfl⟩ := Nat.exists_eq_add_one.2 hpos
  rfl

theorem behind_fault (hpos : 0 < n) (fault : Fault) :
    behind n (.fault fault :: arrivals) = behind n arrivals := by
  obtain ⟨n, rfl⟩ := Nat.exists_eq_add_one.2 hpos
  rfl

/-- Taking bytes twice is taking all of them at once. -/
theorem behind_add (m n : Nat) (arrivals : List Arrival) :
    behind (m + n) arrivals = behind n (behind m arrivals) := by
  rcases Nat.eq_zero_or_pos m with rfl | hm
  · rw [Nat.zero_add, behind_zero]
  induction arrivals generalizing m with
  | nil => simp only [behind_nil]
  | cons a arrivals ih =>
    have hsum : 0 < m + n := Nat.add_pos_left hm n
    cases a with
    | pending => rw [behind_pending hsum, behind_pending hm, ih m hm]
    | fault fault => rw [behind_fault hsum, behind_fault hm, ih m hm]
    | cancel reason => rw [behind_cancel hsum, behind_cancel hm, ih m hm]
    | chunk bytes =>
      by_cases hlt : m < bytes.length
      · -- the first bytes end inside the chunk, and the others start there
        rw [behind_chunk_of_lt hm hlt]
        rcases Nat.eq_zero_or_pos n with rfl | hn
        · rw [Nat.add_zero, behind_zero, behind_chunk_of_lt hm hlt]
        · by_cases hlt' : m + n < bytes.length
          · rw [behind_chunk_of_lt hsum hlt', behind_chunk_of_lt hn (by simp; omega),
              List.drop_drop]
          · rw [behind_chunk_of_le hsum (by omega), behind_chunk_of_le hn (by simp; omega),
              List.length_drop]
            congr 1
            omega
      · rw [behind_chunk_of_le hsum (by omega), behind_chunk_of_le hm (by omega)]
        rcases Nat.eq_zero_or_pos (m - bytes.length) with hzero | hpos
        · rw [hzero, behind_zero]
          congr 1
          omega
        · rw [← ih _ hpos]
          congr 1
          omega

end Arrival

/-- What is left of a body behind so many bytes. -/
def Body.behind (b : Body) (n : Nat) : Body := ⟨Arrival.behind n b.arrivals, b.consumed + n⟩

@[simp] theorem Body.behind_zero (b : Body) : b.behind 0 = b := by simp [behind]

theorem Body.behind_behind (b : Body) (m n : Nat) : (b.behind m).behind n = b.behind (m + n) := by
  simp [behind, Arrival.behind_add, Nat.add_assoc]

namespace Splitter

open Arrival

variable {front : List UInt8}

/-- Behind the bytes that have been taken from a chunk, its rest is put back. -/
theorem behind_eq_putBack (hfront : front ≠ []) (rest : List UInt8) (arrivals : List Arrival) :
    Arrival.behind front.length (.chunk (front ++ rest) :: arrivals) = putBack rest arrivals := by
  have hpos := List.length_pos_iff.2 hfront
  unfold putBack
  split
  · next hrest =>
    subst hrest
    rw [behind_chunk_of_le hpos (by simp)]
    simp
  · next hrest =>
    have hlt := List.length_pos_iff.2 hrest
    rw [behind_chunk_of_lt hpos (by simp; omega), List.drop_left]

end Splitter

end EventStream
