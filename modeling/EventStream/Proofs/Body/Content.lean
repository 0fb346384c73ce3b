import EventStream.Line.Pull
/-!
# What a body brings before it stops

A body that is read stops where it first tells that it has ended or that reading fails. What comes
before is a text of bytes; in how many pieces it comes, and how often a question has to be asked
again, is not part of it.

## Main definitions

* `Arrival.bytes`, `Arrival.failure` — the bytes before the first stop, and why the body stops
* `Arrival.reasons` — the cancellations on the way
* `Arrival.Quiet` — nobody cancels on the way
* `Arrival.Bring` — the arrivals bring certain bytes and nothing else
-/

namespace EventStream

namespace Arrival

/-- The bytes that come before the first stop. -/
def bytes : List Arrival → List UInt8
  | [] => []
  | .chunk piece :: arrivals => if piece = [] then [] else piece ++ bytes arrivals
  | .fault _ :: _ => []
  | .pending :: arrivals => bytes arrivals
  | .cancel _ :: arrivals => bytes arrivals

/-- The failure at the first stop, or nothing where the body just ends. -/
def failure : List Arrival → Option Fault
  | [] => none
  | .chunk piece :: arrivals => if piece = [] then none else failure arrivals
  | .fault f :: _ => some f
  | .pending :: arrivals => failure arrivals
  | .cancel _ :: arrivals => failure arrivals

/-- The reasons of the cancellations that come before the first stop, in order. -/
def reasons : List Arrival → List String
  | [] => []
  | .chunk piece :: arrivals => if piece = [] then [] else reasons arrivals
  | .fault _ :: _ => []
  | .pending :: arrivals => reasons arrivals
  | .cancel reason :: arrivals => reason :: reasons arrivals

/-- Nobody cancels before the first stop. -/
def Quiet (arrivals : List Arrival) : Prop := reasons arrivals = []

instance (arrivals : List Arrival) : Decidable (Quiet arrivals) :=
  inferInstanceAs (Decidable (reasons arrivals = []))

/-- The arrivals bring these bytes, in whatever chunks and after whatever waiting, and then the body
stops with this failure or just ends. Nobody cancels before. -/
def Bring (arrivals : List Arrival) (text : List UInt8) (stop : Option Fault) : Prop :=
  bytes arrivals = text ∧ failure arrivals = stop ∧ Quiet arrivals

instance (arrivals : List Arrival) (text : List UInt8) (stop : Option Fault) :
    Decidable (Bring arrivals text stop) :=
  inferInstanceAs (Decidable (bytes arrivals = text ∧ failure arrivals = stop ∧ Quiet arrivals))

variable {piece : List UInt8}

theorem bytes_chunk (h : piece ≠ []) (arrivals : List Arrival) :
    bytes (.chunk piece :: arrivals) = piece ++ bytes arrivals := by
  rw [bytes, if_neg h]

theorem failure_chunk (h : piece ≠ []) (arrivals : List Arrival) :
    failure (.chunk piece :: arrivals) = failure arrivals := by
  rw [failure, if_neg h]

theorem reasons_chunk (h : piece ≠ []) (arrivals : List Arrival) :
    reasons (.chunk piece :: arrivals) = reasons arrivals := by
  rw [reasons, if_neg h]

end Arrival

namespace Splitter

open Arrival

variable (rest : List UInt8) (arrivals : List Arrival)

@[simp] theorem bytes_putBack : bytes (putBack rest arrivals) = rest ++ bytes arrivals := by
  unfold putBack
  split
  · next h => rw [h, List.nil_append]
  · next h => exact bytes_chunk h arrivals

@[simp] theorem failure_putBack : failure (putBack rest arrivals) = failure arrivals := by
  unfold putBack
  split
  · rfl
  · next h => exact failure_chunk h arrivals

@[simp] theorem reasons_putBack : reasons (putBack rest arrivals) = reasons arrivals := by
  unfold putBack
  split
  · rfl
  · next h => exact reasons_chunk h arrivals

end Splitter

end EventStream
