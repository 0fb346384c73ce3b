/-!
# Bodies

The body of a response arrives piece by piece. A body is given by what happens each time it is asked
for bytes, in order; when nothing is left, it has ended.

## Main definitions

* `Fault` — why reading failed
* `Arrival` — what happens when a body is asked for bytes
* `Body` — the arrivals still to come, and how many bytes have been consumed
-/

namespace EventStream

/-- A failure to read. -/
@[ext] structure Fault where
  /-- The kind of failure, under the name that its reporter uses. -/
  kind : String
  /-- What failed, in words. -/
  text : String
deriving DecidableEq, Repr

/-- The failure that stands for bytes that are not UTF-8. -/
def Fault.invalidText : Fault := ⟨"InvalidData", "stream did not contain valid UTF-8"⟩

/-- What happens when a body is asked for bytes. -/
inductive Arrival where
  /-- These bytes are there. No bytes mean that the body has ended, as far as this question goes:
  a later question goes on with the next arrival. -/
  | chunk (bytes : List UInt8)
  /-- Nothing is there yet, and the question has to be asked again. -/
  | pending
  /-- Reading fails. -/
  | fault (fault : Fault)
  /-- Somebody cancels meanwhile, and the next arrival answers. -/
  | cancel (reason : String)
deriving DecidableEq, Repr

namespace Arrival

/-- The arrivals of some bytes in chunks of at most `n` bytes. Without bytes, or with `n = 0`, there
is one chunk. -/
def split (n : Nat) (bytes : List UInt8) : List Arrival :=
  if 0 < n ∧ n < bytes.length then
    .chunk (bytes.take n) :: split n (bytes.drop n)
  else [.chunk bytes]
termination_by bytes.length
decreasing_by rw [List.length_drop]; omega

/-- The number of bytes of an arrival, plus one for the arrival itself. -/
def size : Arrival → Nat
  | chunk bytes => bytes.length + 1
  | _ => 1

end Arrival

/-- A body that is being read. -/
@[ext] structure Body where
  /-- What is still to come. -/
  arrivals : List Arrival := []
  /-- The number of bytes consumed so far. -/
  consumed : Nat := 0
deriving DecidableEq, Repr

namespace Body

/-- A bound on the questions that a body can still answer other than by its end. -/
def size (b : Body) : Nat := b.arrivals.foldr (fun a n => a.size + n) 0

@[simp] theorem size_nil (n : Nat) : (Body.mk [] n).size = 0 := rfl

@[simp] theorem size_cons (a : Arrival) (arrivals : List Arrival) (n : Nat) :
    (Body.mk (a :: arrivals) n).size = a.size + (Body.mk arrivals n).size := rfl

end Body

end EventStream
