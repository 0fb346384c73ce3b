/-!
# Durations

A span of time, counted in nanoseconds and written as seconds and the nanoseconds beyond them.
-/

namespace EventStream

/-- A span of time. -/
@[ext] structure Duration where
  /-- The number of nanoseconds. -/
  nanoseconds : Nat
deriving DecidableEq, Repr

namespace Duration

/-- The nanoseconds of a second. -/
def perSecond : Nat := 1000000000

/-- A span of some seconds and nanoseconds. -/
def ofParts (seconds nanos : Nat) : Duration := ⟨seconds * perSecond + nanos⟩

/-- The whole seconds of a span. -/
def seconds (d : Duration) : Nat := d.nanoseconds / perSecond

/-- The nanoseconds of a span beyond its whole seconds. -/
def nanos (d : Duration) : Nat := d.nanoseconds % perSecond

variable {s n : Nat}

@[simp] theorem seconds_ofParts (h : n < perSecond) : (ofParts s n).seconds = s := by
  simp only [seconds, ofParts, perSecond] at h ⊢
  omega

@[simp] theorem nanos_ofParts (h : n < perSecond) : (ofParts s n).nanos = n := by
  simp only [nanos, ofParts, perSecond] at h ⊢
  omega

end Duration

end EventStream
