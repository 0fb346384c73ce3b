import EventStream.Delivery.Outcome
import EventStream.Event.Draft
import EventStream.Line.Pull
/-!
# Collecting events

Events can be collected into a list, up to a limit. Once the limit is reached the rest of the body
is left unread.

## Main definitions

* `limitOf`, `Reached` — the limit that a number of events stands for, and when it is reached
* `Connection.collectFrom` — collects from the middle of a stream
* `Connection.collect` — collects from the start of a stream

## Main results

* `collectFrom_of_end`, `collectFrom_of_fault`, `collectFrom_of_line` — what collecting does with
  each kind of pull
-/

namespace EventStream

/-- The limit that a number of events stands for: zero or less is no limit. -/
def limitOf (maxEvents : Int) : Option Nat :=
  if 0 < maxEvents then some maxEvents.toNat else none

/-- So many events are as many as the limit allows. -/
def Reached (limit : Option Nat) (count : Nat) : Prop := ∃ n ∈ limit, n ≤ count

instance (limit : Option Nat) (count : Nat) : Decidable (Reached limit count) :=
  match limit with
  | none => isFalse (by simp [Reached])
  | some n => decidable_of_iff (n ≤ count) (by simp [Reached])

theorem limitOf_of_nonpos {maxEvents : Int} (h : maxEvents ≤ 0) : limitOf maxEvents = none :=
  if_neg (Int.not_lt.2 h)

theorem limitOf_natCast {n : Nat} (h : 0 < n) : limitOf n = some n :=
  if_pos (Int.natCast_pos.2 h)

theorem reached_some {n count : Nat} : Reached (some n) count ↔ n ≤ count := by simp [Reached]

theorem not_reached_none (count : Nat) : ¬ Reached none count := by simp [Reached]

theorem Reached.mono {limit : Option Nat} {m n : Nat} (h : Reached limit m) (hle : m ≤ n) :
    Reached limit n := by
  obtain ⟨bound, hbound, hm⟩ := h
  exact ⟨bound, hbound, Nat.le_trans hm hle⟩

namespace Connection

/-- Collects events, given the splitter, the draft and the events so far. -/
def collectFrom (c : Connection) (limit : Option Nat) (s : Splitter) (d : Draft)
    (events : List Event) : Outcome × Connection :=
  match _h : s.pull c with
  | ⟨none, _, c⟩ => (⟨events ++ d.finish.1.toList, none⟩, c)
  | ⟨some (.error fault), _, c⟩ => (⟨events, some (.io fault)⟩, c)
  | ⟨some (.ok line), s, c⟩ =>
    match d.feed line with
    | (none, d) => c.collectFrom limit s d events
    | (some event, d) =>
      let events := events ++ [event]
      if Reached limit events.length then (⟨events, none⟩, c)
      else c.collectFrom limit s d events
termination_by s.remaining c
decreasing_by all_goals
  have hlt := Splitter.remaining_pull_lt (congrArg Pull.line _h)
  rwa [_h] at hlt

/-- Collects the events of a body, at most as many as asked for. -/
def collect (c : Connection) (contentType : Option String) (maxEvents : Int) :
    Outcome × Connection :=
  match checkContentType contentType with
  | .error e => (⟨[], some e⟩, c)
  | .ok () => c.collectFrom (limitOf maxEvents) {} {} []

variable {c : Connection} {limit : Option Nat} {s : Splitter} {d : Draft} {events : List Event}

theorem collect_of_not_announces {contentType : Option String} (h : ¬ Announces contentType)
    (c : Connection) (maxEvents : Int) :
    c.collect contentType maxEvents = (⟨[], some (.contentType contentType)⟩, c) := by
  rw [collect, checkContentType_of_not_announces h]

theorem collectFrom_of_end (h : (s.pull c).line = none) :
    c.collectFrom limit s d events =
      (⟨events ++ d.finish.1.toList, none⟩, (s.pull c).connection) := by
  rw [collectFrom]
  split <;> simp_all

theorem collectFrom_of_fault {fault : Fault} (h : (s.pull c).line = some (.error fault)) :
    c.collectFrom limit s d events = (⟨events, some (.io fault)⟩, (s.pull c).connection) := by
  rw [collectFrom]
  split <;> simp_all

theorem collectFrom_of_line {line : String} (h : (s.pull c).line = some (.ok line)) :
    c.collectFrom limit s d events =
      match d.feed line with
      | (none, d) => (s.pull c).connection.collectFrom limit (s.pull c).splitter d events
      | (some event, d) =>
        if Reached limit (events ++ [event]).length then
          (⟨events ++ [event], none⟩, (s.pull c).connection)
        else
          (s.pull c).connection.collectFrom limit (s.pull c).splitter d (events ++ [event]) := by
  rw [collectFrom]
  split
  · simp_all
  · simp_all
  · next line' s' c' heq =>
    rw [heq] at h ⊢
    cases h
    rfl

end Connection

end EventStream
