import Std.Data.TreeMap
/-!
# Headers

A header has a name and a value. Names are tokens, and two names that differ only in case are the
same; values are single lines of ASCII. A request has one value for each name, and a value that is
set later takes the place of an earlier one.

## Main definitions

* `Header` — a name with a value
* `IsToken`, `IsAscii`, `IsSingleLine` — what names and values have to be
* `Headers` — the headers of a request
-/

namespace EventStream

/-- A header. -/
@[ext] structure Header where
  /-- The name, in lower case. -/
  name : String
  /-- The value. -/
  value : String
deriving DecidableEq, Repr

/-- A character that may occur in the name of a header. -/
def IsTokenChar (c : Char) : Prop :=
  c.isAlphanum ∨ c ∈ "!#$%&\x27*+-.^_\x60|~".toList

instance (c : Char) : Decidable (IsTokenChar c) :=
  inferInstanceAs (Decidable (_ ∨ _))

/-- The text can be the name of a header: it is not empty and has no other characters than a name
may have. -/
def IsToken (name : String) : Prop :=
  name ≠ "" ∧ ∀ c ∈ name.toList, IsTokenChar c

instance (name : String) : Decidable (IsToken name) :=
  decidable_of_iff (name ≠ "" ∧ name.toList.all (IsTokenChar ·)) (by simp [IsToken])

/-- All characters of the text are ASCII. -/
def IsAscii (s : String) : Prop :=
  ∀ c ∈ s.toList, c.toNat < 0x80

instance (s : String) : Decidable (IsAscii s) :=
  decidable_of_iff (s.toList.all (·.toNat < 0x80)) (by simp [IsAscii])

/-- The text has no line end in it. -/
def IsSingleLine (s : String) : Prop :=
  '\r' ∉ s.toList ∧ '\n' ∉ s.toList

instance (s : String) : Decidable (IsSingleLine s) :=
  inferInstanceAs (Decidable (_ ∧ _))

/-- The headers of a request: for each name, in lower case, one value. -/
abbrev Headers := Std.TreeMap String String

/-- The headers of a list, where a later value takes the place of an earlier one of that name. -/
def Headers.ofList (headers : List Header) : Headers :=
  headers.foldl (fun all header => all.insert header.name header.value) ∅

end EventStream
