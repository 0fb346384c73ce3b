import EventStream.Proofs.Event.Writing
import Mathlib.Data.List.DropRight
/-!
# What an event owes to the lines before it

A draft is built up step by step, and completing an event empties it. Seen from outside, an event is
a function of the lines that have been fed since the last event: their data joined, and the last
identifier, type and valid reconnection time among them. Empty lines that complete nothing, and
comments, take nothing away from this.

## Main definitions

* `Field.Holds` — which field a line holds, by the forms that a line can have
* `Field.values` — the values that some lines give to a name
* `Draft.told` — the draft of some lines, read off them as a whole
* `Draft.Use`, `Draft.record` — what is asked of a draft, and what it answers
* `Draft.linesSince` — the lines fed since the last event

## Main results

* `Field.holds_iff` — every line has exactly one form
* `after_eq_told` — a draft is what the lines since the last event tell
* `use_after` — which uses complete an event, and which event that is
-/

namespace EventStream

/-! ### The forms of a line -/

namespace Field

/-- The field that a line holds. A colon in front makes a comment; otherwise the name ends at the
first colon, and one space behind that colon does not count. -/
inductive Holds : String → Option Field → Prop
  | comment (text : String) : Holds (":" ++ text) none
  | bare {name : String} : ':' ∉ name.toList → Holds name (some ⟨name, ""⟩)
  | spaced {name : String} (value : String) : name ≠ "" → ':' ∉ name.toList →
      Holds (name ++ ": " ++ value) (some ⟨name, value⟩)
  | tight {name value : String} : name ≠ "" → ':' ∉ name.toList → value.toList.head? ≠ some ' ' →
      Holds (name ++ ":" ++ value) (some ⟨name, value⟩)

variable {line name : String} {field : Option Field}

theorem ofLine?_comment (text : String) : ofLine? (":" ++ text) = none := by
  rw [ofLine?_eq_none_iff, String.toList_append]
  rfl

theorem ofLine?_bare (hname : ':' ∉ name.toList) : ofLine? name = some ⟨name, ""⟩ := by
  have h := ofLine?_of_notMem hname
  rwa [String.ofList_toList] at h

theorem ofLine?_empty : ofLine? "" = some ⟨"", ""⟩ := by decide

theorem toList_colon (name text : String) :
    (name ++ ":" ++ text).toList = name.toList ++ ':' :: text.toList := by
  rw [String.toList_append, String.toList_append, List.append_assoc]
  rfl

/-- Whatever stands behind the first colon is the value, but for one space. -/
theorem ofLine?_colon (hne : name ≠ "") (hname : ':' ∉ name.toList) (text : String) :
    ofLine? (name ++ ":" ++ text) = some ⟨name, String.ofList (dropSpace text.toList)⟩ := by
  have h := ofLine?_append_colon (mt String.toList_eq_nil_iff.1 hne) hname text.toList
  rwa [← toList_colon, String.ofList_toList, String.ofList_toList] at h

theorem append_colon_space (name value : String) :
    name ++ ": " ++ value = name ++ ":" ++ (" " ++ value) := by
  have hcolon : (": " : String) = ":" ++ " " := rfl
  rw [hcolon, String.append_assoc, String.append_assoc, String.append_assoc]

theorem dropSpace_space (value : String) : dropSpace (" " ++ value).toList = value.toList := by
  rw [String.toList_append]
  rfl

theorem dropSpace_eq_self {cs : List Char} (h : cs.head? ≠ some ' ') : dropSpace cs = cs := by
  unfold dropSpace
  split
  · exact absurd rfl h
  · rfl

/-- A line has the form that reading it finds. -/
theorem Holds.ofLine?_eq (h : Holds line field) : ofLine? line = field := by
  cases h with
  | comment text => exact ofLine?_comment text
  | bare hname => exact ofLine?_bare hname
  | @spaced name value hne hname =>
    rw [append_colon_space, ofLine?_colon hne hname, dropSpace_space, String.ofList_toList]
  | @tight name value hne hname hvalue =>
    rw [ofLine?_colon hne hname, dropSpace_eq_self hvalue, String.ofList_toList]

/-- Behind the colon there is a space, or there is none. -/
theorem holds_colon (hne : name ≠ "") (hname : ':' ∉ name.toList) (text : String) :
    Holds (name ++ ":" ++ text) (some ⟨name, String.ofList (dropSpace text.toList)⟩) := by
  by_cases hspace : text.toList.head? = some ' '
  · -- the space goes to the colon, and the value is what follows it
    obtain ⟨value, hvalue⟩ := List.head?_eq_some_iff.1 hspace
    obtain rfl : text = " " ++ String.ofList value := by
      apply String.toList_inj.1
      simp [hvalue]
    rw [← append_colon_space, dropSpace_space, String.ofList_toList]
    exact .spaced _ hne hname
  · rw [dropSpace_eq_self hspace, String.ofList_toList]
    exact .tight hne hname hspace

/-- Every line has a form: what stands in front of its first colon decides. -/
theorem holds_ofLine? (line : String) : Holds line (ofLine? line) := by
  by_cases hcolon : ':' ∈ line.toList
  · -- the text in front of the first colon is the name, or the line is a comment
    obtain ⟨name, text, hline, hname⟩ := List.eq_append_cons_of_mem hcolon
    obtain ⟨name, rfl⟩ : ∃ s : String, name = s.toList := ⟨_, String.toList_ofList.symm⟩
    obtain ⟨text, rfl⟩ : ∃ s : String, text = s.toList := ⟨_, String.toList_ofList.symm⟩
    rw [← toList_colon, String.toList_inj] at hline
    subst hline
    by_cases hempty : name = ""
    · rw [hempty, String.empty_append, ofLine?_comment]
      exact .comment text
    · rw [ofLine?_colon hempty hname]
      exact holds_colon hempty hname text
  · rw [ofLine?_bare hcolon]
    exact .bare hcolon

/-- Every line has exactly one form, and holds what reading it finds. -/
theorem holds_iff : Holds line field ↔ ofLine? line = field := by
  constructor
  · exact Holds.ofLine?_eq
  · rintro rfl
    exact holds_ofLine? line

/-- The values that the lines give to a name, in order. -/
def values (name : String) (lines : List String) : List String :=
  (lines.filterMap ofLine?).filterMap fun f => if f.name = name then some f.value else none

theorem values_append (name : String) (lines more : List String) :
    values name (lines ++ more) = values name lines ++ values name more := by
  simp only [values, List.filterMap_append]

theorem values_of_eq_none (h : ofLine? line = none) (name : String) :
    values name [line] = [] := by
  rw [values, List.filterMap_cons_none h]
  rfl

theorem values_of_eq_some {f : Field} (h : ofLine? line = some f) (name : String) :
    values name [line] = if f.name = name then [f.value] else [] := by
  rw [values, List.filterMap_cons_some h, List.filterMap_nil, List.filterMap_cons]
  split <;> split <;> simp_all

end Field

/-! ### Drafts -/

namespace Draft

open EventStream.Field

/-- The draft that some lines make, each part of it read off the lines as a whole. -/
def told (lines : List String) : Draft where
  id := (values "id" lines).getLast?.getD ""
  type := (values "event" lines).getLast?.getD ""
  retry := ((values "retry" lines).filterMap Text.word?).getLast?
  data := values "data" lines

/-- The event of a draft, complete or not. -/
def event (d : Draft) : Event := ⟨d.id, d.type, "\n".intercalate d.data, d.retry⟩

theorem told_append_of_eq_none {line : String} (h : ofLine? line = none) (lines : List String) :
    told (lines ++ [line]) = told lines := by
  simp only [told, values_append, values_of_eq_none h, List.append_nil]

/-- One more field is set in the draft. -/
theorem told_append_of_eq_some {line : String} {f : Field} (h : ofLine? line = some f)
    (lines : List String) : told (lines ++ [line]) = (told lines).set f := by
  have hvalues : ∀ name, values name (lines ++ [line]) =
      values name lines ++ if f.name = name then [f.value] else [] := fun name => by
    rw [values_append, values_of_eq_some h]
  -- the name decides which one of the four parts gets a value
  unfold set
  split
  · next hname => simp [told, hvalues, hname]
  · next hname => simp [told, hvalues, hname]
  · next hname => simp [told, hvalues, hname]
  · next hname => simp [told, hvalues, hname]
  · next hevent hdata hid hretry =>
    simp only [told, hvalues, if_neg hevent, if_neg hdata, if_neg hid, if_neg hretry,
      List.append_nil]

/-! ### Uses -/

/-- What can be asked of a draft. -/
inductive Use where
  /-- A line is fed. -/
  | line (text : String)
  /-- The stream has ended. -/
  | finish
deriving DecidableEq, Repr

/-- The line that is fed, if any. -/
def Use.line? : Use → Option String
  | .line text => some text
  | .finish => none

/-- The event that a use completes, and the draft after it. -/
def use (d : Draft) : Use → Option Event × Draft
  | .line text => d.feed text
  | .finish => d.finish

/-- The uses one after the other, each with its answer. -/
def record (d : Draft) : List Use → List (Use × Option Event)
  | [] => []
  | use :: uses => (use, (d.use use).1) :: (d.use use).2.record uses

/-- The draft after some uses. -/
def after (d : Draft) (uses : List Use) : Draft := uses.foldl (fun d use => (d.use use).2) d

/-- The lines that have been fed since the last event, or since the start. -/
def linesSince (uses : List Use) : List String :=
  ((record {} uses).rtakeWhile (·.2 = none)).filterMap (·.1.line?)

variable {d : Draft} {uses : List Use}

theorem after_append (d : Draft) (uses : List Use) (use : Use) :
    d.after (uses ++ [use]) = ((d.after uses).use use).2 := by
  rw [after, List.foldl_append]
  rfl

theorem record_append (d : Draft) (uses : List Use) (use : Use) :
    d.record (uses ++ [use]) = d.record uses ++ [(use, ((d.after uses).use use).1)] := by
  induction uses generalizing d with
  | nil => rfl
  | cons first uses ih =>
    rw [List.cons_append, record, ih]
    rfl

/-- An event leaves no lines behind. -/
theorem linesSince_append_of_eq_some {use : Use} {event : Event}
    (h : ((after {} uses).use use).1 = some event) : linesSince (uses ++ [use]) = [] := by
  rw [linesSince, record_append, List.rtakeWhile_concat_neg, List.filterMap_nil]
  simp [h]

/-- A use that completes nothing adds the line that it feeds. -/
theorem linesSince_append_of_eq_none {use : Use} (h : ((after {} uses).use use).1 = none) :
    linesSince (uses ++ [use]) = linesSince uses ++ use.line?.toList := by
  rw [linesSince, record_append, List.rtakeWhile_concat_pos, List.filterMap_append]
  · cases use <;> rfl
  · simp [h]

/-- An empty line holds no field that counts. -/
theorem told_append_empty (lines : List String) : told (lines ++ [""]) = told lines := by
  rw [told_append_of_eq_some ofLine?_empty]
  rfl

/-- Completing the draft of some lines takes a data line among them. -/
theorem finish_told (lines : List String) :
    (told lines).finish =
      if values "data" lines ≠ [] then (some (told lines).event, {}) else (none, told lines) := by
  split
  · next hdata => exact finish_of_data_ne_nil hdata
  · next hdata => exact finish_of_data_eq_nil (not_not.1 hdata)

/-- A use completes an event, or the draft goes on with what has been fed. -/
theorem use_told (lines : List String) (use : Use) :
    (told lines).use use =
      if (use = .finish ∨ use = .line "") ∧ values "data" lines ≠ []
      then (some (told lines).event, {})
      else (none, told (lines ++ use.line?.toList)) := by
  cases use with
  | finish => simpa [Draft.use, Use.line?] using finish_told lines
  | line text =>
    by_cases hempty : text = ""
    · subst hempty
      simpa [Draft.use, Use.line?, told_append_empty] using finish_told lines
    · -- a line that is not empty only adds to the draft
      have hnot : ¬ ((Use.line text = .finish ∨ Use.line text = .line "") ∧
          values "data" lines ≠ []) := by simp [hempty]
      rw [if_neg hnot, Draft.use, Use.line?, Option.toList_some]
      cases h : ofLine? text with
      | none => rw [feed_of_ofLine?_eq_none h, told_append_of_eq_none h]
      | some f => rw [feed_of_ofLine?_eq_some hempty h, told_append_of_eq_some h]

/-- A draft is what the lines since the last event tell. -/
theorem after_eq_told (uses : List Use) : after {} uses = told (linesSince uses) := by
  -- the lines since the last event start anew where the draft does
  induction uses using List.reverseRecOn with
  | nil => rfl
  | append_singleton uses use ih =>
    have huse := use_told (linesSince uses) use
    rw [after_append]
    rw [← ih] at huse
    split at huse
    · -- an event leaves neither lines nor a draft behind
      rw [huse, linesSince_append_of_eq_some (congrArg Prod.fst huse)]
      rfl
    · rw [huse, linesSince_append_of_eq_none (congrArg Prod.fst huse)]

/-- Which uses complete an event, and which event that is. An event is completed by the end of the
stream or by an empty line, and only if a data line has been fed since the last event. It joins the
values of these data lines, and bears the last identifier and type and the last valid reconnection
time that have been fed since. The end of the stream does to any draft what an empty line does; and
every line has one form, which says what field it holds. -/
theorem use_after (uses : List Use) (use : Use) :
    let lines := linesSince uses
    ((after {} uses).use use).1 =
        (if (use = .finish ∨ use = .line "") ∧ values "data" lines ≠ [] then
          some {
            id := (values "id" lines).getLast?.getD ""
            type := (values "event" lines).getLast?.getD ""
            data := "\n".intercalate (values "data" lines)
            retry := ((values "retry" lines).filterMap Text.word?).getLast? }
        else none) ∧
      (∀ d : Draft, d.use .finish = d.use (.line "")) ∧
      ∀ line field, Holds line field ↔ ofLine? line = field := by
  intro lines
  refine ⟨?_, fun _ => rfl, fun _ _ => holds_iff⟩
  rw [after_eq_told, use_told]
  split
  · rfl
  · rfl

example :
    ((after {} [.line "id: 7", .line "", .line "data:a", .line ":"]).use .finish).1 =
      some { id := "7", data := "a" } := by decide +kernel

end Draft

end EventStream
