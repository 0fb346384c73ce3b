/-!
# Fields

A line of a stream is empty, a comment or a field. A comment starts with a colon. Any other
non-empty line is a field: its name ends at the first colon, and one space after that colon does
not belong to the value. A line without a colon is a name with an empty value.

## Main definitions

* `Field` — a name and a value
* `Field.ofLine?` — the field that a line holds
-/

namespace EventStream

/-- A named value from one line of a stream. -/
@[ext] structure Field where
  /-- What the value is for. -/
  name : String
  /-- The value. -/
  value : String
deriving DecidableEq, Repr

namespace Field

/-- Removes one space from the front, if there is one. -/
def dropSpace : List Char → List Char
  | ' ' :: cs => cs
  | cs => cs

/-- The field that a line holds, or nothing for a comment. -/
def ofLine? (line : String) : Option Field :=
  if line.toList.head? = some ':' then none
  else some {
    name := String.ofList (line.toList.takeWhile (· != ':'))
    value := String.ofList (dropSpace (line.toList.dropWhile (· != ':')).tail) }

variable {name : List Char}

/-- A line is a comment exactly when it starts with a colon. -/
theorem ofLine?_eq_none_iff {line : String} :
    ofLine? line = none ↔ line.toList.head? = some ':' := by
  simp [ofLine?]

/-- The name of a field ends at the first colon. -/
theorem ofLine?_append_colon (hne : name ≠ []) (hname : ':' ∉ name) (cs : List Char) :
    ofLine? (String.ofList (name ++ ':' :: cs)) =
      some ⟨String.ofList name, String.ofList (dropSpace cs)⟩ := by
  have hall : ∀ c ∈ name, (c != ':') = true := by
    intro c hc
    exact bne_iff_ne.2 fun h => hname (h ▸ hc)
  have hhead : (name ++ ':' :: cs).head? ≠ some ':' := by
    cases name with
    | nil => exact absurd rfl hne
    | cons c name =>
      intro h
      exact hname (Option.some.inj h ▸ List.mem_cons_self)
  simp only [ofLine?, String.toList_ofList, hhead, if_false,
    List.takeWhile_append_of_pos hall, List.dropWhile_append_of_pos hall]
  simp

/-- A line without a colon is a name with an empty value. -/
theorem ofLine?_of_notMem (hname : ':' ∉ name) :
    ofLine? (String.ofList name) = some ⟨String.ofList name, ""⟩ := by
  have hall : ∀ c ∈ name, (c != ':') = true := by
    intro c hc
    exact bne_iff_ne.2 fun h => hname (h ▸ hc)
  have hhead : name.head? ≠ some ':' := fun h => hname (List.mem_of_mem_head? h)
  have htake : name.takeWhile (· != ':') = name := by
    have h := @List.takeWhile_append_of_pos _ (· != ':') name [] hall
    simpa only [List.append_nil, List.takeWhile_nil] using h
  have hdrop : name.dropWhile (· != ':') = [] := by
    have h := @List.dropWhile_append_of_pos _ (· != ':') name [] hall
    simpa only [List.append_nil, List.dropWhile_nil] using h
  simp only [ofLine?, String.toList_ofList, hhead, if_false, htake, hdrop]
  simp [dropSpace]

example : ofLine? "data:  x:y" = some ⟨"data", " x:y"⟩ := by decide +kernel

end Field

end EventStream
