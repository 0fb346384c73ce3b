import EventStream.Line.Splitter
/-!
# The lines of a whole text

A text that is there as a whole is cut at each line feed, at each carriage return, and at each pair
of both, which counts once. The same rule serves for bytes and for characters, so it is stated for
any alphabet with two symbols that end lines.

Two forms of the rule stand side by side. `LineEnds.cut` computes the lines from the back, each with
the text behind it; `LineEnds.Lined` says what it means for a text to consist of certain lines and a
tail. They agree, and the relation carries the inductions of the files that follow.

## Main definitions

* `LineEnds` — the two symbols of an alphabet that end lines
* `Row`, `LineEnds.cut` — a line with what follows it, and all lines of a text with its tail
* `LineEnds.lines` — the lines of a text that has ended, a tail included
* `Terminator`, `LineEnds.Lined` — what it means to consist of lines

## Main results

* `lined_iff` — a text consists of exactly the lines that cutting gives
* `cut_append_cons` — the first line ends at the first symbol that ends lines
* `Lined.append` — behind a terminator, what follows adds its own lines
-/

namespace EventStream

/-- The two symbols of an alphabet that end lines. -/
structure LineEnds (α : Type) where
  /-- The carriage return. -/
  cr : α
  /-- The line feed. -/
  lf : α
  cr_ne_lf : cr ≠ lf

/-- The symbols that end lines in bytes. -/
def byteEnds : LineEnds UInt8 := ⟨carriageReturn, lineFeed, by decide⟩

/-- The symbols that end lines in text. -/
def charEnds : LineEnds Char := ⟨'\r', '\n', by decide⟩

/-- A line of a text, without its terminator, and the text behind the terminator. -/
@[ext] structure Row (α : Type) where
  /-- The symbols of the line. -/
  line : List α
  /-- The text behind the terminator. -/
  rest : List α
deriving DecidableEq, Repr

/-- What can stand between two lines. -/
inductive Terminator where
  /-- A line feed. -/
  | lineFeed
  /-- A carriage return. -/
  | carriageReturn
  /-- A carriage return and a line feed. -/
  | both
deriving DecidableEq, Repr

namespace LineEnds

variable {α : Type} (e : LineEnds α)

/-- The symbol is one of the two that end lines. -/
def Ends (a : α) : Prop := a = e.cr ∨ a = e.lf

instance [DecidableEq α] (a : α) : Decidable (e.Ends a) :=
  inferInstanceAs (Decidable (a = e.cr ∨ a = e.lf))

theorem ends_cr : e.Ends e.cr := Or.inl rfl

theorem ends_lf : e.Ends e.lf := Or.inr rfl

/-- The symbols of a terminator. -/
def symbols : Terminator → List α
  | .lineFeed => [e.lf]
  | .carriageReturn => [e.cr]
  | .both => [e.cr, e.lf]

/-- What is left behind a symbol that ended a line: a line feed behind a carriage return belongs to
the same terminator. -/
def behind [DecidableEq α] (b : α) (rest : List α) : List α :=
  if b = e.cr ∧ rest.head? = some e.lf then rest.tail else rest

theorem behind_eq_tail [DecidableEq α] {b : α} {rest : List α}
    (h : b = e.cr ∧ rest.head? = some e.lf) : e.behind b rest = rest.tail := if_pos h

theorem behind_eq_self [DecidableEq α] {b : α} {rest : List α}
    (h : ¬ (b = e.cr ∧ rest.head? = some e.lf)) : e.behind b rest = rest := if_neg h

/-- The rows of a text, and the text behind the last terminator. A carriage return in front of a
line feed adds nothing to what the line feed does. -/
def cut [DecidableEq α] : List α → List (Row α) × List α
  | [] => ([], [])
  | a :: rest =>
    if a = e.cr ∧ rest.head? = some e.lf then cut rest
    else if e.Ends a then (⟨[], rest⟩ :: (cut rest).1, (cut rest).2)
    else match cut rest with
      | ([], tail) => ([], a :: tail)
      | (row :: rows, tail) => (⟨a :: row.line, row.rest⟩ :: rows, tail)

/-- The lines of a text that has ended: what follows the last terminator is a line too, unless it is
empty. -/
def lines [DecidableEq α] (text : List α) : List (List α) :=
  (e.cut text).1.map Row.line ++ if (e.cut text).2 = [] then [] else [(e.cut text).2]

/-- The text consists of these rows, each with its terminator, and of this tail. A lone carriage
return ends a line only where no line feed follows. -/
inductive Lined : List α → List (Row α) → List α → Prop
  | tail {text : List α} : (∀ a ∈ text, ¬ e.Ends a) → Lined text [] text
  | line {text rest : List α} {rows : List (Row α)} {tail : List α} (t : Terminator) :
      (∀ a ∈ text, ¬ e.Ends a) → (t = .carriageReturn → rest.head? ≠ some e.lf) →
      Lined rest rows tail → Lined (text ++ e.symbols t ++ rest) (⟨text, rest⟩ :: rows) tail

/-- The end of a line parts the text from what follows. Between the two symbols of a pair nothing is
parted. -/
def Parts (text rest : List α) : Prop :=
  ∃ b ∈ text.getLast?, e.Ends b ∧ (b = e.cr → rest.head? ≠ some e.lf)

variable {e} {text rest : List α} {rows : List (Row α)} {tail : List α}

/-- A line in front of the front of a text. What follows its terminator there follows it in the
text. -/
theorem Lined.cons_front {line front : List α} (t : Terminator) (hline : ∀ a ∈ line, ¬ e.Ends a)
    (ht : t = .carriageReturn → (front ++ rest).head? ≠ some e.lf)
    (h : e.Lined front rows []) :
    e.Lined (line ++ e.symbols t ++ front) (⟨line, front⟩ :: rows) [] := by
  refine .line t hline (fun hcr hhead => ht hcr ?_) h
  rw [List.head?_append, hhead]
  rfl

variable [DecidableEq α]

theorem cut_of_forall_not_ends (htext : ∀ a ∈ text, ¬ e.Ends a) : e.cut text = ([], text) := by
  induction text with
  | nil => rfl
  | cons a text ih =>
    have ha := htext a List.mem_cons_self
    have hcr : a ≠ e.cr := fun h => ha (Or.inl h)
    rw [cut, if_neg (fun h => hcr h.1), if_neg ha,
      ih fun b hb => htext b (List.mem_cons_of_mem a hb)]

/-- The first line ends at the first symbol that ends lines. -/
theorem cut_append_cons (htext : ∀ a ∈ text, ¬ e.Ends a) {b : α} (hb : e.Ends b) (rest : List α) :
    e.cut (text ++ b :: rest) =
      (⟨text, e.behind b rest⟩ :: (e.cut (e.behind b rest)).1, (e.cut (e.behind b rest)).2) := by
  induction text with
  | nil =>
    rw [List.nil_append, cut]
    by_cases hpair : b = e.cr ∧ rest.head? = some e.lf
    · -- the line feed behind the carriage return makes the line
      rw [if_pos hpair, e.behind_eq_tail hpair]
      obtain ⟨rest', rfl⟩ := List.head?_eq_some_iff.1 hpair.2
      rw [List.tail_cons, cut, if_neg fun h => e.cr_ne_lf h.1.symm, if_pos e.ends_lf]
    · -- the symbol ends an empty line by itself
      rw [if_neg hpair, e.behind_eq_self hpair, if_pos hb]
  | cons a text ih =>
    have ha := htext a List.mem_cons_self
    have hcr : a ≠ e.cr := fun h => ha (Or.inl h)
    rw [List.cons_append, cut, if_neg (fun h => hcr h.1), if_neg ha,
      ih fun c hc => htext c (List.mem_cons_of_mem a hc)]

/-- Symbols in front that do not end lines go to the first line, or to the tail where there is
none. -/
theorem cut_append (htext : ∀ a ∈ text, ¬ e.Ends a) (rest : List α) :
    e.cut (text ++ rest) =
      match e.cut rest with
      | ([], tail) => ([], text ++ tail)
      | (row :: rows, tail) => (⟨text ++ row.line, row.rest⟩ :: rows, tail) := by
  induction text with
  | nil =>
    rw [List.nil_append]
    rcases e.cut rest with ⟨_ | ⟨row, rows⟩, tail⟩ <;> rfl
  | cons a text ih =>
    have ha := htext a List.mem_cons_self
    have hcr : a ≠ e.cr := fun h => ha (Or.inl h)
    rw [List.cons_append, cut, if_neg (fun h => hcr h.1), if_neg ha,
      ih fun b hb => htext b (List.mem_cons_of_mem a hb)]
    rcases e.cut rest with ⟨_ | ⟨row, rows⟩, tail⟩ <;> rfl

/-- A line feed behind a carriage return at the end of a text ends no other line. -/
theorem cut_append_cr_lf (e : LineEnds α) (text : List α) :
    (e.cut (text ++ [e.cr, e.lf])).1.map Row.line = (e.cut (text ++ [e.cr])).1.map Row.line ∧
      (e.cut (text ++ [e.cr, e.lf])).2 = (e.cut (text ++ [e.cr])).2 := by
  induction text with
  | nil => simp [cut, Ends, e.cr_ne_lf.symm]
  | cons a text ih =>
    have hhead : (text ++ [e.cr, e.lf]).head? = (text ++ [e.cr]).head? := by cases text <;> rfl
    rw [List.cons_append, List.cons_append, cut, cut, hhead]
    by_cases hpair : a = e.cr ∧ (text ++ [e.cr]).head? = some e.lf
    · rw [if_pos hpair, if_pos hpair]
      exact ih
    · rw [if_neg hpair, if_neg hpair]
      by_cases hends : e.Ends a
      · rw [if_pos hends, if_pos hends]
        exact ⟨congrArg ([] :: ·) ih.1, ih.2⟩
      · rw [if_neg hends, if_neg hends]
        -- the symbol goes to the first line, which is there in both cases or in none
        rcases hcut : e.cut (text ++ [e.cr, e.lf]) with ⟨_ | ⟨row, rows⟩, tail⟩ <;>
          rcases hcut' : e.cut (text ++ [e.cr]) with ⟨_ | ⟨row', rows'⟩, tail'⟩ <;>
          simp_all

/-- A terminator starts with a symbol that ends lines, and what follows the terminator is what that
symbol leaves behind. -/
theorem exists_behind_eq (t : Terminator) (ht : t = .carriageReturn → rest.head? ≠ some e.lf) :
    ∃ b rest', e.Ends b ∧ e.symbols t ++ rest = b :: rest' ∧ e.behind b rest' = rest := by
  cases t with
  | lineFeed =>
    exact ⟨e.lf, rest, e.ends_lf, rfl, e.behind_eq_self fun h => e.cr_ne_lf h.1.symm⟩
  | carriageReturn =>
    exact ⟨e.cr, rest, e.ends_cr, rfl, e.behind_eq_self fun h => ht rfl h.2⟩
  | both =>
    exact ⟨e.cr, e.lf :: rest, e.ends_cr, rfl, e.behind_eq_tail ⟨rfl, rfl⟩⟩

/-- A text that consists of certain rows is cut into these. -/
theorem Lined.cut_eq (h : e.Lined text rows tail) : e.cut text = (rows, tail) := by
  induction h with
  | tail htext => exact cut_of_forall_not_ends htext
  | line t htext ht _ ih =>
    -- cutting looks at the first symbol of the terminator only
    obtain ⟨b, rest', hb, hsymbols, hbehind⟩ := exists_behind_eq t ht
    rw [List.append_assoc, hsymbols, cut_append_cons htext hb, hbehind, ih]

/-- A symbol that ends lines starts a terminator, and what it leaves behind follows it. -/
theorem exists_symbols {b : α} (hb : e.Ends b) (rest : List α) :
    ∃ t, b :: rest = e.symbols t ++ e.behind b rest ∧
      (t = .carriageReturn → (e.behind b rest).head? ≠ some e.lf) := by
  -- a carriage return is a terminator of its own unless a line feed follows
  by_cases hpair : b = e.cr ∧ rest.head? = some e.lf
  · obtain ⟨rest', rfl⟩ := List.head?_eq_some_iff.1 hpair.2
    refine ⟨.both, ?_, fun h => Terminator.noConfusion h⟩
    rw [e.behind_eq_tail hpair, hpair.1]
    rfl
  · rw [e.behind_eq_self hpair]
    rcases hb with rfl | rfl
    · exact ⟨.carriageReturn, rfl, fun _ h => hpair ⟨rfl, h⟩⟩
    · exact ⟨.lineFeed, rfl, fun h => Terminator.noConfusion h⟩

theorem behind_append {b : α} (h : rest ≠ []) (more : List α) :
    e.behind b (rest ++ more) = e.behind b rest ++ more := by
  obtain ⟨c, rest, rfl⟩ := List.exists_cons_of_ne_nil h
  have hhead : (c :: rest ++ more).head? = (c :: rest).head? := rfl
  unfold behind
  rw [hhead]
  split <;> rfl

/-- What follows a text leaves the lines that have ended in it as they are. -/
theorem Lined.prefix_append (h : e.Lined text rows tail) (more : List α) :
    rows.map Row.line <+: (e.cut (text ++ more)).1.map Row.line := by
  induction h with
  | tail _ => exact List.nil_prefix
  | @line text rest rows tail t htext ht hrest ih =>
    obtain ⟨b, rest', hb, hsymbols, hbehind⟩ := exists_behind_eq t ht
    rw [List.append_assoc text, hsymbols, List.append_assoc, List.cons_append,
      cut_append_cons htext hb]
    apply List.cons_prefix_cons.2 ⟨rfl, _⟩
    by_cases hempty : rest' = []
    · -- behind the last terminator there is no line to be kept
      rw [hempty, e.behind_eq_self fun h => Option.some_ne_none _ h.2.symm] at hbehind
      rw [← hbehind] at hrest
      cases hrest.cut_eq
      exact List.nil_prefix
    · rw [behind_append hempty, hbehind]
      exact ih

/-- Where the end of a line parts a text from what follows, both bring their own lines. -/
theorem Lined.append (h : e.Lined text rows tail) {more : List α} {rows' : List (Row α)}
    {tail' : List α} (hparts : e.Parts text more) (hmore : e.Lined more rows' tail') :
    ∃ front, front ≠ [] ∧ front.map Row.line = rows.map Row.line ∧
      e.Lined (text ++ more) (front ++ rows') tail' := by
  induction h with
  | tail htext =>
    obtain ⟨b, hb, hends, -⟩ := hparts
    exact absurd hends (htext b (List.mem_of_getLast? hb))
  | @line text rest rows tail t htext ht hrest ih =>
    by_cases hempty : rest = []
    · -- the terminator of this line is the last one
      subst hempty
      cases hrest.cut_eq
      obtain ⟨b, hb, -, hcr⟩ := hparts
      refine ⟨[⟨text, more⟩], List.cons_ne_nil _ _, rfl, ?_⟩
      rw [List.append_nil]
      refine .line t htext ?_ hmore
      rintro rfl
      rw [List.append_nil, symbols, List.getLast?_concat] at hb
      exact hcr (Option.some.inj hb).symm
    · have hlast : (text ++ e.symbols t ++ rest).getLast? = rest.getLast? := by
        rw [List.getLast?_append, List.getLast?_eq_some_getLast hempty, Option.some_or]
      unfold Parts at hparts
      rw [hlast] at hparts
      obtain ⟨front, -, hfront, hlined⟩ := ih hparts
      refine ⟨⟨text, rest ++ more⟩ :: front, List.cons_ne_nil _ _, ?_, ?_⟩
      · rw [List.map_cons, hfront, List.map_cons]
      · rw [List.append_assoc]
        refine .line t htext (fun hcr => ?_) hlined
        rw [List.head?_append, List.head?_eq_some_head hempty, Option.some_or,
          ← List.head?_eq_some_head hempty]
        exact ht hcr

/-- Every text has a first symbol that ends lines, or none. -/
theorem eq_append_cons_or_forall_not_ends (e : LineEnds α) (text : List α) :
    (∃ line b rest, text = line ++ b :: rest ∧ (∀ a ∈ line, ¬ e.Ends a) ∧ e.Ends b) ∨
      ∀ a ∈ text, ¬ e.Ends a := by
  induction text with
  | nil => exact Or.inr fun a ha => absurd ha List.not_mem_nil
  | cons a text ih =>
    by_cases ha : e.Ends a
    · exact Or.inl ⟨[], a, text, rfl, fun b hb => absurd hb List.not_mem_nil, ha⟩
    · rcases ih with ⟨line, b, rest, rfl, hline, hb⟩ | htext
      · refine Or.inl ⟨a :: line, b, rest, rfl, ?_, hb⟩
        exact List.forall_mem_cons.2 ⟨ha, hline⟩
      · exact Or.inr (List.forall_mem_cons.2 ⟨ha, htext⟩)

/-- Every text consists of the rows that it is cut into. -/
theorem lined_cut (e : LineEnds α) (text : List α) :
    e.Lined text (e.cut text).1 (e.cut text).2 := by
  -- the text behind the first terminator is shorter
  induction h : text.length using Nat.strongRecOn generalizing text with
  | _ n ih =>
    rcases eq_append_cons_or_forall_not_ends e text with ⟨line, b, rest, rfl, hline, hb⟩ | htext
    · obtain ⟨t, hsymbols, ht⟩ := exists_symbols hb rest
      have hlt : (e.behind b rest).length < n := by
        have hlength := congrArg List.length hsymbols
        have hpos : 0 < (e.symbols t).length := by cases t <;> exact Nat.succ_pos _
        simp only [List.length_cons, List.length_append] at hlength h
        omega
      have hrest := ih _ hlt (e.behind b rest) rfl
      rw [cut_append_cons hline hb, hsymbols, ← List.append_assoc]
      exact .line t hline ht hrest
    · rw [cut_of_forall_not_ends htext]
      exact .tail htext

/-- A text consists of exactly the rows and the tail that it is cut into. -/
theorem lined_iff : e.Lined text rows tail ↔ e.cut text = (rows, tail) := by
  constructor
  · exact Lined.cut_eq
  · intro h
    have hlined := lined_cut e text
    rwa [h] at hlined

/-- The first line is at the front of the text. -/
theorem prefix_of_lines_eq_cons {line : List α} {lines : List (List α)}
    (h : e.lines text = line :: lines) : line <+: text := by
  have hlined := lined_cut e text
  rw [LineEnds.lines] at h
  generalize (e.cut text).1 = rows at h hlined
  generalize (e.cut text).2 = tail at h hlined
  cases hlined with
  | tail _ =>
    rw [List.map_nil, List.nil_append] at h
    split at h
    · exact absurd h (List.cons_ne_nil _ _).symm
    · obtain ⟨rfl, -⟩ := List.cons.inj h
      exact List.prefix_refl _
  | line t _ _ _ =>
    rw [List.map_cons, List.cons_append] at h
    obtain ⟨rfl, -⟩ := List.cons.inj h
    rw [List.append_assoc]
    exact List.prefix_append _ _

example : charEnds.lines "a\r\n\r\n\nb\rc".toList =
    ["a".toList, [], [], "b".toList, "c".toList] := by decide +kernel

end LineEnds

end EventStream
