import EventStream.Proofs.Event.Writing
/-!
# Events from single lines

A line holds no symbol that ends lines, and what a draft takes from a line is a part of it. So the
fields of a draft hold no such symbol either, and a completed event holds only the line feeds that
join its data: it can be written again.

## Main definitions

* `Draft.Writable` — the fields of a draft hold no symbol that ends lines

## Main results

* `mem_of_ofLine?` — the value of a field is a part of its line
* `Writable.feed`, `Writable.feedAll` — lines make drafts and events that can be written
-/

namespace EventStream

theorem Field.mem_of_mem_dropSpace {cs : List Char} {c : Char} (h : c ∈ dropSpace cs) : c ∈ cs := by
  unfold dropSpace at h
  split at h
  · exact List.mem_cons_of_mem _ h
  · exact h

/-- The value of a field is a part of its line. -/
theorem Field.mem_of_ofLine? {line : String} {f : Field} (h : ofLine? line = some f) :
    ∀ c ∈ f.value.toList, c ∈ line.toList := by
  intro c hc
  unfold ofLine? at h
  split at h
  · cases h
  · obtain rfl := Option.some.inj h
    rw [String.toList_ofList] at hc
    have htail := List.mem_of_mem_tail (mem_of_mem_dropSpace hc)
    exact (List.dropWhile_sublist _).mem htail

/-- The symbols of a joined text come from its pieces or from what joins them. -/
theorem Text.mem_intercalate {sep : String} {pieces : List String} {c : Char}
    (h : c ∈ (sep.intercalate pieces).toList) :
    c ∈ sep.toList ∨ ∃ piece ∈ pieces, c ∈ piece.toList := by
  induction pieces with
  | nil => exact absurd h List.not_mem_nil
  | cons piece pieces ih =>
    cases pieces with
    | nil =>
      rw [String.intercalate_singleton] at h
      exact Or.inr ⟨piece, List.mem_singleton_self piece, h⟩
    | cons next pieces =>
      rw [String.intercalate_cons_cons, String.toList_append, String.toList_append,
        List.mem_append, List.mem_append] at h
      rcases h with (hpiece | hsep) | hrest
      · exact Or.inr ⟨piece, List.mem_cons_self, hpiece⟩
      · exact Or.inl hsep
      · rcases ih hrest with hsep | ⟨piece', hmem, hpiece'⟩
        · exact Or.inl hsep
        · exact Or.inr ⟨piece', List.mem_cons_of_mem piece hmem, hpiece'⟩

namespace Draft

/-- No field of the draft holds a symbol that ends lines. -/
structure Writable (d : Draft) : Prop where
  id : ∀ c ∈ d.id.toList, ¬ charEnds.Ends c
  type : ∀ c ∈ d.type.toList, ¬ charEnds.Ends c
  data : ∀ value ∈ d.data, ∀ c ∈ value.toList, ¬ charEnds.Ends c

namespace Writable

variable {d : Draft} {line : String} {lines : List String}

theorem empty : Writable {} :=
  ⟨fun _ hc => absurd hc List.not_mem_nil, fun _ hc => absurd hc List.not_mem_nil,
    fun _ hvalue => absurd hvalue List.not_mem_nil⟩

/-- A value without symbols that end lines keeps the draft free of them, whatever its name is. -/
theorem set (h : d.Writable) {f : Field} (hf : ∀ c ∈ f.value.toList, ¬ charEnds.Ends c) :
    (d.set f).Writable := by
  unfold Draft.set
  split
  · exact ⟨h.id, hf, h.data⟩
  · refine ⟨h.id, h.type, List.forall_mem_append.2 ⟨h.data, ?_⟩⟩
    exact fun value hvalue => List.mem_singleton.1 hvalue ▸ hf
  · exact ⟨hf, h.type, h.data⟩
  · exact ⟨h.id, h.type, h.data⟩
  · exact h

/-- The event that a draft completes holds line feeds where its data are joined, and no other symbol
that ends lines. -/
theorem finish (h : d.Writable) :
    (∀ event ∈ d.finish.1, event.Writable) ∧ d.finish.2.Writable := by
  by_cases hdata : d.data = []
  · rw [finish_of_data_eq_nil hdata]
    exact ⟨nofun, h⟩
  · rw [finish_of_data_ne_nil hdata]
    refine ⟨?_, empty⟩
    rintro event ⟨⟩
    refine ⟨h.id, h.type, fun hmem => ?_⟩
    rcases Text.mem_intercalate hmem with hsep | ⟨value, hvalue, hc⟩
    · exact absurd hsep (by decide)
    · exact h.data value hvalue '\r' hc charEnds.ends_cr

theorem feed (h : d.Writable) (hline : ∀ c ∈ line.toList, ¬ charEnds.Ends c) :
    (∀ event ∈ (d.feed line).1, event.Writable) ∧ (d.feed line).2.Writable := by
  by_cases hempty : line = ""
  · rw [hempty, feed_empty]
    exact h.finish
  · rcases hfield : Field.ofLine? line with _ | field
    · rw [feed_of_ofLine?_eq_none hfield]
      exact ⟨nofun, h⟩
    · rw [feed_of_ofLine?_eq_some hempty hfield]
      exact ⟨nofun, h.set fun c hc => hline c (Field.mem_of_ofLine? hfield c hc)⟩

/-- Lines without symbols that end lines complete events that can be written. -/
theorem feedAll (h : d.Writable) (hlines : ∀ line ∈ lines, ∀ c ∈ line.toList, ¬ charEnds.Ends c) :
    (∀ event ∈ (d.feedAll lines).1, event.Writable) ∧ (d.feedAll lines).2.Writable := by
  induction lines generalizing d with
  | nil => exact ⟨fun _ hevent => absurd hevent List.not_mem_nil, h⟩
  | cons line lines ih =>
    obtain ⟨hline, hlines⟩ := List.forall_mem_cons.1 hlines
    obtain ⟨hevents, hnext⟩ := h.feed hline
    obtain ⟨hmore, hlast⟩ := ih hnext hlines
    refine ⟨List.forall_mem_append.2 ⟨?_, hmore⟩, hlast⟩
    exact fun event hevent => hevents event (Option.mem_toList.1 hevent)

end Writable

end Draft

end EventStream
