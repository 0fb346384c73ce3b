import EventStream.Proofs.Line.Cutting
/-!
# UTF-8 and lines

In UTF-8 the two symbols that end lines take one byte each, and no byte of another character can be
mistaken for them. Encoding therefore commutes with cutting into lines, and bytes are UTF-8 exactly
when each of their lines is. Likewise for the byte order mark: bytes start with it exactly when the
text starts with its character. Any other class of ASCII characters can be looked for in the bytes
as well.

## Main definitions

* `Text.bytes` — the bytes of some characters
* `Text.AsciiAlike` — a class of bytes and a class of characters that are the same in ASCII
* `Text.dropMark` — the characters without a byte order mark in front

## Main results

* `lines_bytes` — the lines of the bytes are the bytes of the lines
* `exists_bytes_eq_of_lines` — bytes whose lines are all UTF-8 are UTF-8 as a whole
* `AsciiAlike.forall_mem_encode_iff` — a class of ASCII characters can be looked for in the bytes
* `dropByteOrderMark_bytes` — dropping the mark from the bytes drops it from the text
-/

namespace EventStream

namespace Text

/-- The bytes of some characters in UTF-8. -/
def bytes (cs : List Char) : List UInt8 := cs.flatMap String.utf8EncodeChar

variable {cs cs' : List Char} {c : Char} {b : UInt8} {rest : List UInt8}

theorem encode_eq (s : String) : encode s = bytes s.toList := rfl

@[simp] theorem bytes_cons : bytes (c :: cs) = String.utf8EncodeChar c ++ bytes cs := rfl

@[simp] theorem bytes_append : bytes (cs ++ cs') = bytes cs ++ bytes cs' := List.flatMap_append

theorem encode_ofList (cs : List Char) : encode (String.ofList cs) = bytes cs := by
  rw [encode_eq, String.toList_ofList]

theorem decode?_bytes (cs : List Char) : decode? (bytes cs) = some (String.ofList cs) := by
  rw [← encode_ofList, decode?_encode]

theorem bytes_eq_nil_iff : bytes cs = [] ↔ cs = [] := by
  constructor
  · intro h
    cases cs with
    | nil => rfl
    | cons c cs =>
      rw [bytes_cons, List.append_eq_nil_iff] at h
      have hlength := congrArg List.length h.1
      have hpos := c.utf8Size_pos
      rw [String.length_utf8EncodeChar, List.length_nil] at hlength
      omega
  · intro h
    rw [h]
    rfl

/-! ### ASCII -/

/-- Setting the highest bit makes a byte large, whatever else is set. -/
private theorem le_or {m : UInt8} (hm : 0x80 ≤ m) (x : UInt8) : 0x80 ≤ x ||| m := by
  have hor : m ≤ x ||| m := by
    rw [UInt8.le_iff_toNat_le, UInt8.toNat_or]
    exact Nat.right_le_or
  exact UInt8.le_trans hm hor

/-- A character of several bytes has no ASCII byte. -/
theorem le_of_mem_utf8EncodeChar (hsize : c.utf8Size ≠ 1) (hb : b ∈ String.utf8EncodeChar c) :
    0x80 ≤ b := by
  -- the masks of the leading byte and of the bytes behind it all set the highest bit
  rcases c.utf8Size_eq with h | h | h | h
  · exact absurd h hsize
  · rw [String.utf8EncodeChar_eq_cons_cons h] at hb
    simp only [List.mem_cons, List.not_mem_nil, or_false] at hb
    rcases hb with rfl | rfl <;> exact le_or (by decide) _
  · rw [String.utf8EncodeChar_eq_cons_cons_cons h] at hb
    simp only [List.mem_cons, List.not_mem_nil, or_false] at hb
    rcases hb with rfl | rfl | rfl <;> exact le_or (by decide) _
  · rw [String.utf8EncodeChar_eq_cons_cons_cons_cons h] at hb
    simp only [List.mem_cons, List.not_mem_nil, or_false] at hb
    rcases hb with rfl | rfl | rfl | rfl <;> exact le_or (by decide) _

/-- A character of one byte is that byte. -/
theorem eq_of_mem_utf8EncodeChar (hsize : c.utf8Size = 1) (hb : b ∈ String.utf8EncodeChar c) :
    c = Char.ofNat b.toNat := by
  rw [String.utf8EncodeChar_eq_singleton hsize, List.mem_singleton] at hb
  have hle := UInt32.le_iff_toNat_le.1 (Char.utf8Size_eq_one_iff.1 hsize)
  have hnat : b.toNat = c.toNat := by
    rw [hb, UInt32.toNat_toUInt8]
    exact Nat.mod_eq_of_lt (Nat.lt_of_le_of_lt hle (by decide))
  rw [hnat, Char.ofNat_toNat]

/-- A class of bytes and a class of characters that hold the same ASCII characters and no others. -/
structure AsciiAlike (P : UInt8 → Prop) (Q : Char → Prop) : Prop where
  byte : ∀ b, P b → b.toNat < 0x80
  char : ∀ c, Q c → c.toNat < 0x80
  iff : ∀ n < 0x80, P (UInt8.ofNat n) ↔ Q (Char.ofNat n)

namespace AsciiAlike

variable {P : UInt8 → Prop} {Q : Char → Prop}

/-- A character is in the class exactly when all its bytes are. -/
theorem forall_mem_utf8EncodeChar_iff (h : AsciiAlike P Q) :
    (∀ b ∈ String.utf8EncodeChar c, P b) ↔ Q c := by
  by_cases hsize : c.utf8Size = 1
  · have hlt : c.toNat < 0x80 :=
      Nat.lt_succ_of_le (UInt32.le_iff_toNat_le.1 (Char.utf8Size_eq_one_iff.1 hsize))
    have hbyte : c.val.toUInt8 = UInt8.ofNat c.toNat := rfl
    rw [String.utf8EncodeChar_eq_singleton hsize, List.forall_mem_singleton, hbyte, h.iff _ hlt,
      Char.ofNat_toNat]
  · -- a character of several bytes is not ASCII, and neither are its bytes
    have hne : String.utf8EncodeChar c ≠ [] := by
      rw [ne_eq, ← List.length_eq_zero_iff, String.length_utf8EncodeChar]
      exact Nat.ne_of_gt c.utf8Size_pos
    obtain ⟨b, hb⟩ := List.exists_mem_of_ne_nil _ hne
    have hle : 0x80 ≤ b.toNat := UInt8.le_iff_toNat_le.1 (le_of_mem_utf8EncodeChar hsize hb)
    constructor
    · intro hbytes
      exact absurd (h.byte b (hbytes b hb)) (Nat.not_lt.2 hle)
    · intro hc
      have hle : c.val ≤ 0x7f := UInt32.le_iff_toNat_le.2 (Nat.le_of_lt_succ (h.char c hc))
      exact absurd (Char.utf8Size_eq_one_iff.2 hle) hsize

/-- Looking at the bytes of a text finds what looking at its characters finds. -/
theorem forall_mem_encode_iff (h : AsciiAlike P Q) (s : String) :
    (∀ b ∈ encode s, P b) ↔ ∀ c ∈ s.toList, Q c := by
  simp only [← h.forall_mem_utf8EncodeChar_iff, encode, List.mem_flatMap]
  exact ⟨fun h c hc b hb => h b ⟨c, hc, hb⟩, fun h b ⟨c, hc, hb⟩ => h c hc b hb⟩

end AsciiAlike

/-! ### Symbols that end lines -/

/-- No byte of a character that does not end lines ends lines. -/
theorem not_ends_of_mem_utf8EncodeChar (hc : ¬ charEnds.Ends c)
    (hb : b ∈ String.utf8EncodeChar c) : ¬ byteEnds.Ends b := by
  intro hends
  by_cases hsize : c.utf8Size = 1
  · -- the byte is the character itself
    have hc' := eq_of_mem_utf8EncodeChar hsize hb
    rcases hends with rfl | rfl
    · exact hc (Or.inl hc')
    · exact hc (Or.inr hc')
  · have hle := le_of_mem_utf8EncodeChar hsize hb
    rcases hends with rfl | rfl <;> exact absurd hle (by decide)

theorem not_ends_of_mem_bytes (hcs : ∀ c ∈ cs, ¬ charEnds.Ends c) :
    ∀ b ∈ bytes cs, ¬ byteEnds.Ends b := by
  intro b hb
  obtain ⟨c, hc, hbc⟩ := List.mem_flatMap.1 hb
  exact not_ends_of_mem_utf8EncodeChar (hcs c hc) hbc

theorem symbols_byteEnds (t : Terminator) : byteEnds.symbols t = bytes (charEnds.symbols t) := by
  cases t <;> rfl

/-- The bytes start with a line feed exactly when the text does. -/
theorem head?_bytes_eq_lf_iff :
    (bytes cs).head? = some byteEnds.lf ↔ cs.head? = some charEnds.lf := by
  cases cs with
  | nil => exact ⟨nofun, nofun⟩
  | cons c cs =>
    rw [List.head?_cons]
    constructor
    · intro h
      obtain ⟨b, line, hline⟩ : ∃ b line, String.utf8EncodeChar c = b :: line := by
        refine List.exists_cons_of_length_pos ?_
        rw [String.length_utf8EncodeChar]
        exact c.utf8Size_pos
      rw [bytes_cons, hline, List.cons_append, List.head?_cons] at h
      have hb : byteEnds.lf ∈ String.utf8EncodeChar c := by
        rw [hline, Option.some.inj h]
        exact List.mem_cons_self
      -- a character with the line feed among its bytes ends lines, and the return is another byte
      by_cases hc : charEnds.Ends c
      · rcases hc with rfl | rfl
        · exact absurd hb (by decide)
        · rfl
      · exact absurd byteEnds.ends_lf (not_ends_of_mem_utf8EncodeChar hc hb)
    · intro h
      rw [Option.some.inj h]
      rfl

end Text

/-- The row in bytes. -/
def Row.encode (row : Row Char) : Row UInt8 := ⟨Text.bytes row.line, Text.bytes row.rest⟩

namespace LineEnds

variable {text : List Char} {rows : List (Row Char)} {tail : List Char} {bytes : List UInt8}

/-- If a text consists of certain lines, then its bytes consist of the bytes of these lines. -/
theorem Lined.encode (h : charEnds.Lined text rows tail) :
    byteEnds.Lined (Text.bytes text) (rows.map Row.encode) (Text.bytes tail) := by
  induction h with
  | tail htext => exact .tail (Text.not_ends_of_mem_bytes htext)
  | line t htext ht _ ih =>
    rw [Text.bytes_append, Text.bytes_append, ← Text.symbols_byteEnds]
    refine .line t (Text.not_ends_of_mem_bytes htext) ?_ ih
    intro hcr hhead
    exact ht hcr (Text.head?_bytes_eq_lf_iff.1 hhead)

theorem cut_bytes (text : List Char) :
    byteEnds.cut (Text.bytes text) =
      ((charEnds.cut text).1.map Row.encode, Text.bytes (charEnds.cut text).2) :=
  (lined_cut charEnds text).encode.cut_eq

/-- The lines of the bytes are the bytes of the lines. -/
theorem lines_bytes (text : List Char) :
    byteEnds.lines (Text.bytes text) = (charEnds.lines text).map Text.bytes := by
  have hrows : ((charEnds.cut text).1.map Row.encode).map Row.line =
      ((charEnds.cut text).1.map Row.line).map Text.bytes := by
    rw [List.map_map, List.map_map]
    rfl
  rw [lines, lines, cut_bytes, hrows, List.map_append]
  by_cases htail : (charEnds.cut text).2 = []
  · rw [if_pos htail, if_pos (Text.bytes_eq_nil_iff.2 htail), List.map_nil]
  · rw [if_neg htail, if_neg (mt Text.bytes_eq_nil_iff.1 htail), List.map_singleton]

theorem Lined.exists_bytes_eq {rows : List (Row UInt8)} {tail : List UInt8}
    (h : byteEnds.Lined bytes rows tail) (hrows : ∀ row ∈ rows, ∃ cs, row.line = Text.bytes cs)
    (htail : ∃ cs, tail = Text.bytes cs) : ∃ cs, bytes = Text.bytes cs := by
  induction h with
  | tail _ => exact htail
  | line t _ _ _ ih =>
    obtain ⟨line, hline⟩ := hrows _ List.mem_cons_self
    obtain ⟨cs, hcs⟩ := ih (fun row hrow => hrows row (List.mem_cons_of_mem _ hrow)) htail
    -- terminators are ASCII, so the line and what follows can be joined as texts
    refine ⟨line ++ charEnds.symbols t ++ cs, ?_⟩
    rw [Text.bytes_append, Text.bytes_append, ← Text.symbols_byteEnds, ← hcs, ← hline]

/-- Bytes whose lines are all UTF-8 are UTF-8 as a whole. -/
theorem exists_bytes_eq_of_lines
    (h : ∀ line ∈ byteEnds.lines bytes, ∃ cs, line = Text.bytes cs) :
    ∃ cs, bytes = Text.bytes cs := by
  apply (lined_cut byteEnds bytes).exists_bytes_eq
  · intro row hrow
    exact h row.line (List.mem_append_left _ (List.mem_map_of_mem hrow))
  · by_cases htail : (byteEnds.cut bytes).2 = []
    · exact ⟨[], htail⟩
    · refine h _ (List.mem_append_right _ ?_)
      rw [if_neg htail]
      exact List.mem_singleton_self _

end LineEnds

/-! ### The byte order mark -/

namespace Text

/-- The character of the byte order mark. -/
def mark : Char := '\uFEFF'

/-- The text without a byte order mark in front. -/
def dropMark (cs : List Char) : List Char :=
  if cs.head? = some mark then cs.tail else cs

theorem dropMark_cons (cs : List Char) : dropMark (mark :: cs) = cs := if_pos rfl

theorem dropMark_eq_self {cs : List Char} (h : cs.head? ≠ some mark) : dropMark cs = cs := if_neg h

theorem dropByteOrderMark_append (rest : List UInt8) :
    Splitter.dropByteOrderMark (byteOrderMark ++ rest) = rest := by
  rw [Splitter.dropByteOrderMark, if_pos (List.prefix_append _ _), List.drop_left]

theorem dropByteOrderMark_eq_self {bs : List UInt8} (h : ¬ byteOrderMark <+: bs) :
    Splitter.dropByteOrderMark bs = bs := if_neg h

theorem bytes_mark : bytes [mark] = byteOrderMark := by decide +kernel

variable {cs : List Char} {bs : List UInt8}

/-- Bytes of a text that start with the mark belong to a text that starts with its character. -/
theorem head?_eq_mark (h : byteOrderMark <+: bytes cs) : cs.head? = some mark := by
  obtain ⟨rest, hrest⟩ := h
  rw [← bytes_mark] at hrest
  -- no other text starts with these bytes, since decoding is unique
  have harrays := congrArg List.toByteArray hrest
  rw [List.toByteArray_append] at harrays
  obtain ⟨cs', rfl⟩ := List.isPrefix_of_utf8Encode_append_eq_utf8Encode _ harrays
  rfl

/-- Dropping the mark from the bytes of a text drops it from the text. -/
theorem dropByteOrderMark_bytes (cs : List Char) :
    Splitter.dropByteOrderMark (bytes cs) = bytes (dropMark cs) := by
  by_cases hmark : cs.head? = some mark
  · obtain ⟨cs', rfl⟩ := List.head?_eq_some_iff.1 hmark
    rw [dropMark_cons, ← List.singleton_append, bytes_append, bytes_mark,
      dropByteOrderMark_append]
  · rw [dropMark_eq_self hmark, dropByteOrderMark_eq_self (mt head?_eq_mark hmark)]

/-- Bytes are UTF-8 exactly when they are so without the mark. -/
theorem exists_bytes_eq_dropByteOrderMark_iff :
    (∃ cs, Splitter.dropByteOrderMark bs = bytes cs) ↔ ∃ cs, bs = bytes cs := by
  constructor
  · rintro ⟨cs, hcs⟩
    by_cases hmark : byteOrderMark <+: bs
    · obtain ⟨rest, rfl⟩ := hmark
      rw [dropByteOrderMark_append] at hcs
      exact ⟨mark :: cs, by rw [hcs, ← bytes_mark, ← bytes_append]; rfl⟩
    · rw [dropByteOrderMark_eq_self hmark] at hcs
      exact ⟨cs, hcs⟩
  · rintro ⟨cs, rfl⟩
    exact ⟨dropMark cs, dropByteOrderMark_bytes cs⟩

end Text

end EventStream
