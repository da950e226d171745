import Mathlib.Data.List.DropRight
import Blake2F.Text.Hex

/-! What trimming leaves of a text: the part between its white space that neither begins nor ends with any. -/

namespace Blake2F

namespace Blank

/-- What lies between the white space at the two ends of a text. -/
structure Trimmed (text core : List Char) : Prop where
  -- There may be white space inside the core as well.
  /-- The core is what stands between the two parts that are dropped. -/
  between : ∃ before after, (∀ c ∈ before, isBlank c) ∧ (∀ c ∈ after, isBlank c) ∧
    text = before ++ core ++ after
  /-- It does not begin with white space. -/
  first : ∀ c ∈ core.head?, isBlank c = false
  /-- It does not end with white space either. -/
  last : ∀ c ∈ core.getLast?, isBlank c = false

variable {text core before after : List Char}

/-- White space in front of a core that begins solid is dropped, and nothing more. -/
theorem dropWhile_append (blank : ∀ c ∈ before, isBlank c)
    (first : ∀ c ∈ core.head?, isBlank c = false) : (before ++ core).dropWhile isBlank = core := by
  -- Dropping passes over the white space and stops at the first character of the core.
  rw [List.dropWhile_append_of_pos blank]
  cases core with
  | nil => rfl
  | cons c rest =>
    have solid : isBlank c = false := first c rfl
    exact List.dropWhile_cons_of_neg (by simp [solid])

/-- What is left once white space is dropped begins solid. -/
theorem isBlank_of_mem_head?_dropWhile {c : Char} (leads : c ∈ (text.dropWhile isBlank).head?) :
    isBlank c = false := by
  -- Dropping stops at a character that fails the test.
  have solid := List.head?_dropWhile_not isBlank text
  rw [Option.mem_def.mp leads] at solid
  exact solid

/-- White space is dropped from the front, and then from the end. -/
theorem trim_eq_rdropWhile (text : List Char) :
    trim text = (text.dropWhile isBlank).rdropWhile isBlank := rfl

/-- Trimming leaves the core of a text. -/
theorem Trimmed.trim_eq (trimmed : Trimmed text core) : trim text = core := by
  -- The white space in front goes first, unless the core is empty.
  obtain ⟨⟨before, after, front, back, rfl⟩, first, last⟩ := trimmed
  unfold trim
  rw [List.append_assoc, List.dropWhile_append_of_pos front]
  cases core with
  | nil =>
    -- All of the text is white space, and all of it goes at once.
    rw [List.nil_append, List.dropWhile_eq_nil_iff.mpr back]
    rfl
  | cons c rest =>
    have solid : isBlank c = false := first c rfl
    have ends : ∀ d ∈ (c :: rest).reverse.head?, isBlank d = false := by
      rw [List.head?_reverse]
      exact last
    rw [List.cons_append, List.dropWhile_cons_of_neg (by simp [solid]), ← List.cons_append,
      List.reverse_append, dropWhile_append (by simpa using back) ends, List.reverse_reverse]

/-- What trimming leaves is a core of the text. -/
theorem trimmed_trim (text : List Char) : Trimmed text (trim text) := by
  -- The parts that are dropped are white space, and what they leave is solid at both ends.
  refine ⟨⟨text.takeWhile isBlank, (text.dropWhile isBlank).rtakeWhile isBlank, ?_, ?_, ?_⟩, ?_, ?_⟩
  · intro c inside
    exact List.mem_takeWhile_imp inside
  · intro c inside
    exact List.mem_rtakeWhile_imp inside
  · -- The text is cut once at its front, and what is left of it once at its end.
    have rest : (text.dropWhile isBlank).rdropWhile isBlank ++
        (text.dropWhile isBlank).rtakeWhile isBlank = text.dropWhile isBlank := by
      rw [List.rdropWhile, List.rtakeWhile, ← List.reverse_append, List.takeWhile_append_dropWhile,
        List.reverse_reverse]
    rw [trim_eq_rdropWhile, List.append_assoc, rest, List.takeWhile_append_dropWhile]
  · intro c leads
    rw [trim_eq_rdropWhile] at leads
    -- Cutting the end leaves the first character in its place.
    obtain ⟨cut, whole⟩ := List.rdropWhile_prefix isBlank (text.dropWhile isBlank)
    have kept : c ∈ (text.dropWhile isBlank).head? := by
      rw [← whole, List.head?_append_of_ne_nil]
      · exact leads
      · intro empty
        rw [empty] at leads
        cases leads
    exact isBlank_of_mem_head?_dropWhile kept
  · intro c ends
    rw [trim, List.getLast?_reverse] at ends
    exact isBlank_of_mem_head?_dropWhile ends

/-- Every text has one part that is left of it. -/
theorem trimmed_iff : Trimmed text core ↔ trim text = core := by
  -- The core that trimming leaves is the only one.
  constructor
  · exact Trimmed.trim_eq
  · intro same
    subst same
    exact trimmed_trim text

end Blank

end Blake2F
