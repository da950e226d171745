import Mathlib.Data.List.Basic
import Blake2F.Proofs.Text.Blank
import Blake2F.Proofs.Text.Hex

/-! The texts that hold a byte string: between white space, any number of markers in lower case, at most one
in upper case, and pairs of digits. The reader takes these texts and no others. -/

namespace Blake2F

namespace Hex

/-- The marker in upper case, if there is one. -/
def capital (marked : Bool) : List Char := if marked then ['0', 'X'] else []

/-- The parts of a text that holds a byte string, in their order. -/
structure Spelling where
  /-- How many markers in lower case come first. -/
  markers : Nat
  /-- Whether a marker in upper case comes behind them. -/
  marked : Bool
  /-- The digits behind the markers. -/
  digits : List Char
  /-- The digits come in pairs. -/
  paired : digits.length % 2 = 0
  /-- There is nothing among them but digits. -/
  plain : ∀ c ∈ digits, IsDigit c

/-- The parts one behind another. -/
def Spelling.text (spelling : Spelling) : List Char :=
  Hex.markers spelling.markers ++ (capital spelling.marked ++ spelling.digits)

/-- Whether there is a marker in upper case shows. -/
theorem capital_injective {left right : Bool} (same : capital left = capital right) : left = right := by
  -- One of the two is empty, and the other is not.
  cases left with
  | false =>
    cases right with
    | false => rfl
    | true => cases same
  | true =>
    cases right with
    | false => cases same
    | true => rfl

section

variable {text : List Char}

/-- A text without a marker in lower case in front is left as it is. -/
theorem dropMarkers_eq_self (unmarked : ∀ rest, text ≠ '0' :: 'x' :: rest) :
    dropMarkers text = text := by
  -- Of the two branches of the reader, the one that removes a marker does not apply.
  rw [dropMarkers.eq_def]
  split
  · next rest => exact absurd rfl (unmarked rest)
  · rfl

/-- Behind all markers in lower case, only one in upper case can still be removed. -/
theorem exists_capital (unmarked : ∀ rest, text ≠ '0' :: 'x' :: rest) :
    ∃ marked, text = capital marked ++ dropMarker text := by
  -- The first of the three branches would remove a marker in lower case.
  rw [dropMarker.eq_def]
  split
  · next rest => exact absurd rfl (unmarked rest)
  · exact ⟨true, rfl⟩
  · exact ⟨false, rfl⟩

/-- Digits, with or without a marker in upper case, do not begin with one in lower case. -/
theorem capital_append_ne (only : ∀ c ∈ text, IsDigit c) (marked : Bool) (rest : List Char) :
    capital marked ++ text ≠ '0' :: 'x' :: rest := by
  -- The second character would be an x, which is no digit.
  intro same
  cases marked with
  | false =>
    have found : text = '0' :: 'x' :: rest := same
    exact absurd (only 'x' (by simp [found])) (by decide)
  | true => cases same

/-- The marker in upper case is removed, and nothing of the digits. -/
theorem dropMarker_capital (only : ∀ c ∈ text, IsDigit c) (marked : Bool) :
    dropMarker (capital marked ++ text) = text := by
  -- Without the marker, the digits must not be taken for one.
  cases marked with
  | true => rfl
  | false =>
    show dropMarker text = text
    rw [dropMarker.eq_def]
    split
    · next rest => exact absurd rfl (capital_append_ne only false rest)
    · next rest =>
      exact absurd (only 'X' (by simp)) (by decide)
    · rfl

end

namespace Spelling

variable (spelling : Spelling)

/-- The markers in lower case are removed up to the one in upper case. -/
theorem dropMarkers_text :
    dropMarkers spelling.text = capital spelling.marked ++ spelling.digits := by
  -- What stands behind them is left as it is.
  rw [text, dropMarkers_markers]
  exact dropMarkers_eq_self (capital_append_ne spelling.plain spelling.marked)

/-- Removing the markers leaves the digits. -/
theorem dropMarker_text : dropMarker (dropMarkers spelling.text) = spelling.digits := by
  -- Both readers of markers are run, one after the other.
  rw [dropMarkers_text, dropMarker_capital spelling.plain]

/-- The digits of a spelling spell some byte string. -/
theorem exists_spells : ∃ bytes, Spells spelling.digits bytes :=
  -- They are even in number, and all of them are digits.
  exists_spells_iff.mpr ⟨spelling.paired, spelling.plain⟩

/-- The parts of a text are known by the text. -/
theorem text_injective {left right : Spelling} (same : left.text = right.text) : left = right := by
  -- The parts are recovered from the last to the first.
  have digits : left.digits = right.digits := by
    rw [← dropMarker_text left, same, dropMarker_text right]
  have behind : capital left.marked ++ left.digits = capital right.marked ++ right.digits := by
    rw [← dropMarkers_text left, same, dropMarkers_text right]
  have marked : left.marked = right.marked := by
    rw [digits] at behind
    exact capital_injective (List.append_cancel_right behind)
  have count : left.markers = right.markers := by
    rw [text, text, behind] at same
    have lengths := congrArg List.length (List.append_cancel_right same)
    rw [length_markers, length_markers] at lengths
    omega
  cases left with
  | mk _ _ _ _ _ =>
    cases right with
    | mk _ _ _ _ _ =>
      simp only at digits marked count
      subst digits marked count
      rfl

/-- A text that holds digits behind its markers is spelt by its parts. -/
theorem exists_of_digits {core : List Char}
    (even : (dropMarker (dropMarkers core)).length % 2 = 0)
    (only : ∀ c ∈ dropMarker (dropMarkers core), IsDigit c) :
    ∃ spelling : Spelling, spelling.text = core ∧
      spelling.digits = dropMarker (dropMarkers core) := by
  -- The markers that the reader removes are those of the spelling.
  obtain ⟨count, front⟩ := exists_markers core
  obtain ⟨marked, behind⟩ := exists_capital (dropMarkers_ne core)
  refine ⟨⟨count, marked, dropMarker (dropMarkers core), even, only⟩, ?_, rfl⟩
  show Hex.markers count ++ (capital marked ++ dropMarker (dropMarkers core)) = core
  rw [← behind, ← front]

/-- No part of a text is white space. -/
theorem isBlank_of_mem_text {c : Char} (inside : c ∈ spelling.text) : Blank.isBlank c = false := by
  -- A character belongs to one of the three parts.
  rcases List.mem_append.mp inside with marker | behind
  · exact isBlank_of_mem_markers marker
  rcases List.mem_append.mp behind with capital | digit
  · unfold Hex.capital at capital
    split at capital
    · simp only [List.mem_cons, List.not_mem_nil, or_false] at capital
      rcases capital with rfl | rfl
      · decide
      · decide
    · cases capital
  · exact isBlank_eq_false (spelling.plain c digit)

end Spelling

variable {text : String} {bytes : Bytes} {core : List Char}

/-- The reader works on what trimming leaves. -/
theorem parse?_of_trimmed (trimmed : Blank.Trimmed text.toList core) :
    parse? text = ofDigits? (dropMarker (dropMarkers core)) := by
  -- A text has only one core.
  rw [parse?, trimmed.trim_eq]

/-- A byte string is read exactly where the core of a text is a spelling of it. -/
theorem parse?_eq_some_iff (trimmed : Blank.Trimmed text.toList core) :
    parse? text = some bytes ↔
      ∃ spelling : Spelling, spelling.text = core ∧ Spells spelling.digits bytes := by
  -- The digits read are those behind the markers of the core.
  rw [parse?_of_trimmed trimmed, ofDigits?_eq_some_iff]
  constructor
  · intro spelt
    obtain ⟨even, only⟩ := exists_spells_iff.mp ⟨bytes, spelt⟩
    obtain ⟨spelling, whole, digits⟩ := Spelling.exists_of_digits even only
    exact ⟨spelling, whole, by rw [digits]; exact spelt⟩
  · intro held
    obtain ⟨spelling, rfl, spelt⟩ := held
    rw [spelling.dropMarker_text]
    exact spelt

/-- A text is refused exactly where its core is no spelling. -/
theorem parse?_eq_none_iff (trimmed : Blank.Trimmed text.toList core) :
    parse? text = none ↔ ∀ spelling : Spelling, spelling.text ≠ core := by
  -- Every spelling holds a byte string, which would be read.
  constructor
  · intro refused spelling whole
    obtain ⟨bytes, spelt⟩ := spelling.exists_spells
    have read := (parse?_eq_some_iff trimmed).mpr ⟨spelling, whole, spelt⟩
    rw [refused] at read
    cases read
  · intro unspelt
    cases read : parse? text with
    | none => rfl
    | some bytes =>
      obtain ⟨spelling, whole, -⟩ := (parse?_eq_some_iff trimmed).mp read
      exact absurd whole (unspelt spelling)

/-- A spelling is read back from between any white space. -/
theorem parse?_of_spelling (spelling : Spelling) (spelt : Spells spelling.digits bytes)
    {before after : List Char} (front : ∀ c ∈ before, Blank.isBlank c)
    (back : ∀ c ∈ after, Blank.isBlank c) (whole : text.toList = before ++ spelling.text ++ after) :
    parse? text = some bytes := by
  -- A spelling is solid, so it is the core of the text.
  have trimmed : Blank.Trimmed text.toList spelling.text := by
    refine ⟨⟨before, after, front, back, whole⟩, ?_, ?_⟩
    · intro c leads
      exact spelling.isBlank_of_mem_text (List.mem_of_mem_head? leads)
    · intro c ends
      exact spelling.isBlank_of_mem_text (List.mem_of_mem_getLast? ends)
  exact (parse?_eq_some_iff trimmed).mpr ⟨spelling, rfl, spelt⟩

/-- Any casing of the digits of a byte string makes a spelling of it. -/
theorem exists_spelling_of_spells {digits : List Char} (spelt : Spells digits bytes) (count : Nat)
    (marked : Bool) :
    ∃ spelling : Spelling, spelling.text = markers count ++ (capital marked ++ digits) ∧
      Spells spelling.digits bytes := by
  -- Digits that spell a byte string are even in number.
  obtain ⟨even, only⟩ := exists_spells_iff.mp ⟨bytes, spelt⟩
  exact ⟨⟨count, marked, digits, even, only⟩, rfl, spelt⟩

/-- However the text of a byte string is dressed, it is read back as that byte string. -/
theorem parse?_of_dresses (dressed : Dresses (encode bytes) text) : parse? text = some bytes := by
  -- The dress is white space and markers in lower case, around the plain digits.
  obtain ⟨before, count, after, front, back, whole⟩ := dressed
  rw [encode, String.toList_ofList] at whole
  obtain ⟨spelling, parts, spelt⟩ := exists_spelling_of_spells (spells_digits bytes) count false
  refine parse?_of_spelling spelling spelt front back ?_
  rw [whole, parts]
  rfl

/-- The reader takes the spellings of byte strings and no other texts. -/
theorem parse?_reads_spellings :
    (∀ text : String, ∃ core, (∀ part, Blank.Trimmed text.toList part ↔ part = core) ∧
      (∀ bytes, parse? text = some bytes ↔
        ∃ spelling : Spelling, spelling.text = core ∧ Spells spelling.digits bytes) ∧
      (parse? text = none ↔ ∀ spelling : Spelling, spelling.text ≠ core) ∧
      ∀ left right : Spelling, left.text = core → right.text = core → left = right) ∧
    ∀ (bytes : Bytes) (cased before after : List Char) (count : Nat) (marked : Bool),
      cased.map Char.toLower = digits bytes →
      (∀ c ∈ before, Blank.isBlank c) → (∀ c ∈ after, Blank.isBlank c) →
      parse? (String.ofList (before ++ (markers count ++ (capital marked ++ cased)) ++ after)) =
        some bytes := by
  -- The core of a text settles what is read, and any casing of digits is a spelling.
  constructor
  · intro text
    have trimmed := Blank.trimmed_trim text.toList
    refine ⟨Blank.trim text.toList, ?_, ?_, parse?_eq_none_iff trimmed, ?_⟩
    · intro part
      rw [Blank.trimmed_iff, eq_comm]
    · intro bytes
      exact parse?_eq_some_iff trimmed
    · intro left right first second
      exact Spelling.text_injective (first.trans second.symm)
  · intro bytes cased before after count marked spelt front back
    obtain ⟨spelling, parts, spelt⟩ := exists_spelling_of_spells spelt count marked
    refine parse?_of_spelling spelling spelt front back ?_
    rw [String.toList_ofList, parts]

/-- Two bytes are read from digits of both cases behind three markers, with a blank in front and a line feed
at the end. -/
theorem parse?_mixed_case :
    ['0', 'A', 'f', 'F'].map Char.toLower = digits [0x0a, 0xff] ∧
    (∀ c ∈ [' '], Blank.isBlank c) ∧ (∀ c ∈ ['\n'], Blank.isBlank c) ∧
    parse? (String.ofList ([' '] ++ (markers 2 ++ (capital true ++ ['0', 'A', 'f', 'F'])) ++ ['\n'])) =
      some [0x0a, 0xff] := by
  -- The white space and the digits are checked one by one.
  have cased : ['0', 'A', 'f', 'F'].map Char.toLower = digits [0x0a, 0xff] := by decide
  have front : ∀ c ∈ [' '], Blank.isBlank c := List.all_eq_true.mp rfl
  have back : ∀ c ∈ ['\n'], Blank.isBlank c := List.all_eq_true.mp rfl
  exact ⟨cased, front, back, parse?_reads_spellings.2 _ _ _ _ 2 true cased front back⟩

end Hex

end Blake2F
