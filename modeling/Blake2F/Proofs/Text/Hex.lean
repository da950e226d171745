import Blake2F.Text.Hex

/-! Hexadecimal digits and the markers in front of them: the reader takes the digits of either case, and goes
by what they are in lower case. -/

namespace Blake2F

namespace Hex

/-- The ten digits, and the six letters that count as digits in either case. -/
def IsDigit (c : Char) : Prop :=
  ('0' ≤ c ∧ c ≤ '9') ∨ ('a' ≤ c ∧ c ≤ 'f') ∨ ('A' ≤ c ∧ c ≤ 'F')

/-- Whether a character is a digit can be computed. -/
instance : DecidablePred IsDigit := fun _ => inferInstanceAs (Decidable (_ ∨ _))

/-- Digits of either case that are the digits of a byte string once they are all in lower case. -/
def Spells (text : List Char) (bytes : Bytes) : Prop := text.map Char.toLower = digits bytes

/-- The digits and letters lie in three ranges of codes. -/
theorem isDigit_iff_code {c : Char} :
    IsDigit c ↔ (48 ≤ c.toNat ∧ c.toNat ≤ 57) ∨ (97 ≤ c.toNat ∧ c.toNat ≤ 102) ∨
      (65 ≤ c.toNat ∧ c.toNat ≤ 70) := Iff.rfl

/-- No digit is white space. -/
theorem isBlank_eq_false {c : Char} (digit : IsDigit c) : Blank.isBlank c = false := by
  -- Both are told by ranges of codes.
  rw [isDigit_iff_code] at digit
  -- All white space comes before the digits or far behind the letters.
  simp only [Blank.isBlank, Blank.ranges, List.any_cons, List.any_nil, Bool.or_eq_false_iff,
    Bool.and_eq_false_iff, decide_eq_false_iff_not, Bool.or_false]
  omega

/-- The code of a lower-case digit, by its value. -/
theorem toNat_digit {value : Nat} (small : value < 16) :
    (digit value).toNat = if value < 10 then 48 + value else 87 + value := by
  -- There are sixteen digits.
  have table : ∀ value < 16, (digit value).toNat = if value < 10 then 48 + value else 87 + value := by
    decide
  exact table value small

/-- Lower case moves the codes of the capital letters, and no others. -/
theorem toNat_toLower (c : Char) :
    c.toLower.toNat = if 65 ≤ c.toNat ∧ c.toNat ≤ 90 then c.toNat + 32 else c.toNat := by
  -- The library tests the same range of codes.
  have range : (c.val ≥ 'A'.val ∧ c.val ≤ 'Z'.val) ↔ 65 ≤ c.toNat ∧ c.toNat ≤ 90 := Iff.rfl
  unfold Char.toLower
  split
  next upper =>
    have small : c.val.toNat ≤ 90 := (range.mp upper).2
    have fits : c.val.toNat + 32 < 2 ^ 32 := by omega
    rw [if_pos (range.mp upper)]
    show (c.val + 32).toNat = c.val.toNat + 32
    rw [UInt32.toNat_add]
    exact Nat.mod_eq_of_lt fits
  next other =>
    rw [if_neg]
    intro upper
    exact other (range.mpr upper)

section

variable {c : Char} {value : Nat}

/-- A value is that of one digit, or of one letter in either case. -/
theorem value?_eq_some_iff_code :
    value? c = some value ↔ (value < 10 ∧ c.toNat = 48 + value) ∨
      (10 ≤ value ∧ value < 16 ∧ (c.toNat = 55 + value ∨ c.toNat = 87 + value)) := by
  unfold value?
  dsimp only
  -- The three ranges of codes are tried in turn.
  split
  · rw [Option.some.injEq]
    omega
  split
  · rw [Option.some.injEq]
    omega
  split
  · rw [Option.some.injEq]
    omega
  · simp only [reduceCtorEq, false_iff]
    omega

/-- A character is worth what it is in lower case. -/
theorem value?_eq_some_iff : value? c = some value ↔ value < 16 ∧ c.toLower = digit value := by
  -- Both sides say the same of the code of the character.
  rw [value?_eq_some_iff_code, ← Char.toNat_inj, toNat_toLower]
  constructor
  · intro code
    have small : value < 16 := by omega
    rw [toNat_digit small]
    refine ⟨small, ?_⟩
    split <;> split <;> omega
  · intro both
    obtain ⟨small, code⟩ := both
    rw [toNat_digit small] at code
    split at code <;> split at code <;> omega

/-- The digits are the characters that have a value. -/
theorem isDigit_iff_exists_value : IsDigit c ↔ ∃ value, value? c = some value := by
  -- Each range of codes starts at the code of its lowest value.
  simp only [isDigit_iff_code, value?_eq_some_iff_code]
  constructor
  · intro code
    rcases code with digit | lower | upper
    · exact ⟨c.toNat - 48, by omega⟩
    · exact ⟨c.toNat - 87, by omega⟩
    · exact ⟨c.toNat - 55, by omega⟩
  · intro valued
    obtain ⟨value, code⟩ := valued
    omega

end

/-- The digits of a byte string begin with those of its first byte. -/
theorem digits_cons (byte : UInt8) (rest : Bytes) :
    digits (byte :: rest) = digit (byte.toNat / 16) :: digit (byte.toNat % 16) :: digits rest := rfl

/-- There are two digits for each byte. -/
theorem length_digits (bytes : Bytes) : (digits bytes).length = 2 * bytes.length := by
  -- The two digits of the first byte are counted apart.
  induction bytes with
  | nil => rfl
  | cons byte rest ih =>
    rw [digits_cons, List.length_cons, List.length_cons, ih, List.length_cons]
    omega

/-- Two digits make up one byte. -/
theorem exists_byte {high low : Nat} (smallHigh : high < 16) (smallLow : low < 16) :
    ∃ byte : UInt8, byte.toNat / 16 = high ∧ byte.toNat % 16 = low ∧
      UInt8.ofNat (16 * high + low) = byte := by
  -- The byte is below 256, so nothing of it is cut off.
  refine ⟨UInt8.ofNat (16 * high + low), ?_, ?_, rfl⟩
  · rw [UInt8.toNat_ofNat']
    omega
  · rw [UInt8.toNat_ofNat']
    omega

variable {high low : Char} {text : List Char} {bytes : Bytes}

/-- Two digits are spelt as the first byte, and the others as the rest. -/
theorem spells_cons_iff :
    Spells (high :: low :: text) bytes ↔ ∃ byte rest, bytes = byte :: rest ∧
      value? high = some (byte.toNat / 16) ∧ value? low = some (byte.toNat % 16) ∧ Spells text rest := by
  -- Spelling is equality of the digits in lower case, and digits are known by their values.
  constructor
  · intro spelt
    unfold Spells at spelt
    cases bytes with
    | nil => cases spelt
    | cons byte rest =>
      have bound := byte.toNat_lt
      rw [digits_cons, List.map_cons, List.map_cons, List.cons.injEq, List.cons.injEq] at spelt
      obtain ⟨upper, lower, spelt⟩ := spelt
      exact ⟨byte, rest, rfl, value?_eq_some_iff.mpr ⟨by omega, upper⟩,
        value?_eq_some_iff.mpr ⟨by omega, lower⟩, spelt⟩
  · intro pair
    obtain ⟨byte, rest, rfl, upper, lower, spelt⟩ := pair
    unfold Spells at spelt ⊢
    rw [digits_cons, List.map_cons, List.map_cons, spelt, (value?_eq_some_iff.mp upper).2,
      (value?_eq_some_iff.mp lower).2]

/-- The reader takes digits exactly as they spell a byte string. -/
theorem ofDigits?_eq_some_iff : ofDigits? text = some bytes ↔ Spells text bytes := by
  -- Digits are taken in pairs, so the induction goes the way of the reader.
  induction text using ofDigits?.induct generalizing bytes with
  | case1 =>
    cases bytes with
    | nil => exact iff_of_true rfl rfl
    | cons byte rest => exact iff_of_false (by intro read; cases read) (by intro spelt; cases spelt)
  | case2 c =>
    -- A single digit is half a byte.
    refine iff_of_false (by intro read; cases read) ?_
    intro spelt
    have lengths := congrArg List.length spelt
    rw [length_digits, List.length_map, List.length_singleton] at lengths
    omega
  | case3 high low rest ih =>
    rw [spells_cons_iff]
    simp only [ofDigits?, Option.bind_eq_bind, Option.bind_eq_some_iff, Option.pure_def,
      Option.some.injEq]
    constructor
    · intro taken
      obtain ⟨x, upper, y, lower, tail, read, rfl⟩ := taken
      obtain ⟨byte, top, bottom, whole⟩ :=
        exists_byte (value?_eq_some_iff.mp upper).1 (value?_eq_some_iff.mp lower).1
      exact ⟨byte, tail, by rw [whole], by rw [top, upper], by rw [bottom, lower], ih.mp read⟩
    · intro pair
      obtain ⟨byte, tail, rfl, upper, lower, spelt⟩ := pair
      refine ⟨_, upper, _, lower, tail, ih.mpr spelt, ?_⟩
      rw [Nat.div_add_mod, UInt8.ofNat_toNat]

/-- Digits spell a byte string once their number is even. -/
theorem exists_spells_iff :
    (∃ bytes, Spells text bytes) ↔ text.length % 2 = 0 ∧ ∀ c ∈ text, IsDigit c := by
  -- Digits are taken in pairs here as well, and a digit left alone spells nothing.
  induction text using ofDigits?.induct with
  | case1 => exact iff_of_true ⟨[], rfl⟩ ⟨rfl, by simp⟩
  | case2 c =>
    refine iff_of_false ?_ (by simp)
    intro spelling
    obtain ⟨bytes, spelt⟩ := spelling
    cases ofDigits?_eq_some_iff.mpr spelt
  | case3 high low rest ih =>
    simp only [spells_cons_iff, List.forall_mem_cons, isDigit_iff_exists_value]
    simp only [isDigit_iff_exists_value] at ih
    constructor
    · intro spelling
      obtain ⟨_, byte, tail, rfl, upper, lower, spelt⟩ := spelling
      obtain ⟨even, only⟩ := ih.mp ⟨tail, spelt⟩
      exact ⟨by simp only [List.length_cons]; omega, ⟨_, upper⟩, ⟨_, lower⟩, only⟩
    · intro paired
      obtain ⟨even, ⟨x, upper⟩, ⟨y, lower⟩, only⟩ := paired
      obtain ⟨tail, spelt⟩ := ih.mpr ⟨by simp only [List.length_cons] at even; omega, only⟩
      obtain ⟨byte, top, bottom, -⟩ :=
        exists_byte (value?_eq_some_iff.mp upper).1 (value?_eq_some_iff.mp lower).1
      exact ⟨byte :: tail, byte, tail, rfl, by rw [top, upper], by rw [bottom, lower], spelt⟩

/-- A byte string is spelt by its own digits. -/
theorem spells_digits (bytes : Bytes) : Spells (digits bytes) bytes :=
  -- The digits that are written for a byte string are read back as that byte string.
  ofDigits?_eq_some_iff.mp (ofDigits?_digits bytes)

/-- A number of markers in lower case. -/
def markers (count : Nat) : List Char := (List.replicate count ['0', 'x']).flatten

/-- A text with white space at its two ends and markers in front, and another text in between. -/
def Dresses (plain text : String) : Prop :=
  ∃ before count after, (∀ c ∈ before, Blank.isBlank c) ∧ (∀ c ∈ after, Blank.isBlank c) ∧
    text.toList = before ++ (markers count ++ plain.toList) ++ after

/-- One more marker stands in front of the others. -/
theorem markers_succ (count : Nat) : markers (count + 1) = '0' :: 'x' :: markers count := by
  rw [markers, List.replicate_succ, List.flatten_cons]
  rfl

/-- There are two characters to a marker. -/
theorem length_markers (count : Nat) : (markers count).length = 2 * count := by
  -- The markers are counted off from the front.
  induction count with
  | zero => rfl
  | succ count ih =>
    rw [markers_succ, List.length_cons, List.length_cons, ih]
    omega

/-- Markers hold no white space. -/
theorem isBlank_of_mem_markers {count : Nat} {c : Char} (inside : c ∈ markers count) :
    Blank.isBlank c = false := by
  -- There are only two characters in them.
  obtain ⟨marker, copied, half⟩ := List.mem_flatten.mp inside
  obtain rfl := List.eq_of_mem_replicate copied
  simp only [List.mem_cons, List.not_mem_nil, or_false] at half
  rcases half with rfl | rfl
  · decide
  · decide

/-- Markers in front of a text are removed. -/
theorem dropMarkers_markers (count : Nat) (text : List Char) :
    dropMarkers (markers count ++ text) = dropMarkers text := by
  -- Each step of the reader removes the first of them.
  induction count with
  | zero => rfl
  | succ count ih => rw [markers_succ, List.cons_append, List.cons_append, dropMarkers, ih]

/-- All that is removed is markers. -/
theorem exists_markers (text : List Char) : ∃ count, text = markers count ++ dropMarkers text := by
  -- The induction goes the way of the reader, which removes one marker at a time.
  fun_induction dropMarkers text with
  | case1 rest ih =>
    obtain ⟨count, whole⟩ := ih
    refine ⟨count + 1, ?_⟩
    rw [markers_succ, List.cons_append, List.cons_append, ← whole]
  | case2 text => exact ⟨0, rfl⟩

/-- No marker in lower case is left in front. -/
theorem dropMarkers_ne (text rest : List Char) : dropMarkers text ≠ '0' :: 'x' :: rest := by
  -- The reader stops at the first text that it cannot shorten.
  fun_induction dropMarkers text with
  | case1 inner ih => exact ih
  | case2 text unmarked => exact unmarked rest

end Hex

end Blake2F
