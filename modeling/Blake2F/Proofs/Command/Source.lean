import Blake2F.Command.Source

/-! What is read from a source: nothing, the bytes of the one text that it supplies, or an error. -/

namespace Blake2F

/-- A file holds a text as its bytes. -/
theorem PathState.text_file (text : String) : (file text.toUTF8).text = .ok text := by
  -- The bytes of a text are valid, so they are read back as that text.
  rw [PathState.text, String.fromUTF8?, String.toUTF8_eq_toByteArray, dif_pos text.isValidUTF8]
  rfl

/-- Only a missing path or the system keeps the text of a path from being read. -/
theorem PathState.error_of_text {state : PathState} {error : SourceError}
    (failed : state.text = .error error) : error = .pathNotExists ∨ ∃ reason, error = .io reason := by
  -- A file fails where its bytes are no text, which counts as the system's failure.
  cases state with
  | missing => cases failed; exact .inl rfl
  | directory => cases failed; exact .inr ⟨_, rfl⟩
  | unreadable reason => cases failed; exact .inr ⟨_, rfl⟩
  | file content =>
    rw [PathState.text] at failed
    split at failed
    · cases failed
    · cases failed; exact .inr ⟨_, rfl⟩

namespace Source

/-- Whether a payload is given at all, be it in vain. -/
def Given (source : Source) : Prop := source.text.isSome ∨ source.path.isSome

/-- The text that a source supplies: that of its path, or else its argument. -/
inductive Supplies (files : String → PathState) (text : String) : Source → Prop where
  /-- There is no path, so the argument counts. -/
  | argument : Supplies files text ⟨some text, none⟩
  /-- There is a path, so the argument does not count. -/
  | path {place : String} {argument : Option String} (content : (files place).text = .ok text) :
      Supplies files text ⟨argument, some place⟩

variable {files : String → PathState} {source : Source}

/-- The text that is supplied decides what is read. -/
theorem Supplies.read_eq {text : String} (supplies : source.Supplies files text) :
    source.read files = match Hex.parse? text with
      | some bytes => .ok (some bytes)
      | none => .error .invalidHex := by
  -- From an argument the text is taken as it is, and from a path as it has been found.
  cases supplies with
  | argument =>
    simp only [Source.read, Bind.bind, Except.bind]
    rfl
  | path content =>
    simp only [Source.read, content, Functor.map, Except.map, Bind.bind, Except.bind]
    rfl

/-- Reading a source finds nothing given, or no text at its path, or the text that it supplies. -/
theorem read_cases (files : String → PathState) (source : Source) :
    (¬ source.Given ∧ source.read files = .ok none) ∨
    (source.Given ∧ ∃ error, source.read files = .error error ∧
      (error = .pathNotExists ∨ ∃ reason, error = .io reason)) ∨
    (source.Given ∧ ∃ text, source.Supplies files text) := by
  -- The path is looked at first, and the argument only where there is none.
  rcases source with ⟨text, _ | place⟩
  · cases text with
    | none => exact .inl ⟨by simp [Given], rfl⟩
    | some text => exact .inr (.inr ⟨by simp [Given], text, .argument⟩)
  · cases content : (files place).text with
    | error error =>
      refine .inr (.inl ⟨by simp [Given], error, ?_, PathState.error_of_text content⟩)
      simp only [Source.read, content, Functor.map, Except.map, Bind.bind, Except.bind]
    | ok text => exact .inr (.inr ⟨by simp [Given], text, .path content⟩)

/-- Something is read from a source that is given, unless there is an error. -/
theorem read_ne_none (given : source.Given) : source.read files ≠ .ok none := by
  -- Of the three cases only the first reads nothing.
  intro read
  rcases read_cases files source with ⟨nothing, -⟩ | ⟨-, error, failed, -⟩ | ⟨-, text, supplies⟩
  · exact nothing given
  · rw [failed] at read
    cases read
  · rw [supplies.read_eq] at read
    split at read
    · cases read
    · cases read

/-- No payload fails to be read but for its path, the system or its digits. -/
theorem error_of_read {error : SourceError} (failed : source.read files = .error error) :
    error = .pathNotExists ∨ (∃ reason, error = .io reason) ∨ error = .invalidHex := by
  -- An error comes from the place of the text or from the text itself.
  rcases read_cases files source with ⟨-, read⟩ | ⟨-, cause, read, known⟩ | ⟨-, text, supplies⟩
  · rw [failed] at read
    cases read
  · rw [failed] at read
    cases read
    rcases known with missing | unreadable
    · exact .inl missing
    · exact .inr (.inl unreadable)
  · rw [supplies.read_eq] at failed
    split at failed
    · cases failed
    · cases failed
      exact .inr (.inr rfl)

end Source

end Blake2F
