import Blake2F.Proofs.Codec
import Blake2F.Proofs.Command.Outcome

/-! What the encoding command makes of its two texts: the bytes that it prints among its numbers, or the first
fault that it meets. -/

namespace Blake2F

/-- The bytes of a payload, field by field. -/
theorem Params.toList_encode (params : Params) :
    params.encode.toList =
      Bytes.bigEndianDigits 4 params.rounds.toNat ++ params.state.encode.toList ++
        params.block.toList ++ Bytes.littleEndianDigits 8 params.counter.low.toNat ++
        Bytes.littleEndianDigits 8 params.counter.high.toNat ++ [if params.final then 1 else 0] := by
  -- The fields are appended one by one, and each is a byte string of its own.
  have rounds : (roundBytes params.rounds).toList = Bytes.bigEndianDigits 4 params.rounds.toNat := by
    rw [roundBytes, Vector.toList_mk, List.toList_toArray]
  unfold encode
  simp only [Vector.toList_append, rounds, Word.toList_toBytes]
  rfl

/-- A state of zeros is written as zeros. -/
theorem State.toList_encode_zero :
    (State.encode (Vector.replicate 8 0)).toList = List.replicate 64 0 := by
  -- Each of its words is.
  rw [Layout.toList_encode]
  rfl

/-- A function of the value leaves errors alone. -/
theorem map_eq_error_iff {ε α β : Type} {f : α → β} {result : Except ε α} {error : ε} :
    result.map f = .error error ↔ result = .error error := by
  -- There is a value or an error.
  cases result with
  | error fault => simp only [Except.map, Except.error.injEq]
  | ok value => simp only [Except.map, reduceCtorEq]

/-- How a command treats one of its texts. -/
structure TextRule where
  /-- The numbers of bytes that a text may hold. -/
  allowed : Nat → Prop
  [decidable : DecidablePred allowed]
  /-- The fault of a text that holds another number of bytes. -/
  wrongLength : Nat → EncodingError
  /-- The bytes that stand in for a text that is not given. -/
  absent : Bytes

attribute [instance] TextRule.decidable

namespace TextRule

variable (rule : TextRule)

/-- The bytes that come of a text that there may be. -/
def Holds : Option String → Bytes → Prop
  | none, bytes => bytes = rule.absent
  | some text, bytes => Hex.parse? text = some bytes ∧ rule.allowed bytes.length

/-- What is wrong with a text that there may be. -/
def Faulty : Option String → EncodingError → Prop
  -- A text that is not given is never at fault.
  | none, _ => False
  | some text, error =>
    (Hex.parse? text = none ∧ error = .invalidHex) ∨
      ∃ bytes, Hex.parse? text = some bytes ∧ ¬ rule.allowed bytes.length ∧
        error = rule.wrongLength bytes.length

/-- Reads a text that there may be; its digits are looked at before its length. -/
def read : Option String → Except EncodingError Bytes
  | none => .ok rule.absent
  | some text =>
    match Hex.parse? text with
    | none => .error .invalidHex
    | some bytes =>
      if rule.allowed bytes.length then .ok bytes else .error (rule.wrongLength bytes.length)

variable {rule} {given : Option String}

/-- The bytes read are those that the rule lets a text hold. -/
theorem read_eq_ok_iff {bytes : Bytes} : rule.read given = .ok bytes ↔ rule.Holds given bytes := by
  -- The text is given or not, has digits only or not, and is of an allowed length or not.
  cases given with
  | none => rw [read, Holds, Except.ok.injEq, eq_comm]
  | some text =>
    rw [read, Holds]
    cases Hex.parse? text with
    | none => simp only [reduceCtorEq, false_and]
    | some found =>
      dsimp only
      split
      next fits =>
        rw [Except.ok.injEq, Option.some.injEq]
        constructor
        · intro same
          subst same
          exact ⟨rfl, fits⟩
        · intro both
          exact both.1
      next refused =>
        simp only [reduceCtorEq, false_iff, Option.some.injEq]
        intro both
        obtain ⟨rfl, fits⟩ := both
        exact refused fits

/-- The error is what is wrong with the text. -/
theorem read_eq_error_iff {error : EncodingError} :
    rule.read given = .error error ↔ rule.Faulty given error := by
  -- The cases are those of reading, each with its own error.
  cases given with
  | none =>
    rw [read, Faulty]
    simp only [reduceCtorEq]
  | some text =>
    rw [read, Faulty]
    cases Hex.parse? text with
    | none =>
      simp only [Except.error.injEq, reduceCtorEq, true_and, false_and, exists_false, or_false]
      exact eq_comm
    | some found =>
      simp only [Option.some.injEq, reduceCtorEq, false_and, false_or, exists_eq_left']
      split
      next fits => simp only [reduceCtorEq, fits, not_true, false_and]
      next refused =>
        simp only [Except.error.injEq, refused, not_false_eq_true, true_and]
        exact eq_comm

end TextRule

namespace Encoding

/-- The chaining state is given in full, or taken to be zeros. -/
def stateRule : TextRule where
  allowed := (· = 64)
  wrongLength := .stateLength
  absent := List.replicate 64 0

/-- The message block may be given in part. -/
def blockRule : TextRule where
  allowed := (· ≤ 128)
  wrongLength := .blockLength
  absent := []

/-- A block that is begun with some bytes is filled up with zeros. -/
def padded (part : Bytes) : Bytes := part ++ List.replicate (128 - part.length) 0

variable (command : Encoding)

/-- The fault that is reported: the block is looked at once nothing is wrong with the chaining state. -/
def FirstFault (error : EncodingError) : Prop :=
  stateRule.Faulty command.state error ∨
    (∃ state, stateRule.Holds command.state state) ∧ blockRule.Faulty command.block error

/-- The bytes of a payload: those of the state and of the block among the numbers of a command. -/
def payloadBytes (state block : Bytes) : Bytes :=
  Bytes.bigEndianDigits 4 command.rounds.toNat ++ state ++ block ++
    Bytes.littleEndianDigits 8 command.low.toNat ++ Bytes.littleEndianDigits 8 command.high.toNat ++
    [if command.final then 1 else 0]

/-- The chaining state of a command, or why there is none. -/
def givenState : Except EncodingError State :=
  command.state.elim (.ok (Vector.replicate 8 0)) readState

/-- The message block of a command, or why there is none. -/
def givenBlock : Except EncodingError Block :=
  command.block.elim (.ok (Vector.replicate 128 0)) readBlock

/-- The state is read first, then the block, and the numbers are taken as they are. -/
theorem params_eq :
    command.params = do
      let state ← command.givenState
      let block ← command.givenBlock
      return {
        rounds := command.rounds
        state
        block
        counter := ⟨command.low, command.high⟩
        final := command.final } := by
  rw [params, givenState, givenBlock]
  -- Each text is either given and read, or taken to be zeros.
  cases command.state with
  | none => cases command.block with
    | none => rfl
    | some block => rfl
  | some state => cases command.block with
    | none => rfl
    | some block => rfl

/-- The words that a state is read as are written as the same bytes. -/
theorem givenState_map :
    command.givenState.map (fun state => state.encode.toList) = stateRule.read command.state := by
  -- A state that is given is read in words, and the rule reads it in bytes.
  rw [givenState]
  cases command.state with
  | none => exact congrArg Except.ok State.toList_encode_zero
  | some text =>
    show (readState text).map _ = _
    rw [readState, TextRule.read]
    cases Hex.parse? text with
    | none => rfl
    | some bytes =>
      dsimp only
      by_cases sized : stateRule.allowed bytes.length
      · obtain ⟨vector, rfl⟩ := Bytes.exists_toList sized
        rw [Bytes.toVector?_toList, if_pos sized]
        exact congrArg (fun bytes => Except.ok bytes.toList) (State.encode_decode vector)
      · rw [Bytes.toVector?_eq_none_iff.mpr sized, if_neg sized]
        rfl

/-- The block is the bytes that are read, with zeros behind them. -/
theorem givenBlock_map :
    command.givenBlock.map Vector.toList = (blockRule.read command.block).map padded := by
  -- The rule allows the same lengths that there is room for.
  rw [givenBlock]
  cases command.block with
  | none => exact congrArg Except.ok Vector.toList_replicate
  | some text =>
    show (readBlock text).map _ = _
    rw [readBlock, TextRule.read]
    cases Hex.parse? text with
    | none => rfl
    | some bytes =>
      dsimp only
      by_cases within : blockRule.allowed bytes.length
      · have fits : bytes.length ≤ 128 := within
        rw [dif_pos fits, if_pos within]
        rfl
      · have long : ¬ bytes.length ≤ 128 := within
        rw [dif_neg long, if_neg within]
        rfl

/-- The payload that is put together, byte by byte. -/
theorem params_map :
    command.params.map (fun params => params.encode.toList) = do
      let state ← stateRule.read command.state
      let block ← (blockRule.read command.block).map padded
      return command.payloadBytes state block := by
  -- Both texts are read as their rules say, and the first error ends it.
  rw [params_eq, ← givenState_map, ← givenBlock_map]
  cases command.givenState with
  | error error => rfl
  | ok state =>
    cases command.givenBlock with
    | error error => rfl
    | ok block => exact congrArg Except.ok (Params.toList_encode _)

section

variable {command}

/-- Texts that hold what their rules allow make a payload of it. -/
theorem exists_params_of_holds {state part : Bytes} (first : stateRule.Holds command.state state)
    (second : blockRule.Holds command.block part) :
    ∃ params, command.params = .ok params ∧
      params.encode.toList = command.payloadBytes state (padded part) := by
  -- Neither of the two readings fails, so there are parameters, and their payload is known.
  have built := command.params_map
  rw [TextRule.read_eq_ok_iff.mpr first, TextRule.read_eq_ok_iff.mpr second] at built
  cases given : command.params with
  | error error =>
    rw [given] at built
    cases built
  | ok params =>
    rw [given] at built
    exact ⟨params, rfl, Except.ok.inj built⟩

/-- The error is the first fault of the two texts. -/
theorem params_eq_error_iff {error : EncodingError} :
    command.params = .error error ↔ command.FirstFault error := by
  -- The block counts only where the state is read without an error.
  rw [FirstFault, ← TextRule.read_eq_error_iff, ← TextRule.read_eq_error_iff]
  simp only [← TextRule.read_eq_ok_iff]
  rw [← map_eq_error_iff, params_map]
  cases stateRule.read command.state with
  | error fault => simp [Bind.bind, Except.bind]
  | ok state =>
    cases blockRule.read command.block with
    | error fault => simp [Bind.bind, Except.bind, Except.map]
    | ok part => simp [Bind.bind, Except.bind, Except.map, Pure.pure, Except.pure]

/-- Nothing but a fault of one of the texts stands in the way of the parameters. -/
theorem exists_params_iff :
    (∃ params, command.params = .ok params) ↔
      (∃ state, stateRule.Holds command.state state) ∧ ∃ part, blockRule.Holds command.block part := by
  -- Where there are parameters there is no fault, and a text without a fault holds something.
  constructor
  · intro built
    obtain ⟨params, given⟩ := built
    have unfaulty (error : EncodingError) : ¬ command.FirstFault error := by
      rw [← params_eq_error_iff, given]
      intro failed
      cases failed
    cases first : stateRule.read command.state with
    | error error => exact absurd (.inl (TextRule.read_eq_error_iff.mp first)) (unfaulty error)
    | ok state =>
      have held := TextRule.read_eq_ok_iff.mp first
      cases second : blockRule.read command.block with
      | error error =>
        exact absurd (.inr ⟨⟨state, held⟩, TextRule.read_eq_error_iff.mp second⟩) (unfaulty error)
      | ok part => exact ⟨⟨state, held⟩, part, TextRule.read_eq_ok_iff.mp second⟩
  · intro held
    obtain ⟨⟨state, first⟩, part, second⟩ := held
    obtain ⟨params, given, -⟩ := exists_params_of_holds first second
    exact ⟨params, given⟩

/-- The command fails where the parameters do, and for the same reason. -/
theorem outcome_fst (machine : Machine) :
    (command.run machine).outcome.1 = command.params.map fun _ => () := by
  -- What it prints does not change how it ends.
  cases given : command.params with
  | error error =>
    rw [outcome_of_error given]
    rfl
  | ok params =>
    rw [outcome_of_params given]
    rfl

end

/-- Of two bad texts the one of the chaining state is reported. -/
example : FirstFault { state := some "00", block := some "xyz" } (.stateLength 1) :=
  .inl (.inr ⟨[0], rfl, by decide, rfl⟩)

end Encoding

end Blake2F
