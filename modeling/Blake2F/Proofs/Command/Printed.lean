import Blake2F.Proofs.Command.Fields
import Blake2F.Proofs.Command.Source
import Blake2F.Proofs.Text.Spelling
import Blake2F.Proofs.Wire

/-! A printed payload, called with, gives the output that was printed with it. -/

namespace Blake2F

namespace Encoding

variable {command : Encoding}

/-- The numbers and the flag of a command become those of its parameters. -/
theorem exists_of_params {params : Params} (built : command.params = .ok params) :
    ∃ state block, params =
      { rounds := command.rounds, state, block, counter := ⟨command.low, command.high⟩
        final := command.final } := by
  -- The two texts decide on the state and the block, and on nothing else.
  rw [params_eq] at built
  cases first : command.givenState with
  | error error => simp [first, Bind.bind, Except.bind] at built
  | ok state =>
    cases second : command.givenBlock with
    | error error => simp [first, second, Bind.bind, Except.bind] at built
    | ok block =>
      simp only [first, second, Bind.bind, Except.bind, Pure.pure, Except.pure,
        Except.ok.injEq] at built
      exact ⟨state, block, built.symm⟩

end Encoding

/-- A call with an encoding that cannot be paid for is refused. -/
theorem Call.run_encode_of_dear (machine : Machine) (policy : FlagPolicy) (params : Params)
    (gasLimit : UInt64) (dear : gasLimit.toNat < params.rounds.toNat) :
    run machine policy params.encode.toList gasLimit =
      ⟨[.outOfGas params.rounds gasLimit], .error .outOfGas⟩ := by
  -- The gas is looked at before the flag.
  have more : gasLimit < gasOfRounds params.rounds := by
    rw [UInt64.lt_iff_toNat_lt, gasOfRounds_toNat]
    exact dear
  rw [run, Bytes.toVector?_toList]
  simp only [Payload.rounds_encode, if_pos more]

namespace Command

/-- Whatever is encoded and compressed, the payload that is printed gives the output that is printed below
it, at one unit of gas a round, from every place, in every dress and under either policy. -/
theorem printed_payload_gives_printed_output (writer : Surroundings) (encoding : Encoding)
    (compressing : encoding.compress = true)
    (succeeds : (outcome writer (.encode encoding)).1 = .ok ()) :
    ∃ payload output, (outcome writer (.encode encoding)).2.stdout = [payload, output] ∧
      ∀ (reader : Surroundings) (calling : Calling) (text : String),
        Hex.Dresses payload text → calling.source.Supplies reader.files text →
          (encoding.rounds.toNat ≤ calling.gasLimit.toNat →
            (outcome reader (.call calling)).1 = .ok () ∧
            (outcome reader (.call calling)).2.stdout =
              [output, "gas used: " ++ encoding.rounds.toNat.repr]) ∧
          (calling.gasLimit.toNat < encoding.rounds.toNat →
            (outcome reader (.call calling)).1 = .error (.call (.call .outOfGas)) ∧
            (outcome reader (.call calling)).2.stdout = []) := by
  -- The reader gets back the encoding of the writer's parameters, and calls with it.
  cases built : encoding.params with
  | error error =>
    rw [outcome_encode, Encoding.outcome_of_error built] at succeeds
    cases succeeds
  | ok params =>
    obtain ⟨state, block, same⟩ := Encoding.exists_of_params built
    have rounds : params.rounds = encoding.rounds := by rw [same]
    refine ⟨Hex.encode params.encode.toList, Hex.encode (Rows.compress params).encode.toList, ?_, ?_⟩
    · rw [outcome_encode, Encoding.outcome_of_params built]
      simp [Encoding.lines, compressing, Params.compress, Params.compressWith_eq]
    · intro reader calling text dressed supplies
      have read : calling.source.read reader.files = .ok (some params.encode.toList) := by
        rw [supplies.read_eq, Hex.parse?_of_dresses dressed]
      rw [outcome_call, Calling.outcome_of_payload calling read, ← rounds]
      constructor
      · intro paid
        rw [Call.run_encode _ _ _ _ paid]
        simp [Except.mapError, Calling.lines, Params.gas, gasOfRounds_toNat]
      · intro dear
        rw [Call.run_encode_of_dear _ _ _ _ dear]
        simp [Except.mapError]

/-- Twelve rounds over a short final block. -/
def shortMessage : Encoding :=
  { block := some " 0x616263", low := 3, final := true, compress := true }

/-- A text behind a line feed, a blank and two markers, and in front of another line feed. -/
def dress (text : String) : String :=
  String.ofList (['\n', ' '] ++ (Hex.markers 2 ++ text.toList) ++ ['\n'])

/-- Surroundings in which every file holds the same text. -/
def holding (text : String) : Surroundings := ⟨{ avx2 := true }, fun _ => .file text.toUTF8, 0⟩

/-- The payload of the short message is called with from a file: twelve units of gas pay for it, and eleven
do not. -/
theorem shortMessage_called_from_file :
    shortMessage.compress = true ∧ (outcome (holding "") (.encode shortMessage)).1 = .ok () ∧
    ∃ payload output, (outcome (holding "") (.encode shortMessage)).2.stdout = [payload, output] ∧
      (outcome (holding (dress payload))
        (.call { source := ⟨none, some "payload.hex"⟩, gasLimit := 12, strict := true })).2.stdout =
          [output, "gas used: 12"] ∧
      (outcome (holding (dress payload))
        (.call { source := ⟨none, some "payload.hex"⟩, gasLimit := 11 })).1 =
          .error (.call (.call .outOfGas)) := by
  -- The command is run once to know that it succeeds, and its lines are then known as well.
  have built : ∃ params, shortMessage.params = .ok params := ⟨_, rfl⟩
  have succeeds : (outcome (holding "") (.encode shortMessage)).1 = .ok () := by
    obtain ⟨params, built⟩ := built
    rw [outcome_encode, Encoding.outcome_of_params built]
    rfl
  obtain ⟨payload, output, printed, called⟩ :=
    printed_payload_gives_printed_output (holding "") shortMessage rfl succeeds
  have dressed : Hex.Dresses payload (dress payload) :=
    ⟨['\n', ' '], 2, ['\n'], List.all_eq_true.mp rfl, List.all_eq_true.mp rfl, String.toList_ofList⟩
  have supplies : Source.Supplies (holding (dress payload)).files (dress payload)
      ⟨none, some "payload.hex"⟩ := .path (PathState.text_file (dress payload))
  have enough := (called (holding (dress payload))
    { source := ⟨none, some "payload.hex"⟩, gasLimit := 12, strict := true } _ dressed supplies).1
  have short := (called (holding (dress payload))
    { source := ⟨none, some "payload.hex"⟩, gasLimit := 11 } _ dressed supplies).2
  exact ⟨rfl, succeeds, payload, output, printed, (enough (by decide)).2, (short (by decide)).1⟩

end Command

end Blake2F
