import Blake2F.Engine
import Blake2F.Proofs.Call
import Blake2F.Proofs.Codec

/-! Chains of calls, in which the output of each call is written into the payload of the next, follow the
chain of the states themselves. -/

namespace Blake2F

namespace Bytes

variable {size start width : Nat}

/-- The field that has been written over shows what has been written. -/
theorem field_overwrite_self (bytes : Vector UInt8 size) (data : Vector UInt8 width)
    (within : start + data.toList.length ≤ size) :
    field (overwrite bytes start data.toList within) start width
      (by rwa [Vector.length_toList] at within) = data := by
  -- Each of its positions is one of those written.
  apply Vector.ext
  intro i inside
  have own : start ≤ start + i ∧ start + i - start < data.toList.length := by
    rw [Vector.length_toList]
    omega
  rw [getElem_field, getElem_overwrite, dif_pos own]
  simp only [Nat.add_sub_cancel_left, Vector.getElem_toList]

/-- A field before the bytes written or behind them stays as it was. -/
theorem field_overwrite_of_disjoint (bytes : Vector UInt8 size) (place : Nat) (data : Bytes)
    (room : place + data.length ≤ size) (within : start + width ≤ size)
    (apart : start + width ≤ place ∨ place + data.length ≤ start) :
    field (overwrite bytes place data room) start width within = field bytes start width within := by
  -- None of its positions is one of those written.
  apply Vector.ext
  intro i inside
  have outside : ¬ (place ≤ start + i ∧ start + i - place < data.length) := by omega
  rw [getElem_field, getElem_field, getElem_overwrite, dif_neg outside]

end Bytes

namespace Payload

/-- The payload with other bytes in the place of its chaining state. -/
def withState (payload : Payload) (state : Vector UInt8 64) : Payload :=
  Bytes.overwrite payload 4 state.toList (by rw [Vector.length_toList]; decide)

/-- A field behind the chaining state stays as it was. -/
theorem field_withState (payload : Payload) (state : Vector UInt8 64) (start width : Nat)
    (within : start + width ≤ 213) (behind : 68 ≤ start) :
    Bytes.field (payload.withState state) start width within =
      Bytes.field payload start width within := by
  -- The state ends where the block begins.
  have apart : 4 + state.toList.length ≤ start := by
    rw [Vector.length_toList]
    exact behind
  exact Bytes.field_overwrite_of_disjoint payload 4 state.toList _ within (.inr apart)

/-- The flag stays as it was. -/
theorem flag_withState (payload : Payload) (state : Vector UInt8 64) :
    (payload.withState state).flag = payload.flag := by
  -- The flag is the only byte of the last field.
  have last := field_withState payload state 212 1 (by decide) (by decide)
  exact Bytes.getElem_eq_of_field_eq last (Nat.le_refl _) (by decide)

end Payload

/-- Writing the bytes of a state into an encoding gives the encoding with that state. -/
theorem Params.withState_encode (params : Params) (state : State) :
    Payload.withState params.encode state.encode = encode { params with state } := by
  -- Two payloads are compared field by field, and only the state has been written over.
  apply Payload.eq_of_fields_eq
  · rw [field_rounds_encode, ← field_rounds_encode params]
    exact Bytes.field_overwrite_of_disjoint params.encode 4 _ _ (by decide) (.inl (by decide))
  · rw [field_state_encode]
    exact Bytes.field_overwrite_self params.encode state.encode _
  · rw [Payload.field_withState _ _ 68 128 (by decide) (by decide), field_block_encode,
      field_block_encode]
  · rw [Payload.field_withState _ _ 196 8 (by decide) (by decide), field_low_encode,
      field_low_encode]
  · rw [Payload.field_withState _ _ 204 8 (by decide) (by decide), field_high_encode,
      field_high_encode]
  · rw [Payload.flag_withState, flag_encode, flag_encode]

/-- A call with an encoding succeeds under either policy if it can pay for the rounds. -/
theorem Call.run_encode (machine : Machine) (policy : FlagPolicy) (params : Params)
    (gasLimit : UInt64) (paid : params.rounds.toNat ≤ gasLimit.toNat) :
    run machine policy params.encode.toList gasLimit =
      ⟨[.compressed params.rounds params.gas], .ok ⟨params.gas, (Rows.compress params).encode⟩⟩ := by
  -- The length is right, the gas suffices, and no policy refuses the flag.
  have enough : ¬ gasLimit < gasOfRounds params.rounds := by
    rw [UInt64.lt_iff_toNat_lt, gasOfRounds_toNat]
    omega
  rw [run, Bytes.toVector?_toList]
  simp only [Payload.rounds_encode, if_neg enough, Payload.decode_encode, Params.compress,
    Params.compressWith_eq, Params.gas]

namespace Wire

/-- A call that compresses one step of a chain. -/
structure Step where
  /-- What is compressed, its own state aside. -/
  params : Params
  /-- How the flag is read. -/
  policy : FlagPolicy
  /-- The gas limit of the call. -/
  gasLimit : UInt64
  /-- The call can pay for its rounds. -/
  paid : params.rounds.toNat ≤ gasLimit.toNat

/-- What the calls of a chain give, the first of them on the payload; a refused call ends the chain. -/
def outputs (machine : Machine) (payload : Payload) (step : Step) :
    List Step → List (Except CallError Output)
  | [] => [(Call.run machine step.policy payload.toList step.gasLimit).value]
  | next :: rest =>
    match (Call.run machine step.policy payload.toList step.gasLimit).value with
    | .error error => [.error error]
    -- The next payload keeps all but its own chaining state.
    | .ok output =>
      .ok output :: outputs machine (next.params.encode.withState output.bytes) next rest

/-- The states that the steps of a chain leave in one place in memory. -/
def states (state : State) (steps : List Step) : List State :=
  Chain.states (fun _ params => Rows.compress params) state
    (steps.map fun step => ((), step.params))

/-- Every call of a chain succeeds and gives the bytes of the state that its step leaves in memory. -/
theorem outputs_eq_states (machine : Machine) (state : State) (first : Step) (rest : List Step) :
    (outputs machine (Params.encode { first.params with state }) first rest).map
        (·.map Output.bytes) =
      (states state (first :: rest)).map fun state => .ok state.encode := by
  -- The payload of each call is the encoding of its step with the state that the step starts from.
  induction rest generalizing state first with
  | nil =>
    rw [outputs, Call.run_encode machine first.policy { first.params with state } first.gasLimit
      first.paid]
    rfl
  | cons next later ih =>
    rw [outputs, Call.run_encode machine first.policy { first.params with state } first.gasLimit
      first.paid]
    -- The output is the encoding of the state that the next step starts from.
    have linked := Params.withState_encode next.params (Rows.compress { first.params with state })
    simp only [linked, List.map_cons, ih]
    rfl

/-- Twelve rounds under the strict policy, which twelve units of gas just pay for. -/
def twelveRounds : Step where
  params := { rounds := 12, counter := ⟨128, 0⟩ }
  policy := .strict
  gasLimit := 12
  paid := by decide

/-- One round over the final block under the lenient policy. -/
def oneRound : Step where
  params := { rounds := 1, counter := ⟨256, 0⟩, final := true }
  policy := .lenient
  gasLimit := 5
  paid := by decide

/-- Both calls of a chain of two succeed, and each gives the bytes of its state. -/
theorem outputs_twelve_then_one :
    ∃ first second : State,
      states (Vector.replicate 8 0) [twelveRounds, oneRound] = [first, second] ∧
      (outputs .plain (Params.encode { twelveRounds.params with state := Vector.replicate 8 0 })
          twelveRounds [oneRound]).map (·.map Output.bytes) =
        [.ok first.encode, .ok second.encode] := by
  -- The states are those of the two compressions, one after the other.
  refine ⟨_, _, rfl, ?_⟩
  exact outputs_eq_states .plain (Vector.replicate 8 0) twelveRounds [oneRound]

end Wire

end Blake2F
