import Blake2F.Proofs.Access.Encoding
import Blake2F.Proofs.Access.PayloadBuffer

/-! No access of the library is out of range: with each one checked when it is made, everything gives what it gives
without the checks, and gathering fails past offset nine only. -/

namespace Blake2F

/-- Every access finds what it asks for, on the machine at hand. -/
structure AccessesSucceed (machine : Machine) : Prop where
  /-- A call checks the length of its payload before it reads a byte of it. -/
  call (policy : FlagPolicy) (bytes : Bytes) (gasLimit : UInt64) :
    Call.run? machine policy bytes gasLimit = some (Call.run machine policy bytes gasLimit)
  /-- So does decoding. -/
  decodeBytes (policy : FlagPolicy) (bytes : Bytes) :
    Payload.decodeBytes? bytes policy = some (Payload.decodeBytes bytes policy)
  /-- The fields of a payload lie within it. -/
  decode (policy : FlagPolicy) (payload : Payload) :
    Payload.decode? payload policy = some (Payload.decode payload policy) ∧
      Payload.rounds? payload = some (Payload.rounds payload)
  /-- The fields of parameters fit into a payload. -/
  encode (params : Params) : params.encode? = some params.encode
  /-- The words of a state fit into its bytes. -/
  encodeState (state : State) : state.encode? = some state.encode
  /-- No engine misses a word, whatever the number of rounds. -/
  compress (engine : Engine) (params : Params) :
    engine.compress? machine params = some (engine.compress machine params) ∧
      params.compressWith? machine engine = some (params.compressWith machine engine)
  /-- A buffer that starts out empty never writes a piece past its end, though it carries no bound on its count. -/
  history (policy : FlagPolicy) (steps : List PayloadBuffer.Step) :
    (LooseBuffer.Desk.fresh (.empty machine policy)).history? machine steps =
      some (((PayloadBuffer.Desk.fresh (.empty machine policy)).history machine steps).map
        fun reached => (reached.1, reached.2.loose))
  /-- Wherever it gets to, the range behind what has arrived is there for every piece that still fits. -/
  range (policy : FlagPolicy) (steps : List PayloadBuffer.Step) :
    ∃ states, (LooseBuffer.Desk.fresh (.empty machine policy)).history? machine steps = some states ∧
      ∀ state ∈ states, ∀ length ≤ 213 - state.2.current.filled,
        ∃ part, Bytes.slice? state.2.current.bytes state.2.current.filled
          (state.2.current.filled + length) = some part
  /-- The texts of a command are measured before they are copied. -/
  command (command : Encoding) : command.params? = some command.params
  /-- An address has room for the bytes of its number. -/
  address (word : Word) : Address.ofWord? word = some (Address.ofWord word)
  /-- Every round has its numbers, which find everything up to offset nine and nothing past it. -/
  gather (message : Message) (round : Nat) : ∃ numbers, Schedule.numbers? round = some numbers ∧
    ∀ offset, (Row.pick? message numbers offset = none ↔ 9 < offset) ∧
      Row.pick? message numbers offset = Row.gather? message (Schedule.order round) offset
  /-- A round gathers from four of those offsets. -/
  round (message : Message) (number : Nat) :
    (∀ rows, Rows.round? message number rows = some (Rows.round message number rows)) ∧
      (∀ lanes, Lanes.round? message number lanes = some (Lanes.round message number lanes)) ∧
      ∀ pairs, Pairs.round? message number pairs = some (Pairs.round message number pairs)
  /-- Before, within and after the rounds, no lane of any row is missed. -/
  rows (rows : Rows) (state : State) :
    (∀ counter final, Rows.start? state counter final = some (Rows.start state counter final)) ∧
      (∀ turnD turnB words, rows.mix? turnD turnB words = some (rows.mix turnD turnB words)) ∧
      rows.diagonalize? = some rows.diagonalize ∧ rows.undiagonalize? = some rows.undiagonalize ∧
      rows.fold? state = some (rows.fold state)

/-- No access of the library fails on any machine. -/
theorem accesses_succeed (machine : Machine) : AccessesSucceed machine where
  call := Call.run?_eq_run machine
  decodeBytes policy bytes := Payload.decodeBytes?_eq_decodeBytes bytes policy
  decode policy payload :=
    ⟨Payload.decode?_eq_decode payload policy, Payload.rounds?_eq_rounds payload⟩
  encode := Params.encode?_eq_encode
  encodeState := State.encode?_eq_encode
  compress engine params :=
    ⟨engine.compress?_eq_compress machine params, params.compressWith?_eq_compressWith machine engine⟩
  history policy steps := by
    rw [← PayloadBuffer.Desk.loose_fresh, PayloadBuffer.Desk.history?_loose]
  range policy steps := by
    rw [← PayloadBuffer.Desk.loose_fresh, PayloadBuffer.Desk.history?_loose]
    refine ⟨_, rfl, ?_⟩
    intro state member length fits
    -- Each state is that of a buffer whose count is within bounds.
    obtain ⟨reached, -, rfl⟩ := List.mem_map.mp member
    exact reached.2.current.exists_slice?_loose fits
  command := Encoding.params?_eq_params
  address := Address.ofWord?_eq_ofWord
  gather message round := by
    refine ⟨_, Schedule.numbers?_eq_order round, ?_⟩
    intro offset
    have same := Row.pick?_eq_gather? message (Schedule.order round) offset
    rw [same, Row.gather?_eq_none_iff]
    exact ⟨Iff.rfl, rfl⟩
  round message number :=
    ⟨Rows.round?_eq_round message number, Lanes.round?_eq_round message number,
      Pairs.round?_eq_round message number⟩
  rows rows state :=
    ⟨Rows.start?_eq_start state, fun turnD turnB => rows.mix?_eq_mix turnD turnB,
      rows.diagonalize?_eq_diagonalize, rows.undiagonalize?_eq_undiagonalize,
      rows.fold?_eq_fold state⟩

end Blake2F
