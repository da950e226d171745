import Blake2F.Proofs.Codec
import Blake2F.Proofs.PayloadBuffer

/-! Payloads that arrive in pieces come to what the same bytes come to at once, however they are cut and
whatever has gone through the buffer before. -/

namespace Blake2F

namespace Layout

/-- What comes of a byte string once its gas is paid. -/
def outcome (policy : FlagPolicy) (bytes : Bytes) : Except CallError (Vector UInt8 64) :=
  if bytes.length ≠ 213 then .error .wrongLength
  else if policy.Refuses (flag bytes) then .error .wrongFlag
  else .ok (Rows.compress (params bytes)).encode

variable {policy : FlagPolicy} {bytes : Bytes}

/-- Any other length than that of a payload is refused. -/
theorem outcome_of_length_ne (sized : bytes.length ≠ 213) :
    outcome policy bytes = .error .wrongLength := if_pos sized

/-- Of a byte string as long as a payload, the flag decides. -/
theorem outcome_of_length_eq (sized : bytes.length = 213) :
    outcome policy bytes = if policy.Refuses (flag bytes) then .error .wrongFlag
      else .ok (Rows.compress (params bytes)).encode := if_neg (not_not_intro sized)

/-- The length is at fault only where it is not that of a payload. -/
theorem outcome_eq_wrongLength_iff :
    outcome policy bytes = .error .wrongLength ↔ bytes.length ≠ 213 := by
  -- A payload of the right length comes to another error, or to an output.
  constructor
  · intro wrong sized
    rw [outcome_of_length_eq sized] at wrong
    -- The flag can be at fault instead, or nothing at all.
    split at wrong
    · cases wrong
    · cases wrong
  · exact outcome_of_length_ne

end Layout

namespace Payload

/-- Decoding a payload and compressing what it holds gives its outcome, with any engine. -/
theorem decode_map_compressWith (machine : Machine) (engine : Engine) (policy : FlagPolicy)
    (payload : Payload) :
    (decode payload policy).map (·.compressWith machine engine) =
      Layout.outcome policy payload.toList := by
  -- The flag is refused on both sides, or on neither.
  rw [decode_eq, Layout.outcome_of_length_eq Vector.length_toList]
  by_cases refused : policy.Refuses (Layout.flag payload.toList)
  · rw [if_pos refused, if_pos refused]
    rfl
  · rw [if_neg refused, if_neg refused, Except.map, Params.compressWith_eq]

/-- A byte string that is decoded and then compressed comes to its outcome, whatever its length. -/
theorem decodeBytes_map_compressWith (machine : Machine) (engine : Engine) (policy : FlagPolicy)
    (bytes : Bytes) :
    (decodeBytes bytes policy).map (·.compressWith machine engine) =
      Layout.outcome policy bytes := by
  -- It is a payload if it has the right length, and refused if it has not.
  by_cases sized : bytes.length = 213
  · obtain ⟨(payload : Payload), rfl⟩ := Bytes.exists_toList sized
    rw [decodeBytes_toList, decode_map_compressWith]
  · rw [decodeBytes, Bytes.toVector?_eq_none_iff.mpr sized, Layout.outcome_of_length_ne sized]
    rfl

end Payload

/-- A call that can pay for its rounds gives the outcome of its byte string. -/
theorem Call.run_value_map_bytes (machine : Machine) (policy : FlagPolicy) (bytes : Bytes)
    (gasLimit : UInt64) (paid : bytes.length = 213 → Layout.rounds bytes ≤ gasLimit.toNat) :
    (run machine policy bytes gasLimit).value.map Output.bytes = Layout.outcome policy bytes := by
  -- The checks of the call are those of the outcome, but for the gas in between.
  rw [run_eq_answer, answer]
  by_cases sized : bytes.length = 213
  · have enough : ¬ gasLimit.toNat < Layout.rounds bytes := Nat.not_lt.mpr (paid sized)
    rw [if_neg (not_not_intro sized), if_neg enough, Layout.outcome_of_length_eq sized]
    by_cases refused : policy.Refuses (Layout.flag bytes)
    · rw [if_pos refused, if_pos refused]
      rfl
    · rw [if_neg refused, if_neg refused]
      rfl
  · rw [if_pos sized, Layout.outcome_of_length_ne sized]
    rfl

namespace PayloadBuffer

/-- Takes pieces in one after another; the first that does not fit is refused and ends it. -/
def appendAll (buffer : PayloadBuffer) : List Bytes → Except CallError Unit × PayloadBuffer
  | [] => (.ok (), buffer)
  | piece :: rest =>
    match buffer.append piece with
    | (.ok _, after) => after.appendAll rest
    | (.error error, after) => (.error error, after)

/-- Takes in the pieces of a payload and compresses it, unless one of them is refused. -/
def settle (machine : Machine) (buffer : PayloadBuffer) (pieces : List Bytes) :
    Except CallError (Vector UInt8 64) × PayloadBuffer :=
  match buffer.appendAll pieces with
  | (.ok _, after) => after.finish machine
  | (.error error, after) => (.error error, after)

/-- Settles payloads one after another in the same buffer. -/
def settleAll (machine : Machine) (buffer : PayloadBuffer) :
    List (List Bytes) → List (Except CallError (Vector UInt8 64))
  | [] => []
  | pieces :: rest =>
    match buffer.settle machine pieces with
    -- An output or a refused flag has emptied the buffer already; a wrong length leaves bytes behind.
    | (.error .wrongLength, after) => .error .wrongLength :: after.clear.settleAll machine rest
    | (result, after) => result :: after.settleAll machine rest

variable {buffer : PayloadBuffer} {intake : Intake}

/-- A piece that fits arrives behind what has arrived before it. -/
theorem Shows.append_arrives (shows : buffer.Shows intake) {data : Bytes}
    (fits : intake.arrived.length + data.length ≤ 213) :
    ∃ after shown, buffer.append data = (.ok (), after) ∧ after.Shows shown ∧
      shown.arrived = intake.arrived ++ data ∧ shown.policy = intake.policy := by
  -- The intake tells where the piece goes.
  obtain ⟨after, shown, taken, arrives, same⟩ := shows.append_of_fits fits
  rw [Intake.append, dif_pos fits] at arrives
  cases arrives
  exact ⟨after, _, taken, same, rfl, rfl⟩

/-- Pieces that fit together arrive one behind another. -/
theorem Shows.appendAll_of_fits (shows : buffer.Shows intake) (pieces : List Bytes)
    (fits : intake.arrived.length + pieces.flatten.length ≤ 213) :
    ∃ after shown, buffer.appendAll pieces = (.ok (), after) ∧ after.Shows shown ∧
      shown.arrived = intake.arrived ++ pieces.flatten ∧ shown.policy = intake.policy := by
  -- Each piece finds the buffer showing all that has arrived before it.
  induction pieces generalizing buffer intake with
  | nil => exact ⟨buffer, intake, rfl, shows, (List.append_nil _).symm, rfl⟩
  | cons piece rest ih =>
    rw [List.flatten_cons, List.length_append] at fits
    have first : intake.arrived.length + piece.length ≤ 213 := by omega
    obtain ⟨next, shown, taken, same, arrived, policy⟩ := shows.append_arrives first
    have others : shown.arrived.length + rest.flatten.length ≤ 213 := by
      rw [arrived, List.length_append]
      omega
    obtain ⟨after, last, done, shows', all, kept⟩ := ih same others
    refine ⟨after, last, ?_, shows', ?_, kept.trans policy⟩
    · rw [appendAll, taken]
      exact done
    · rw [all, arrived, List.flatten_cons, List.append_assoc]

/-- Pieces that do not fit together are refused at the first that is too much. -/
theorem Shows.appendAll_of_not_fits (shows : buffer.Shows intake) (pieces : List Bytes)
    (surplus : ¬ intake.arrived.length + pieces.flatten.length ≤ 213) :
    ∃ after shown, buffer.appendAll pieces = (.error .wrongLength, after) ∧ after.Shows shown ∧
      shown.policy = intake.policy := by
  -- Pieces are taken in as long as they fit, and then one does not.
  induction pieces generalizing buffer intake with
  | nil =>
    -- What has arrived fits by itself.
    have within := intake.within
    rw [List.flatten_nil, List.length_nil] at surplus
    omega
  | cons piece rest ih =>
    rw [List.flatten_cons, List.length_append] at surplus
    by_cases first : intake.arrived.length + piece.length ≤ 213
    · obtain ⟨next, shown, taken, same, arrived, policy⟩ := shows.append_arrives first
      have others : ¬ shown.arrived.length + rest.flatten.length ≤ 213 := by
        rw [arrived, List.length_append]
        omega
      obtain ⟨after, last, refused, shows', kept⟩ := ih same others
      refine ⟨after, last, ?_, shows', kept.trans policy⟩
      rw [appendAll, taken]
      exact refused
    · obtain ⟨refused, -⟩ := shows.append_of_not_fits first
      refine ⟨buffer, intake, ?_, shows, rfl⟩
      rw [appendAll, refused]

/-- A complete payload comes to its outcome, and the buffer is cleared. -/
theorem Shows.finish_eq_outcome (machine : Machine) (shows : buffer.Shows intake)
    (complete : intake.arrived.length = 213) :
    buffer.finish machine = (Layout.outcome intake.policy intake.arrived, buffer.clear) := by
  -- Nothing is missing, so what has arrived is decoded.
  have nothing : buffer.remaining = 0 := by
    rw [shows.remaining_eq, complete]
  have bytes := shows.toList_of_complete (Nat.not_lt.mpr (Nat.le_of_eq complete.symm))
  rw [finish, if_pos nothing]
  simp only [Payload.decode_map_compressWith, bytes, shows.policy]

variable {policy : FlagPolicy}

/-- Pieces come to the outcome of their bytes, and leave an empty buffer unless the length was wrong. -/
theorem Shows.settle_eq_outcome (machine : Machine) (shows : buffer.Shows (Intake.empty policy))
    (pieces : List Bytes) :
    ∃ after, buffer.settle machine pieces = (Layout.outcome policy pieces.flatten, after) ∧
      after.clear.Shows (Intake.empty policy) ∧
      (pieces.flatten.length = 213 → after.Shows (Intake.empty policy)) := by
  -- The pieces fit together and complete a payload, or fall short of it, or are too many.
  by_cases fits : (Intake.empty policy).arrived.length + pieces.flatten.length ≤ 213
  · obtain ⟨full, shown, taken, same, arrived, kept⟩ := shows.appendAll_of_fits pieces fits
    have bytes : shown.arrived = pieces.flatten := arrived
    have held : shown.policy = policy := kept
    rw [settle, taken]
    by_cases complete : pieces.flatten.length = 213
    · refine ⟨full.clear, ?_, ?_, ?_⟩
      · rw [← bytes, ← held]
        exact same.finish_eq_outcome machine (by rw [bytes, complete])
      · exact held ▸ same.clear.clear
      · intro _
        exact held ▸ same.clear
    · -- Too few bytes have arrived, and they stay until the buffer is cleared.
      have short : shown.arrived.length < 213 := by
        have within := shown.within
        rw [bytes] at within ⊢
        omega
      obtain ⟨refused, -⟩ := same.finish_of_incomplete machine short
      refine ⟨full, ?_, held ▸ same.clear, fun sized => absurd sized complete⟩
      rw [Layout.outcome_of_length_ne complete]
      exact refused
  · obtain ⟨after, shown, refused, same, kept⟩ := shows.appendAll_of_not_fits pieces fits
    have held : shown.policy = policy := kept
    have nothing : (Intake.empty policy).arrived.length = 0 := rfl
    have wrong : pieces.flatten.length ≠ 213 := by omega
    refine ⟨after, ?_, held ▸ same.clear, fun sized => absurd sized wrong⟩
    rw [settle, refused, Layout.outcome_of_length_ne wrong]

/-- In one buffer, every payload comes to its own outcome, whatever has come before it. -/
theorem Shows.settleAll_eq_outcomes (machine : Machine)
    (shows : buffer.Shows (Intake.empty policy)) (payloads : List (List Bytes)) :
    buffer.settleAll machine payloads =
      payloads.map fun pieces => Layout.outcome policy pieces.flatten := by
  -- Each payload finds the buffer showing nothing.
  induction payloads generalizing buffer with
  | nil => rfl
  | cons pieces rest ih =>
    obtain ⟨after, settled, cleared, empty⟩ := shows.settle_eq_outcome machine pieces
    rw [settleAll, settled, List.map_cons]
    by_cases sized : pieces.flatten.length = 213
    · have outcome : Layout.outcome policy pieces.flatten ≠ .error .wrongLength := by
        intro wrong
        exact Layout.outcome_eq_wrongLength_iff.mp wrong sized
      split
      · next _ same => exact absurd (congrArg Prod.fst same) outcome
      · next _ _ _ same =>
        cases same
        rw [ih (empty sized)]
    · rw [Layout.outcome_of_length_ne sized]
      show .error .wrongLength :: after.clear.settleAll machine rest = _
      rw [ih cleared]

/-- At once, decoded first or in pieces, and in a fresh buffer or a used one, a payload comes to the same. -/
theorem every_way_agrees (machine : Machine) (policy : FlagPolicy) (engine : Engine)
    (pieces : List Bytes) (gasLimit : UInt64)
    (paid : pieces.flatten.length = 213 → Layout.rounds pieces.flatten ≤ gasLimit.toNat) :
    (Call.run machine policy pieces.flatten gasLimit).value.map Output.bytes =
      (Payload.decodeBytes pieces.flatten policy).map (·.compressWith machine engine) ∧
    (((empty machine policy).withEngine engine).settle machine pieces).1 =
      (Payload.decodeBytes pieces.flatten policy).map (·.compressWith machine engine) ∧
    ∀ payloads : List (List Bytes),
      ((empty machine policy).withEngine engine).settleAll machine payloads =
        payloads.map fun pieces =>
          (Payload.decodeBytes pieces.flatten policy).map (·.compressWith machine engine) := by
  -- A fresh buffer shows an empty intake, whatever its engine.
  have fresh : ((empty machine policy).withEngine engine).Shows (Intake.empty policy) :=
    (shows_empty machine policy).withEngine engine
  -- All of them give the outcome of the bytes.
  simp only [Payload.decodeBytes_map_compressWith]
  refine ⟨Call.run_value_map_bytes machine policy pieces.flatten gasLimit paid, ?_, ?_⟩
  · obtain ⟨after, settled, -, -⟩ := fresh.settle_eq_outcome machine pieces
    rw [settled]
  · intro payloads
    exact fresh.settleAll_eq_outcomes machine payloads

/-- A payload of twelve rounds in three pieces, one of them empty. -/
def threePieces : List Bytes := [[0, 0, 0, 12], [], List.replicate 209 1]

/-- Twelve units of gas pay for the three pieces, and they come to what the call gives. -/
theorem settle_threePieces :
    threePieces.flatten.length = 213 ∧ Layout.rounds threePieces.flatten = 12 ∧
    (((empty { avx2 := true } .strict).withEngine .avx2).settle { avx2 := true } threePieces).1 =
      (Call.run { avx2 := true } .strict threePieces.flatten 12).value.map Output.bytes := by
  -- The first piece holds the round count, and the last one all the other bytes.
  have sized : threePieces.flatten.length = 213 := by
    simp only [threePieces, List.flatten_cons, List.flatten_nil, List.length_append, List.length_cons,
      List.length_nil, List.length_replicate]
  have rounds : Layout.rounds threePieces.flatten = 12 := rfl
  have agrees := every_way_agrees { avx2 := true } .strict .avx2 threePieces 12 fun _ => Nat.le_of_eq rounds
  exact ⟨sized, rounds, agrees.2.1.trans agrees.1.symm⟩

end PayloadBuffer

end Blake2F
