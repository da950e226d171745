import Blake2F.Log

/-! How sessions run: each step goes on from the transcript that the one before has left, and a failure
ends the run with the transcript as it stands. -/

namespace Blake2F

namespace Session

variable {ε δ α β : Type}

/-- How a run ends that begins on a transcript, and the transcript that it ends with. -/
def runFrom (before : Transcript) (session : Session ε α) : Except ε α × Transcript :=
  session.run.run before

/-- A session begins with nothing printed and nothing logged. -/
theorem outcome_eq_runFrom (session : Session ε α) : session.outcome = session.runFrom {} := rfl

variable (before : Transcript)

/-- A value alone leaves the transcript as it was. -/
@[simp] theorem runFrom_pure (value : α) :
    runFrom before (pure value : Session ε α) = (.ok value, before) := rfl

/-- What follows a step is run on its value, and not at all where the step fails. -/
@[simp] theorem runFrom_bind (session : Session ε α) (next : α → Session ε β) :
    runFrom before (session >>= next) =
      match runFrom before session with
      | (.ok value, after) => runFrom after (next value)
      | (.error error, after) => (.error error, after) := by
  -- The first step either goes on or has failed.
  show (ExceptT.bindCont next (session.run.run before).1).run (session.run.run before).2 = _
  rw [runFrom]
  rcases session.run.run before with ⟨_ | _, after⟩
  · rfl
  · rfl

/-- A line is printed behind all others. -/
@[simp] theorem runFrom_print (line : String) :
    runFrom before (print line : Session ε Unit) =
      (.ok (), { before with stdout := before.stdout ++ [line] }) := rfl

/-- Events are logged behind all others. -/
@[simp] theorem runFrom_log (events : List Event) :
    runFrom before (log events : Session ε Unit) =
      (.ok (), { before with log := before.log ++ events }) := rfl

/-- A result is passed on or wrapped, and leaves no trace. -/
@[simp] theorem runFrom_orFail (wrap : δ → ε) (result : Except δ α) :
    runFrom before (orFail wrap result) = (result.mapError wrap, before) := by
  -- Neither a value nor an error is printed or logged.
  cases result with
  | error error => rfl
  | ok value => rfl

/-- Printing a line for each item prints all of them in their order. -/
@[simp] theorem runFrom_forM_print (items : List α) (line : α → String) :
    runFrom before (forM items fun item => (print (line item) : Session ε Unit)) =
      (.ok (), { before with stdout := before.stdout ++ items.map line }) := by
  -- Each line is printed behind those of the items before it.
  induction items generalizing before with
  | nil => simp
  | cons item rest ih => simp [List.forM_cons, ih]

end Session

end Blake2F
