import Blake2F.Engine

/-! Options and arguments in general: how the words of a command line fill in the settings of a command. -/

namespace Blake2F

/-- Why a command line names no command to run. -/
inductive UsageError where
  /-- Help is asked for. -/
  | help
  /-- No command is named. -/
  | nothingGiven
  /-- No command has this name, or more than one begins with it. -/
  | unknownCommand (word : String)
  /-- The command has no such option, or takes no more arguments. -/
  | unknownArgument (word : String)
  /-- An option that stands for itself is given a value. -/
  | unexpectedValue (option : String)
  /-- An option that needs a value is given none. -/
  | missingValue (option : String)
  /-- The value names no engine. -/
  | unknownEngine (value : String)
  /-- The value is no number, or too large or too small a one. -/
  | malformedNumber (option value : String)
  /-- An option is given twice. -/
  | repeated (option : String)
  deriving DecidableEq, Repr

/-- The wording of each error. -/
def UsageError.message : UsageError → String
  | help => "help requested"
  | nothingGiven => "no command given"
  | unknownCommand word => "unrecognized command '" ++ word ++ "'"
  | unknownArgument word => "unexpected argument '" ++ word ++ "'"
  | unexpectedValue option => "option '--" ++ option ++ "' takes no value"
  | missingValue option => "option '--" ++ option ++ "' needs a value"
  | unknownEngine value => "no backend is called '" ++ value ++ "'"
  | malformedNumber option value => "invalid value '" ++ value ++ "' for option '--" ++ option ++ "'"
  | repeated option => "option '--" ++ option ++ "' is given more than once"

/-- What a word of a command line looks like. -/
inductive Shape where
  /-- Two dashes, after which every word is an argument. -/
  | separator
  /-- Two dashes and a name, which may have a value attached by an equals sign. -/
  | long (name : String) (value : Option String)
  /-- One dash and letters. -/
  | short (letter : Char)
  /-- Anything else, a single dash included. -/
  | plain
  deriving DecidableEq, Repr

/-- The shape of a word. -/
def Shape.ofWord (word : String) : Shape :=
  -- A value ends the name at the first equals sign, and may hold more of them.
  match word.toList with
  | ['-', '-'] => separator
  | '-' :: '-' :: rest =>
    let name := String.ofList (rest.takeWhile (· ≠ '='))
    match rest.dropWhile (· ≠ '=') with
    | [] => long name none
    | _ :: value => long name (some (String.ofList value))
  | '-' :: letter :: _ => short letter
  | _ => plain

/-- What an option does to the settings `σ` of its command. -/
inductive Effect (σ : Type) where
  /-- It stands for itself. -/
  | flag (set : σ → σ)
  /-- It needs a value, which may be refused. -/
  | value (read : String → Except UsageError (σ → σ))

/-- An option of a command. -/
structure Setting (σ : Type) where
  /-- Its name after the two dashes. -/
  name : String
  /-- What it does. -/
  effect : Effect σ

/-- The words that a command takes. -/
structure Grammar (σ : Type) where
  /-- Its options. -/
  options : List (Setting σ)
  /-- What its one argument does, if it takes any. -/
  argument : Option (String → σ → σ)

/-- An option whose value is still awaited or not yet put in place. -/
structure Pending (σ : Type) where
  /-- The name of the option. -/
  name : String
  /-- How its value is read. -/
  read : String → Except UsageError (σ → σ)
  /-- Its value, if it has come. -/
  value : Option String

/-- A command line read so far. -/
structure Reading (σ : Type) where
  /-- The settings filled in. -/
  settings : σ
  /-- The options that have taken effect. -/
  seen : List String := []
  /-- The last option, if it has not yet taken effect. -/
  pending : Option (Pending σ) := none
  /-- Whether the argument has been given. -/
  argued : Bool := false

namespace Reading

variable {σ : Type}

/-- Lets an option take effect that has not done so before. -/
def take (reading : Reading σ) (name : String) (change : Except UsageError (σ → σ)) :
    Except UsageError (Reading σ) :=
  -- A second occurrence is refused before its value is looked at.
  if name ∈ reading.seen then .error (.repeated name)
  else do
    let change ← change
    return { reading with settings := change reading.settings, seen := name :: reading.seen }

/-- Lets the last option take effect if it has not yet done so; its value must have come by now. -/
def settle (reading : Reading σ) : Except UsageError (Reading σ) :=
  -- An option takes effect when the word after its value is read, not before.
  match reading.pending with
  | none => .ok reading
  | some pending =>
    match pending.value with
    | none => .error (.missingValue pending.name)
    | some value => { reading with pending := none }.take pending.name (pending.read value)

/-- Reads a word as an argument. -/
def argue (grammar : Grammar σ) (reading : Reading σ) (word : String) :
    Except UsageError (Reading σ) :=
  -- A word that has no place is refused before an option that waits is settled.
  match grammar.argument, reading.argued with
  | some set, false => do
    let reading ← reading.settle
    return { reading with settings := set word reading.settings, argued := true }
  | _, _ => .error (.unknownArgument word)

/-- Reads a word as a value that an option waits for, or else as an argument. -/
def plain (grammar : Grammar σ) (reading : Reading σ) (word : String) :
    Except UsageError (Reading σ) :=
  -- A value that has come is left for the next word to settle.
  match reading.pending with
  | some ⟨name, read, none⟩ => .ok { reading with pending := some ⟨name, read, some word⟩ }
  | _ => reading.argue grammar word

/-- Reads a long option with the value attached to it, if there is one. -/
def long (grammar : Grammar σ) (reading : Reading σ) (name : String) (value : Option String) :
    Except UsageError (Reading σ) :=
  -- An unknown name and a value too many are found before an option that waits is settled.
  if name = "help" then
    match value with
    | some _ => .error (.unexpectedValue name)
    | none => do
      let _ ← reading.settle
      throw .help
  else
    match grammar.options.find? (·.name == name), value with
    | none, _ => .error (.unknownArgument ("--" ++ name))
    | some ⟨_, .flag _⟩, some _ => .error (.unexpectedValue name)
    | some ⟨_, .flag set⟩, none => do (← reading.settle).take name (.ok set)
    | some ⟨_, .value read⟩, some value => do (← reading.settle).take name (read value)
    | some ⟨_, .value read⟩, none => do
      return { ← reading.settle with pending := some ⟨name, read, none⟩ }

/-- Reads the letter of a short option; help is the only one. -/
def short (reading : Reading σ) (letter : Char) : Except UsageError (Reading σ) :=
  -- An option that waits is settled first, so that its error wins over help.
  if letter = 'h' then do
    let _ ← reading.settle
    throw .help
  else .error (.unknownArgument ("-" ++ letter.toString))

/-- Reads the words after the separator. -/
def arguments (grammar : Grammar σ) (reading : Reading σ) : List String → Except UsageError (Reading σ)
  | [] => reading.settle
  | word :: rest => do (← reading.argue grammar word).arguments grammar rest

/-- Reads the words of a command line one by one; the first that is refused ends the reading. -/
def words (grammar : Grammar σ) (reading : Reading σ) : List String → Except UsageError (Reading σ)
  | [] => reading.settle
  | word :: rest =>
    match Shape.ofWord word with
    | .separator => reading.arguments grammar rest
    | .long name value => do (← reading.long grammar name value).words grammar rest
    | .short letter => do (← reading.short letter).words grammar rest
    | .plain => do (← reading.plain grammar word).words grammar rest

end Reading

/-- The settings that the words of a command line fill in, starting from those of an empty one. -/
def Grammar.read {σ : Type} (grammar : Grammar σ) (start : σ) (words : List String) :
    Except UsageError σ := do
  return (← Reading.words grammar { settings := start } words).settings

end Blake2F
