import Blake2F.Command
import Blake2F.CommandLine.Grammar
import Blake2F.Text.Decimal

/-! The command line: the name of a command, which may be cut short, and the words that the command takes. -/

namespace Blake2F

namespace CommandLine

/-- An option that stands for itself. -/
def flag {σ : Type} (name : String) (set : σ → σ) : Setting σ := ⟨name, .flag set⟩

/-- An option with any text as its value. -/
def text {σ : Type} (name : String) (set : String → σ → σ) : Setting σ :=
  ⟨name, .value fun value => .ok (set value)⟩

/-- An option with a path as its value, which may not be empty. -/
def path {σ : Type} (name : String) (set : String → σ → σ) : Setting σ :=
  ⟨name, .value fun value => if value = "" then .error (.missingValue name) else .ok (set value)⟩

/-- An option with a number of 64 bits as its value. -/
def word64 {σ : Type} (name : String) (set : UInt64 → σ → σ) : Setting σ :=
  ⟨name, .value fun value => match Decimal.word64? value with
    | some number => .ok (set number)
    | none => .error (.malformedNumber name value)⟩

/-- An option with a number of 32 bits as its value. -/
def word32 {σ : Type} (name : String) (set : UInt32 → σ → σ) : Setting σ :=
  ⟨name, .value fun value => match Decimal.word32? value with
    | some number => .ok (set number)
    | none => .error (.malformedNumber name value)⟩

/-- An option with the name of an engine as its value, in exactly the case of its letters. -/
def engine {σ : Type} (name : String) (set : Engine → σ → σ) : Setting σ :=
  ⟨name, .value fun value => match Engine.ofArgument? false value with
    | some engine => .ok (set engine)
    | none => .error (.unknownEngine value)⟩

/-- The words of the command that calls. -/
def calling : Grammar Calling where
  options :=
    [path "path" fun value command => { command with source.path := some value },
      word64 "gas-limit" fun value command => { command with gasLimit := value },
      flag "strict" fun command => { command with strict := true }]
  argument := some fun value command => { command with source.text := some value }

/-- The words of the command that puts a payload together. -/
def encoding : Grammar Encoding where
  options :=
    [word32 "rounds" fun value command => { command with rounds := value },
      text "h" fun value command => { command with state := some value },
      text "m" fun value command => { command with block := some value },
      word64 "t0" fun value command => { command with low := value },
      word64 "t1" fun value command => { command with high := value },
      flag "final" fun command => { command with final := true },
      flag "compress" fun command => { command with compress := true }]
  argument := none

/-- The words of the command that compares the engines. -/
def comparing : Grammar Source where
  options := [path "path" fun value source => { source with path := some value }]
  argument := some fun value source => { source with text := some value }

/-- The words of the command that times an engine. -/
def timing : Grammar Timing where
  options :=
    [path "path" fun value command => { command with source.path := some value },
      word64 "iterations" fun value command => { command with iterations := value },
      engine "backend" fun value command => { command with engine := some value }]
  argument := some fun value command => { command with source.text := some value }

/-- What the first word of a command line can name. -/
inductive Name where
  /-- The command that calls. -/
  | run
  /-- The command that puts a payload together. -/
  | encode
  /-- The command that compares the engines. -/
  | backends
  /-- The command that times an engine. -/
  | bench
  /-- Help on the commands. -/
  | help
  deriving DecidableEq, Repr

namespace Name

/-- Every name. -/
def all : List Name := [run, encode, backends, bench, help]

/-- The word for each name. -/
def word : Name → String
  | run => "run"
  | encode => "encode"
  | backends => "backends"
  | bench => "bench"
  | help => "help"

/-- The name that a word spells in full. -/
def ofWord? (word : String) : Option Name := all.find? (·.word == word)

/-- The name that a word spells in full, or that is the only one to begin with it. -/
def ofStart? (word : String) : Option Name :=
  -- Between several names that begin with a word, only a full spelling decides.
  match all.filter fun name => word.toList.isPrefixOf name.word.toList with
  | [name] => some name
  | _ => ofWord? word

end Name

/-- Asks for help on the command that the words name in full, or on all commands. -/
def help : List String → UsageError
  | [] => .help
  | word :: rest =>
    match Name.ofWord? word, rest with
    | some _, [] => .help
    | some _, next :: _ => .unknownCommand next
    | none, _ => .unknownCommand word

/-- The command that a name and the words after it stand for. -/
def named (name : Name) (words : List String) : Except UsageError Command :=
  match name with
  | .run => .call <$> calling.read {} words
  | .encode => .encode <$> encoding.read {} words
  | .backends => .compare <$> comparing.read {} words
  | .bench => .time <$> timing.read {} words
  | .help => .error (help words)

/-- Why a first word that names no command is refused. -/
def refuse (word : String) : UsageError :=
  -- Only help can be asked for without a command.
  match Shape.ofWord word with
  | .long "help" none => .help
  | .long "help" (some _) => .unexpectedValue "help"
  | .long name _ => .unknownArgument ("--" ++ name)
  | .short letter => if letter = 'h' then .help else .unknownArgument ("-" ++ letter.toString)
  | _ => .unknownCommand word

/-- The command that a command line stands for. -/
def parse : List String → Except UsageError Command
  | [] => .error .nothingGiven
  | word :: rest =>
    -- After the separator a command can no longer be named.
    match Name.ofStart? word, Shape.ofWord word, rest with
    | some name, _, _ => named name rest
    | none, .separator, [] => .error .nothingGiven
    | none, .separator, next :: _ =>
      match Name.ofStart? next with
      | some _ => .error (.unknownArgument next)
      | none => .error (.unknownCommand next)
    | none, _, _ => .error (refuse word)

end CommandLine

end Blake2F
