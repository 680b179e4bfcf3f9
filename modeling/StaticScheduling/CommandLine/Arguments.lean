/-!
# Arguments of a command

An option is written `--name value`, `--name=value`, `-n value`, `-nvalue` or
`-n=value`; flags with one letter may share a dash.  Behind `--` everything is a
positional argument.

The value of an option is only looked at when the next argument that is known
arrives, or at the end.  So an unknown argument is reported before an earlier
value that is wrong.
-/

namespace StaticScheduling

/-- Why arguments are refused, or what is shown instead of running a command. -/
inductive UsageError where
  | missingRequiredArgument
  | unknownArgument
  | valueValidation
  | invalidValue
  | argumentConflict
  | tooManyValues
  | missingSubcommand
  | displayHelp
  | displayVersion
deriving DecidableEq, Repr, Inhabited

/-- What giving an option does to the settings. -/
inductive OptionEffect (Settings : Type) where
  /-- The option takes a value. -/
  | value (store : String → Settings → Except UsageError Settings)
  /-- The option is a flag that may be given once. -/
  | flag (store : Settings → Settings)
  /-- The option is a flag that may be repeated. -/
  | repeatable (store : Settings → Settings)
  /-- Something is shown, and nothing runs. -/
  | display (shown : UsageError)

structure OptionSpec (Settings : Type) where
  long : String
  short : Option Char
  effect : OptionEffect Settings

structure CommandSpec (Settings : Type) where
  options : List (OptionSpec Settings)
  /-- Stores the positional argument, if the command takes one. -/
  positional : Option (String → Settings → Except UsageError Settings)
  /-- Words that end the arguments of this command and start those of another one. -/
  subcommands : List String

/-- What waits to be looked at. -/
inductive Pending (Settings : Type) where
  | nothing
  /-- An option, and its value if there was one. -/
  | option (spec : OptionSpec Settings) (value : Option String)
  /-- The positional argument. -/
  | positional (store : String → Settings → Except UsageError Settings) (value : String)

/-- A command line that is being read. -/
structure ArgumentState (Settings : Type) where
  settings : Settings
  /-- The options looked at so far. -/
  given : List String
  pending : Pending Settings
  /-- Whether there was a positional argument. -/
  hasPositional : Bool
  /-- Whether `--` was passed. -/
  onlyPositional : Bool

namespace ArgumentState

variable {Settings : Type}

def initial (settings : Settings) : ArgumentState Settings :=
  ⟨settings, [], .nothing, false, false⟩

/-- Looks at an option.  A second time is a conflict, unless it may be repeated. -/
def apply (state : ArgumentState Settings) (spec : OptionSpec Settings) (value : Option String) :
    Except UsageError (ArgumentState Settings) :=
  match spec.effect, value with
  | .value _, none => .error .invalidValue
  | .value store, some value =>
    if spec.long ∈ state.given then
      .error .argumentConflict
    else do
      let settings ← store value state.settings
      .ok { state with settings, given := spec.long :: state.given }
  | .flag store, _ =>
    if spec.long ∈ state.given then .error .argumentConflict
    else .ok { state with settings := store state.settings, given := spec.long :: state.given }
  | .repeatable store, _ => .ok { state with settings := store state.settings }
  -- asking for help or the version ends the reading of arguments
  | .display shown, _ => .error shown

def settle (state : ArgumentState Settings) : Except UsageError (ArgumentState Settings) :=
  let settled := { state with pending := .nothing }
  match state.pending with
  | .nothing => .ok settled
  | .option spec value => settled.apply spec value
  | .positional store value => do
    let settings ← store value state.settings
    .ok { settled with settings }

/-- Reads an option that is known, with the value attached to it. -/
def giveOption (state : ArgumentState Settings) (spec : OptionSpec Settings)
    (attached : Option String) : Except UsageError (ArgumentState Settings) := do
  match spec.effect, attached with
  -- the value may be the next argument
  | .value _, none =>
    let state ← state.settle
    .ok { state with pending := .option spec none }
  | .value _, some value =>
    let state ← state.settle
    state.apply spec (some value)
  -- flags have no value
  | _, some _ => .error .tooManyValues
  | _, none =>
    let state ← state.settle
    state.apply spec none

def giveLong (command : CommandSpec Settings) (state : ArgumentState Settings)
    (argument : List Char) : Except UsageError (ArgumentState Settings) :=
  let name := String.ofList (argument.takeWhile (· ≠ '='))
  -- everything behind the first equals sign is the value, equals signs included
  let attached := match argument.dropWhile (· ≠ '=') with
    | [] => none
    | _ :: value => some (String.ofList value)
  match command.options.find? fun spec => spec.long = name with
  | none => .error .unknownArgument
  | some spec => state.giveOption spec attached

/-- The value attached to an option with one letter; an equals sign before it is dropped. -/
def attachedToShort : List Char → Option String
  | [] => none
  | '=' :: value => some (String.ofList value)
  | value => some (String.ofList value)

/-- Reads options with one letter, without the dash. -/
def giveShort (command : CommandSpec Settings) :
    ArgumentState Settings → List Char → Except UsageError (ArgumentState Settings)
  | state, [] => .ok state
  | state, letter :: rest =>
    match command.options.find? fun spec => spec.short = some letter with
    | none => .error .unknownArgument
    | some spec =>
      match spec.effect with
      -- the letters behind an option with a value are the value
      | .value _ => state.giveOption spec (attachedToShort rest)
      -- flags may be put together
      | _ => do
        let state ← state.giveOption spec none
        giveShort command state rest

def givePositional (command : CommandSpec Settings) (state : ArgumentState Settings)
    (argument : String) : Except UsageError (ArgumentState Settings) :=
  match command.positional with
  | some store =>
    if state.hasPositional then
      .error .unknownArgument
    else do
      let state ← state.settle
      .ok { state with pending := .positional store argument, hasPositional := true }
  | none => .error .unknownArgument

/-- Reads an argument that may be the value of the option before it. -/
def givePlain (command : CommandSpec Settings) (state : ArgumentState Settings)
    (argument : String) : Except UsageError (ArgumentState Settings) :=
  match state.pending with
  | .option spec none => .ok { state with pending := .option spec (some argument) }
  | _ => state.givePositional command argument

def give (command : CommandSpec Settings) (state : ArgumentState Settings) (argument : String) :
    Except UsageError (ArgumentState Settings) :=
  if state.onlyPositional then
    state.givePositional command argument
  else
    match argument.toList with
    | ['-', '-'] => .ok { state with onlyPositional := true }
    | '-' :: '-' :: long => state.giveLong command long
    -- a single dash is an argument like any other
    | '-' :: letter :: rest => state.giveShort command (letter :: rest)
    | _ => state.givePlain command argument

/-- Whether a word starts the arguments of another command here. -/
def startsSubcommand (command : CommandSpec Settings) (state : ArgumentState Settings)
    (argument : String) : Bool :=
  !state.onlyPositional && argument ∈ command.subcommands
    -- an option before it takes the word as its value
    && match state.pending with
      | .option _ none => false
      | _ => true

end ArgumentState

/-- Reads arguments up to a word that starts another command.  Answers the settings, whether there
was a positional argument, and the other command with its arguments. -/
def readArguments {Settings : Type} (command : CommandSpec Settings) :
    ArgumentState Settings → List String →
      Except UsageError (ArgumentState Settings × Option (String × List String))
  | state, [] => do
    let state ← state.settle
    .ok (state, none)
  | state, argument :: rest =>
    if state.startsSubcommand command argument then do
      let state ← state.settle
      .ok (state, some (argument, rest))
    else do
      let state ← state.give command argument
      readArguments command state rest

end StaticScheduling
