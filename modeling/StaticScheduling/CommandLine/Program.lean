import StaticScheduling.CommandLine.Command

/-!
# The command line

`ssp format`, `ssp verify`, `ssp check` and `ssp roundtrip`, each with its own
arguments.
-/

namespace StaticScheduling

namespace Program

def pathValue (value : String) : Except UsageError String :=
  if value = "" then .error .invalidValue else .ok value

/-- A number of spaces: decimal digits, perhaps behind a plus sign, of at most 64 bits. -/
def countValue (value : String) : Except UsageError Nat :=
  let digits := match value.toList with
    | '+' :: rest => rest
    | text => text
  if digits ≠ [] ∧ digits.all Char.isDigit ∧ Nat.ofDigitChars 10 digits 0 < UInt64.size then
    .ok (Nat.ofDigitChars 10 digits 0)
  else
    .error .valueValidation

def emissionValue (value : String) : Except UsageError Emission :=
  if value = "text" then .ok .text
  else if value = "json" then .ok .json
  else .error .invalidValue

def helpOption {Settings : Type} : OptionSpec Settings := ⟨"help", some 'h', .display .displayHelp⟩

/-- The flag that asks for more messages; these are not part of any result. -/
def verboseOption {Settings : Type} : OptionSpec Settings := ⟨"verbose", some 'v', .repeatable id⟩

/-- What the arguments of any command set; those that a command does not know keep their values. -/
structure Settings where
  input : Option String
  output : Option String
  indent : Nat
  emission : Emission
  stripNames : Bool
  stem : String
deriving DecidableEq, Repr, Inhabited

def Settings.default : Settings :=
  ⟨none, none, Instance.defaultIndent, .text, false, NameTable.defaultStem⟩

def outputOption : OptionSpec Settings :=
  ⟨"output", some 'o', .value fun value settings => do
    let path ← pathValue value
    .ok { settings with output := some path }⟩

def indentOption : OptionSpec Settings :=
  ⟨"indent", none, .value fun value settings => do
    let indent ← countValue value
    .ok { settings with indent }⟩

/-- The option that chooses between text and JSON. -/
def emitOption : OptionSpec Settings :=
  ⟨"emit", none, .value fun value settings => do
    let emission ← emissionValue value
    .ok { settings with emission }⟩

def stripNamesOption : OptionSpec Settings :=
  ⟨"strip-names", none, .flag fun settings => { settings with stripNames := true }⟩

/-- The option that sets the stem of made-up names. -/
def namePrefixOption : OptionSpec Settings :=
  ⟨"name-prefix", none, .value fun value settings => .ok { settings with stem := value }⟩

inductive CommandName where
  | format
  | verify
  | check
  | roundtrip
deriving DecidableEq, Repr, Inhabited

namespace CommandName

def text : CommandName → String
  | .format => "format"
  | .verify => "verify"
  | .check => "check"
  | .roundtrip => "roundtrip"

/-- The command called `word`, if there is one. -/
def ofText? (word : String) : Option CommandName :=
  [format, verify, check, roundtrip].find? fun name => name.text = word

def options : CommandName → List (OptionSpec Settings)
  | .format => [outputOption, indentOption]
  | .verify => []
  | .check => []
  | .roundtrip => [emitOption, outputOption, stripNamesOption, namePrefixOption]

/-- The command with the arguments that were set. -/
def command (name : CommandName) (input : String) (settings : Settings) : Command :=
  match name with
  | .format => .format ⟨input, settings.output, settings.indent⟩
  | .verify => .verify input
  | .check => .check input
  | .roundtrip =>
    .roundtrip ⟨input, settings.emission, settings.output, settings.stripNames, settings.stem⟩

end CommandName

/-- The arguments of a command: one input file, its options, and options of the whole program. -/
def commandSpec (name : CommandName) (globalOptions : List (OptionSpec Settings)) :
    CommandSpec Settings where
  options := name.options ++ globalOptions ++ [helpOption]
  positional := some fun value settings => do
    let path ← pathValue value
    .ok { settings with input := some path }
  subcommands := []

/-- The command that its own arguments describe. -/
def readCommand (name : CommandName) (globalOptions : List (OptionSpec Settings))
    (arguments : List String) : Except UsageError Command := do
  let (state, _) ← readArguments (commandSpec name globalOptions)
    (ArgumentState.initial Settings.default) arguments
  match state.settings.input with
  | some input => .ok (name.command input state.settings)
  | none => .error .missingRequiredArgument

/-- The word that shows help about a command. -/
def helpWord : String := "help"

/-- The arguments before the name of a command. -/
def programSpec : CommandSpec Settings where
  options := [verboseOption, helpOption, ⟨"version", some 'V', .display .displayVersion⟩]
  positional := none
  subcommands := ["format", "verify", "check", "roundtrip", helpWord]

/-- The command that a whole command line describes. -/
def readCommandLine (arguments : List String) : Except UsageError Command := do
  let (_, subcommand) ← readArguments programSpec (ArgumentState.initial Settings.default) arguments
  match subcommand with
  | none => .error .missingSubcommand
  | some (word, rest) =>
    match CommandName.ofText? word with
    | some name => readCommand name [verboseOption] rest
    | none =>
      if rest = [] ∨ (rest.length = 1 ∧ rest.all (· ∈ programSpec.subcommands)) then
        .error .displayHelp
      else
        .error .unknownArgument

/-- What is printed when the version is asked for. -/
def versionText : String := "ssp 0.1.0\n"

/-- What is left to do when a whole command line was read. -/
inductive Invocation where
  /-- Ends at once with an exit code, after printing a text. -/
  | finish (exitCode : UInt32) (output : String)
  | run (command : Command)
deriving DecidableEq, Repr, Inhabited

/-- What a whole command line asks for.  Asking for help or the version succeeds. -/
def invocation (arguments : List String) : Invocation :=
  match readCommandLine arguments with
  | .ok command => .run command
  | .error .displayVersion => .finish 0 versionText
  | .error .displayHelp => .finish 0 ""
  | .error _ => .finish 2 ""

/-- What is printed for the output of a command that succeeded. -/
def printed : CommandOutput → String
  | .report line => line ++ "\n"
  | .content none text => text
  | .content (some _) _ => ""

end Program

end StaticScheduling
