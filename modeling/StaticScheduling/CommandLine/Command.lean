import StaticScheduling.CommandLine.Arguments
import StaticScheduling.Instance.Json
import StaticScheduling.Instance.Text
import StaticScheduling.Json.Printer
import StaticScheduling.Loading
import StaticScheduling.Problem.Check
import StaticScheduling.Saving

/-!
# The commands

A command reads one file and either reports a line or writes a text.  Reading
and writing files is left to the caller: `Command.evaluate` turns the content of
the input file into what has to be done.
-/

namespace StaticScheduling

inductive FileFault where
  | notFound
  | invalidUtf8
  /-- Anything else, in the words of the system. -/
  | system (text : String)
deriving DecidableEq, Repr, Inhabited

def FileFault.text : FileFault → String
  | .notFound => "No such file or directory (os error 2)"
  | .invalidUtf8 => "stream did not contain valid UTF-8"
  | .system text => text

def decodeUtf8 (bytes : ByteArray) : Except FileFault String :=
  match String.fromUTF8? bytes with
  | some text => .ok text
  | none => .error .invalidUtf8

/-- Why a command fails. -/
inductive CommandError where
  | unreadable (path : String) (fault : FileFault)
  | malformed (path : String) (error : ParseError)
  | unparsable (path : String) (error : DocumentError)
  | verificationFailed (path : String) (error : DocumentError)
  | invalid (error : DocumentError)
  | unknownKind (problem document : String)
  | notLoaded (error : DocumentError)
  | illFormed (document : String) (error : ProblemError)
  | notSaved (error : DocumentError)
  | unwritable (path : String) (fault : FileFault)
deriving DecidableEq, Inhabited

namespace CommandError

/-- What failed, and the messages of what caused it, the outermost first. -/
def report : CommandError → String × List String
  | .unreadable path fault => ("Failed to read " ++ path, [fault.text])
  | .malformed path error => (error.render path, [])
  | .unparsable path error => ("Failed to parse " ++ path, error.message :: error.causes)
  | .verificationFailed path error =>
    ("Verification of " ++ path ++ " failed", error.message :: error.causes)
  | .invalid error => (error.message, error.causes)
  | .unknownKind problem document =>
    ("Unknown problem kind \"" ++ problem ++ "\" in instance @" ++ document, [])
  | .notLoaded error => ("Failed to load problem", error.message :: error.causes)
  | .illFormed document error =>
    ("Problem @" ++ document ++ " is not well formed", [error.message])
  | .notSaved error => ("Failed to save problem", error.message :: error.causes)
  | .unwritable path fault => ("Failed to write " ++ path, [fault.text])

/-- All messages, the outermost first. -/
def chain (error : CommandError) : List String := error.report.1 :: error.report.2

def message (error : CommandError) : String := ": ".intercalate error.chain

/-- A text whose lines behind the first one are indented. -/
def indented (margin text : String) : String :=
  String.ofList (text.toList.flatMap fun c => if c = '\n' then '\n' :: margin.toList else [c])

/-- A number that fills five places. -/
def padded (number : Nat) : String :=
  String.ofList (List.replicate (5 - (toString number).length) ' ') ++ toString number

/-- The causes as they are listed: a single one is indented, several are numbered from zero. -/
def causeLines : List String → List String
  | [] => []
  | [cause] => ["    " ++ indented "    " cause]
  | causes => causes.mapIdx fun index cause => padded index ++ ": " ++ indented "       " cause

/-- The report of a failed command, with a line break at its end. -/
def text (error : CommandError) : String :=
  match error.report with
  | (headline, []) => "Error: " ++ headline ++ "\n"
  | (headline, causes) =>
    "Error: " ++ headline ++ "\n\nCaused by:\n" ++ "\n".intercalate (causeLines causes) ++ "\n"

end CommandError

/-- How a saved problem is written. -/
inductive Emission where
  | text
  | json
deriving DecidableEq, Repr, Inhabited

structure FormatOptions where
  input : String
  output : Option String
  indent : Nat
deriving DecidableEq, Repr, Inhabited

structure RoundtripOptions where
  input : String
  emission : Emission
  output : Option String
  /-- Whether operations lose the names that nothing refers to. -/
  stripNames : Bool
  stem : String
deriving DecidableEq, Repr, Inhabited

inductive Command where
  | verify (input : String)
  | check (input : String)
  | format (options : FormatOptions)
  | roundtrip (options : RoundtripOptions)
deriving DecidableEq, Repr, Inhabited

/-- What a command wants done when it succeeds. -/
inductive CommandOutput where
  /-- A line to be reported. -/
  | report (line : String)
  /-- A text to be written to a file, or printed if no file is named. -/
  | content (path : Option String) (text : String)
deriving DecidableEq, Repr, Inhabited

namespace Command

def input : Command → String
  | .verify input => input
  | .check input => input
  | .format options => options.input
  | .roundtrip options => options.input

def readDocument (path source : String) : Except CommandError Instance :=
  match Instance.ofText source ParserSettings.default with
  | .ok document => .ok document
  | .error (.parse error) => .error (.malformed path error)
  | .error error => .error (.unparsable path error)

/-- The kinds of properties that belong to a document. -/
def kindsOf (document : Instance) : Except CommandError ProblemKinds :=
  match ProblemKinds.ofProblemName? document.problem with
  | some kinds => .ok kinds
  | none => .error (.unknownKind document.problem document.name)

/-- A verified document, the kinds that belong to it, and the problem it describes. -/
def loadDocument (path source : String) :
    Except CommandError (Instance × ProblemKinds × Problem) := do
  let document ← readDocument path source
  document.verify.mapError CommandError.invalid
  let kinds ← kindsOf document
  let problem ← (document.load kinds).mapError CommandError.notLoaded
  .ok (document, kinds, problem)

def evaluateVerify (path source : String) : Except CommandError String := do
  let document ← readDocument path source
  document.verify.mapError (CommandError.verificationFailed path)
  .ok ("@" ++ document.name ++ ": ok (" ++ toString document.operatorTypes.length
    ++ " operator types, " ++ toString document.operations.length ++ " operations)")

/-- Checks the problem that a document describes. -/
def evaluateCheck (path source : String) : Except CommandError String := do
  let (_, _, problem) ← loadDocument path source
  problem.check.mapError (CommandError.illFormed problem.instanceName)
  .ok ("@" ++ problem.instanceName ++ " (" ++ problem.problemName ++ "): ok ("
    ++ toString problem.operations.length ++ " operations, "
    ++ toString problem.allDependences.length ++ " dependences)")

def evaluateFormat (path source : String) (indent : Nat) : Except CommandError String := do
  let document ← readDocument path source
  .ok (document.text indent)

/-- The names that operations have in a document. -/
def originalNames (document : Instance) (operation : OperationId) : Option String :=
  document.operations[operation.index]?.bind OperationDecl.name

/-- The document saved from the problem that a document describes. -/
def resave (path source : String) (stripNames : Bool) (stem : String) :
    Except CommandError Instance := do
  let (document, kinds, problem) ← loadDocument path source
  let supplied := if stripNames then fun _ => none else originalNames document
  (problem.save document.name document.problem supplied kinds stem).mapError CommandError.notSaved

def emit (emission : Emission) (document : Instance) : String :=
  match emission with
  | .text => document.text Instance.defaultIndent
  | .json => document.toJson.pretty ++ "\n"

def evaluateRoundtrip (source : String) (options : RoundtripOptions) :
    Except CommandError String := do
  let document ← resave options.input source options.stripNames options.stem
  .ok (emit options.emission document)

/-- What a command wants done, given the text of its input file. -/
def evaluateText (command : Command) (source : String) : Except CommandError CommandOutput :=
  match command with
  | .verify input => (evaluateVerify input source).map CommandOutput.report
  | .check input => (evaluateCheck input source).map CommandOutput.report
  | .format options =>
    (evaluateFormat options.input source options.indent).map (CommandOutput.content options.output)
  | .roundtrip options =>
    (evaluateRoundtrip source options).map (CommandOutput.content options.output)

/-- What a command wants done, given the content of its input file or why there is none. -/
def evaluate (command : Command) (content : Except FileFault ByteArray) :
    Except CommandError CommandOutput :=
  match content >>= decodeUtf8 with
  | .ok source => command.evaluateText source
  | .error fault => .error (.unreadable command.input fault)

end Command

end StaticScheduling
