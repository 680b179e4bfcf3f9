import StaticScheduling.Instance.Entry
import StaticScheduling.Instance.Nesting
import StaticScheduling.Instance.Reading

/-!
# The grammar of instance text

```text
instance   := 'instance' @name 'of' "problem" properties? '{' type* operation* '}'
type       := 'operator_type' @name properties?
operation  := (%v (',' %v)* '=')? 'operation' @name? '(' entries? ')' properties? dictionary?
entry      := (%value | @symbol) properties?
properties := '[' (property (',' property)*)? ']'
property   := #dialect.mnemonic ('<' parameter (',' parameter)* '>')?
parameter  := integer | @symbol | "string" | property
dictionary := '{' (key ('=' parameter)? (',' key ('=' parameter)?)*)? '}'
```

One token decides each alternative.
-/

namespace StaticScheduling

open Reading

/-- Reads a parameter, given a reader of nested properties. -/
def Parameter.read (nested : List TokenKind → Reading (Property × List TokenKind)) :
    List TokenKind → Reading (Parameter × List TokenKind)
  | .integer number :: rest => .ok (.integer number, rest)
  | .symbol name :: rest => .ok (.symbol name, rest)
  | .string text :: rest => .ok (.string text, rest)
  | kinds@(.attribute _ _ :: _) =>
    match nested kinds with
    | .error failure => .error failure
    | .ok (inner, rest) => .ok (.property inner, rest)
  | kinds => expected .parameter kinds

/-- Reads a property.  That it nests too deep is found behind its name. -/
def Property.read (nesting : Nesting) (kinds : List TokenKind) :
    Reading (Property × List TokenKind) :=
  match kinds with
  | .attribute dialect mnemonic :: rest =>
    -- brackets open one level, which has to be allowed even if there are none
    match _ : nesting.deeper? with
    | none => .error ⟨.nestingTooDeep nesting.limit, rest⟩
    | some deeper =>
      if startsWith .leftAngle rest then
        match commas (Parameter.read fun kinds => Property.read deeper kinds) rest.tail with
        | .error failure => .error failure
        | .ok (parameters, rest) =>
          match mark .rightAngle rest with
          | .error failure => .error failure
          | .ok rest => .ok (⟨dialect, mnemonic, parameters⟩, rest)
      else
        .ok (⟨dialect, mnemonic, []⟩, rest)
  | _ => expected .property kinds
termination_by nesting.limit - nesting.depth
decreasing_by exact Nesting.remaining_lt_of_deeper? ‹_›

/-- Reads a property list, if there is one. -/
def Property.readOptionalList (limit : Nat) (kinds : List TokenKind) :
    Reading (Option (List Property) × List TokenKind) :=
  if startsWith .leftBracket kinds then
    match commasUntil (Property.read (Nesting.outermost limit)) .rightBracket kinds.tail with
    | .error failure => .error failure
    | .ok (properties, rest) => .ok (some properties, rest)
  else
    .ok (none, kinds)

def Entry.read (limit : Nat) (kinds : List TokenKind) : Reading (Entry × List TokenKind) :=
  match kinds with
  | .value name :: rest =>
    match Property.readOptionalList limit rest with
    | .error failure => .error failure
    | .ok (properties, rest) => .ok (.value name properties, rest)
  | .symbol name :: rest =>
    match Property.readOptionalList limit rest with
    | .error failure => .error failure
    | .ok (properties, rest) => .ok (.symbol name properties, rest)
  | _ => expected .valueOrSymbol kinds

/-- Reads the value of a dictionary entry, if there is one. -/
def DictionaryEntry.readValue (limit : Nat) (name : String) (kinds : List TokenKind) :
    Reading (DictionaryEntry × List TokenKind) :=
  if startsWith .equals kinds then
    match Parameter.read (Property.read (Nesting.outermost limit)) kinds.tail with
    | .error failure => .error failure
    | .ok (value, rest) => .ok (⟨name, some value⟩, rest)
  else
    .ok (⟨name, none⟩, kinds)

/-- Reads an entry of a dictionary; a reserved word is a key like any other. -/
def DictionaryEntry.read (limit : Nat) (kinds : List TokenKind) :
    Reading (DictionaryEntry × List TokenKind) :=
  match kinds with
  | .identifier name :: rest => readValue limit name rest
  | .keyword word :: rest => readValue limit word.spelling rest
  | _ => expected .dictionaryKey kinds

def DictionaryEntry.readOptionalList (limit : Nat) (kinds : List TokenKind) :
    Reading (List DictionaryEntry × List TokenKind) :=
  if startsWith .leftBrace kinds then
    commasUntil (DictionaryEntry.read limit) .rightBrace kinds.tail
  else
    .ok ([], kinds)

def OperatorTypeDecl.read (limit : Nat) (kinds : List TokenKind) :
    Reading (OperatorTypeDecl × List TokenKind) := do
  let rest ← word .operatorTypeWord kinds
  let (name, rest) ← symbol .operatorTypeName rest
  let (properties, rest) ← Property.readOptionalList limit rest
  .ok (⟨name, properties⟩, rest)

namespace OperationDecl

/-- Reads the results of an operation, if there are any. -/
def readResults (kinds : List TokenKind) : Reading (List String × List TokenKind) :=
  match kinds with
  | .value _ :: _ => do
    let (results, rest) ← commas value kinds
    let rest ← mark .equals rest
    .ok (results, rest)
  | _ => .ok ([], kinds)

def readName : List TokenKind → Option String × List TokenKind
  | .symbol name :: rest => (some name, rest)
  | kinds => (none, kinds)

def read (limit : Nat) (kinds : List TokenKind) : Reading (OperationDecl × List TokenKind) := do
  let (results, rest) ← readResults kinds
  let rest ← word .operationWord rest
  let (name, rest) := readName rest
  let rest ← mark .leftParen rest
  let (entries, rest) ← commasUntil (Entry.read limit) .rightParen rest
  let (properties, rest) ← Property.readOptionalList limit rest
  let (dictionary, rest) ← DictionaryEntry.readOptionalList limit rest
  .ok (⟨results, name, (Entry.split entries).1, (Entry.split entries).2, properties, dictionary⟩,
    rest)

end OperationDecl

namespace Instance

def startsOperatorType (kind : TokenKind) : Bool := kind = .keyword .operatorTypeWord

def startsOperation : TokenKind → Bool
  | .keyword word => word = .operationWord
  | .value _ => true
  | _ => false

/-- Reads the closing brace behind all declarations, and the end of the text. -/
def readClose (kinds : List TokenKind) : Reading Unit :=
  match kinds with
  | .delimiter .rightBrace :: rest =>
    -- nothing may stand behind a document
    if rest = [] then .ok () else expected .endOfInput rest
  | .keyword .operatorTypeWord :: _ => .error ⟨.misplacedOperatorType, kinds⟩
  | _ => expected .declaration kinds

def readProblemName : List TokenKind → Reading (String × List TokenKind)
  | .string text :: rest => .ok (text, rest)
  | kinds => expected .problemName kinds

def read (limit : Nat) (kinds : List TokenKind) : Reading Instance := do
  let rest ← word .instanceWord kinds
  let (name, rest) ← symbol .instanceName rest
  let rest ← word .ofWord rest
  let (problem, rest) ← readProblemName rest
  let (properties, rest) ← Property.readOptionalList limit rest
  let rest ← mark .leftBrace rest
  let (operatorTypes, rest) ← many startsOperatorType (OperatorTypeDecl.read limit) rest
  let (operations, rest) ← many startsOperation (OperationDecl.read limit) rest
  readClose rest
  .ok ⟨name, problem, properties, operatorTypes, operations⟩

end Instance

end StaticScheduling
