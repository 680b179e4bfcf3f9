import StaticScheduling.Token.Basic

/-!
# Reading token kinds

The grammar looks at the kinds of tokens alone.  A reader takes what it needs
from the head of a list of kinds and answers the value and the kinds left; a
failure says what is wrong and which kinds were left when it was found, so that
the place of the fault can be recovered from their number.
-/

namespace StaticScheduling

/-- What the grammar allows at a place. -/
inductive Expectation where
  | delimiter (mark : Delimiter)
  | keyword (word : Keyword)
  | instanceName
  | problemName
  | declaration
  | endOfInput
  | operatorTypeName
  | value
  | valueOrSymbol
  | property
  | parameter
  | dictionaryKey
deriving DecidableEq, Repr, Inhabited

def Expectation.text : Expectation → String
  | .delimiter mark => "'" ++ String.singleton mark.char ++ "'"
  | .keyword word => "'" ++ word.spelling ++ "'"
  | .instanceName => "an instance name"
  | .problemName => "a problem name string"
  | .declaration => "'operator_type', 'operation' or '\x7d'"
  | .endOfInput => endOfInputText
  | .operatorTypeName => "an operator type name"
  | .value => "a value"
  | .valueOrSymbol => "a value or a symbol reference"
  | .property => "a property attribute"
  | .parameter => "an attribute parameter"
  | .dictionaryKey => "an attribute name"

inductive SyntaxFault where
  | unexpected (expected : Expectation)
  /-- An operator type behind an operation. -/
  | misplacedOperatorType
  /-- Properties nest deeper than the limit. -/
  | nestingTooDeep (limit : Nat)
deriving DecidableEq, Repr, Inhabited

/-- A fault and the kinds left when it was found. -/
structure SyntaxFailure where
  fault : SyntaxFault
  rest : List TokenKind
deriving DecidableEq, Repr, Inhabited

/-- What a reader answers: what it read, with the kinds left, or a failure. -/
abbrev Reading := Except SyntaxFailure

namespace Reading

/-- The failure of a reader that stands before something else than it expects. -/
def expected {α : Type} (expectation : Expectation) (kinds : List TokenKind) : Reading α :=
  .error ⟨.unexpected expectation, kinds⟩

def startsWith (mark : Delimiter) (kinds : List TokenKind) : Bool :=
  kinds.head? = some (.delimiter mark)

/-- Reads a given punctuation character. -/
def mark (mark : Delimiter) (kinds : List TokenKind) : Reading (List TokenKind) :=
  match kinds with
  | .delimiter found :: rest =>
    if found = mark then .ok rest else expected (.delimiter mark) kinds
  | _ => expected (.delimiter mark) kinds

def word (word : Keyword) (kinds : List TokenKind) : Reading (List TokenKind) :=
  match kinds with
  | .keyword found :: rest =>
    if found = word then .ok rest else expected (.keyword word) kinds
  | _ => expected (.keyword word) kinds

def symbol (expectation : Expectation) : List TokenKind → Reading (String × List TokenKind)
  | .symbol name :: rest => .ok (name, rest)
  | kinds => expected expectation kinds

def value : List TokenKind → Reading (String × List TokenKind)
  | .value name :: rest => .ok (name, rest)
  | kinds => expected .value kinds

/-- Reads items with a comma between each two, at least one.  An item that takes no token ends the
list, so that reading always ends. -/
def commas {α : Type} (item : List TokenKind → Reading (α × List TokenKind))
    (kinds : List TokenKind) : Reading (List α × List TokenKind) :=
  match item kinds with
  | .error failure => .error failure
  | .ok (first, .delimiter .comma :: rest) =>
    -- the text gets shorter, or nothing was read
    if rest.length < kinds.length then
      match commas item rest with
      | .error failure => .error failure
      | .ok (more, rest) => .ok (first :: more, rest)
    else
      .ok ([first], .delimiter .comma :: rest)
  | .ok (first, rest) => .ok ([first], rest)
termination_by kinds.length

/-- Reads items with a comma between each two up to a closing character. -/
def commasUntil {α : Type} (item : List TokenKind → Reading (α × List TokenKind))
    (close : Delimiter) (kinds : List TokenKind) : Reading (List α × List TokenKind) :=
  if startsWith close kinds then
    .ok ([], kinds.tail)
  else
    match commas item kinds with
    | .error failure => .error failure
    | .ok (items, rest) =>
      match mark close rest with
      | .error failure => .error failure
      | .ok rest => .ok (items, rest)

/-- Reads items as long as the next token may start one.  An item that takes no token ends the
list, so that reading always ends. -/
def many {α : Type} (starts : TokenKind → Bool)
    (item : List TokenKind → Reading (α × List TokenKind)) (kinds : List TokenKind) :
    Reading (List α × List TokenKind) :=
  if kinds.head?.any starts then
    match item kinds with
    | .error failure => .error failure
    | .ok (first, rest) =>
      if rest.length < kinds.length then
        match many starts item rest with
        | .error failure => .error failure
        | .ok (more, rest) => .ok (first :: more, rest)
      else
        .ok ([first], rest)
  else
    .ok ([], kinds)
termination_by kinds.length

end Reading

end StaticScheduling
