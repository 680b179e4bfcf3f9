import StaticScheduling.Text.Position

/-!
# Faults in instance text

Each fault has a category with a code, the position it was found at, a text and
perhaps a hint.
-/

namespace StaticScheduling

inductive ParseErrorKind where
  | syntaxError
  | unexpectedToken
  | unexpectedEnd
  | invalidCharacter
  | invalidNumber
  | invalidEscape
  | unterminatedString
  | invalidIdentifier
  | nestingTooDeep
  | misplacedDeclaration
  | commentNotAllowed
deriving DecidableEq, Repr, Inhabited

namespace ParseErrorKind

/-- The code that stands for a category in reports. -/
def code : ParseErrorKind → String
  | .syntaxError => "P001"
  | .unexpectedToken => "P002"
  | .unexpectedEnd => "P003"
  | .invalidCharacter => "P004"
  | .invalidNumber => "P005"
  | .invalidEscape => "P006"
  | .unterminatedString => "P007"
  | .invalidIdentifier => "P008"
  | .nestingTooDeep => "P009"
  | .misplacedDeclaration => "P010"
  | .commentNotAllowed => "P011"

def description : ParseErrorKind → String
  | .syntaxError => "syntax error"
  | .unexpectedToken => "unexpected token"
  | .unexpectedEnd => "unexpected end of input"
  | .invalidCharacter => "invalid character"
  | .invalidNumber => "invalid integer"
  | .invalidEscape => "invalid escape sequence"
  | .unterminatedString => "unterminated string"
  | .invalidIdentifier => "invalid name"
  | .nestingTooDeep => "attribute nesting too deep"
  | .misplacedDeclaration => "misplaced declaration"
  | .commentNotAllowed => "comment not allowed"

theorem code_injective {first second : ParseErrorKind} (same : first.code = second.code) :
    first = second := by
  cases first <;> cases second <;> first | rfl | exact absurd same (by decide)

end ParseErrorKind

/-- A fault in a text, and where it was found. -/
structure ParseError where
  kind : ParseErrorKind
  position : Position
  message : String
  /-- A hint shown after the message. -/
  note : Option String
deriving DecidableEq, Repr, Inhabited

namespace ParseError

/-- The fault in one line: category, position and message. -/
def text (error : ParseError) : String :=
  error.kind.description ++ " at " ++ error.position.text ++ ": " ++ error.message

/-- The report for a file: `file:line:column: error[code]: message`, and the hint on a line of its
own. -/
def render (error : ParseError) (file : String) : String :=
  let headline := file ++ ":" ++ error.position.text ++ ": error[" ++ error.kind.code ++ "]: "
    ++ error.message
  match error.note with
  | none => headline
  | some note => headline ++ "\n  note: " ++ note

end ParseError

end StaticScheduling
