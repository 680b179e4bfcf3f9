import StaticScheduling.Text.Position
import StaticScheduling.Text.Name

/-!
# Tokens of instance text

A token has a kind, which is all that the grammar looks at, the exact text it
was read from, and its place.  `TokenKind.spelling` is the canonical way to
write a kind; the lexer reads it back.
-/

namespace StaticScheduling

inductive Keyword where
  | instanceWord
  | ofWord
  | operatorTypeWord
  | operationWord
deriving DecidableEq, Repr, Inhabited

namespace Keyword

def spelling : Keyword → String
  | .instanceWord => "instance"
  | .ofWord => "of"
  | .operatorTypeWord => "operator_type"
  | .operationWord => "operation"

/-- The reserved word spelled `word`, if there is one. -/
def ofSpelling? (word : String) : Option Keyword :=
  [instanceWord, ofWord, operatorTypeWord, operationWord].find? fun keyword =>
    keyword.spelling = word

@[simp] theorem ofSpelling?_spelling (keyword : Keyword) :
    ofSpelling? keyword.spelling = some keyword := by
  cases keyword <;> decide

theorem spelling_of_ofSpelling? {word : String} {keyword : Keyword}
    (reserved : ofSpelling? word = some keyword) : keyword.spelling = word := by
  simpa using List.find?_some reserved

end Keyword

/-- Punctuation, one character each. -/
inductive Delimiter where
  | leftParen
  | rightParen
  | leftBracket
  | rightBracket
  | leftBrace
  | rightBrace
  | leftAngle
  | rightAngle
  | comma
  | equals
deriving DecidableEq, Repr, Inhabited

namespace Delimiter

def char : Delimiter → Char
  | .leftParen => '('
  | .rightParen => ')'
  | .leftBracket => '['
  | .rightBracket => ']'
  | .leftBrace => '\x7b'
  | .rightBrace => '\x7d'
  | .leftAngle => '<'
  | .rightAngle => '>'
  | .comma => ','
  | .equals => '='

/-- The punctuation spelled `c`, if there is one. -/
def ofChar? (c : Char) : Option Delimiter :=
  [leftParen, rightParen, leftBracket, rightBracket, leftBrace, rightBrace, leftAngle, rightAngle,
    comma, equals].find? fun delimiter => delimiter.char = c

@[simp] theorem ofChar?_char (delimiter : Delimiter) : ofChar? delimiter.char = some delimiter := by
  cases delimiter <;> decide

end Delimiter

/-- An integer in decimal, with a minus sign below zero. -/
def integerText (value : Int) : String :=
  if value < 0 then "-" ++ toString value.natAbs else toString value.natAbs

/-- What a token is, with its payload. -/
inductive TokenKind where
  | integer (number : Int64)
  /-- The text between quotes, its escapes resolved. -/
  | string (text : String)
  | identifier (name : String)
  | keyword (word : Keyword)
  /-- `@name`, quoted or not. -/
  | symbol (name : String)
  /-- `%name`. -/
  | value (name : String)
  /-- `#dialect.mnemonic`, cut at the first dot. -/
  | attribute (dialect mnemonic : String)
  | delimiter (mark : Delimiter)
  /-- A line comment, without the two slashes. -/
  | comment (text : String)
deriving DecidableEq, Repr, Inhabited

namespace TokenKind

def spelling : TokenKind → String
  | .integer number => integerText number.toInt
  | .string text => quote text
  | .identifier name => name
  | .keyword word => word.spelling
  | .symbol name => symbolText name
  | .value name => "%" ++ name
  | .attribute dialect mnemonic => "#" ++ dialect ++ "." ++ mnemonic
  | .delimiter mark => String.singleton mark.char
  | .comment text => "//" ++ text

def describe : TokenKind → String
  | .integer _ => "integer"
  | .string _ => "string"
  | .identifier _ => "identifier"
  | .keyword word => word.spelling
  | .symbol _ => "symbol reference"
  | .value _ => "value"
  | .attribute _ _ => "attribute"
  | .delimiter mark => "'" ++ String.singleton mark.char ++ "'"
  | .comment _ => "comment"

def isComment : TokenKind → Bool
  | .comment _ => true
  | _ => false

/-- A bare word is a reserved word or an identifier. -/
def ofWord (word : String) : TokenKind :=
  match Keyword.ofSpelling? word with
  | some reserved => .keyword reserved
  | none => .identifier word

end TokenKind

/-- What the end of a text is called in messages. -/
def endOfInputText : String := "end of input"

/-- A token, the text it was read from, and where it stands. -/
structure Token where
  kind : TokenKind
  lexeme : String
  span : Span
deriving DecidableEq, Repr, Inhabited

end StaticScheduling
