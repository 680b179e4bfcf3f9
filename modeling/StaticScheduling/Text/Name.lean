/-!
# Names and quoted text

An identifier may be written bare.  Any other name is written between quotes,
where a quote, a backslash, a newline, a carriage return and a tab are escaped.
-/

namespace StaticScheduling

/-- An identifier starts with an ASCII letter or an underscore. -/
def isIdentifierStart (c : Char) : Bool := c = '_' || c.isAlpha

/-- An identifier goes on with ASCII letters, digits, `_`, `$` and `.`. -/
def isIdentifierContinue (c : Char) : Bool :=
  isIdentifierStart c || c.isDigit || c = '$' || c = '.'

/-- Whether a name can be written without quotes. -/
def isIdentifier (name : String) : Bool :=
  match name.toList with
  | [] => false
  | c :: rest => isIdentifierStart c && (c :: rest).all isIdentifierContinue

/-- A character as it is written between quotes. -/
def escapeChar (c : Char) : List Char :=
  if c = '"' then ['\\', '"']
  else if c = '\\' then ['\\', '\\']
  else if c = '\n' then ['\\', 'n']
  else if c = '\r' then ['\\', 'r']
  else if c = '\t' then ['\\', 't']
  else [c]

/-- The character that a backslash followed by `c` stands for, if it stands for one. -/
def unescapeChar? (c : Char) : Option Char :=
  if c = 'n' then some '\n'
  else if c = 'r' then some '\r'
  else if c = 't' then some '\t'
  else if c = '\\' then some '\\'
  else if c = '"' then some '"'
  else none

def escape (text : String) : String := String.ofList (text.toList.flatMap escapeChar)

def quote (text : String) : String := "\"" ++ escape text ++ "\""

/-- A symbol: `@name`, or `@"name"` if the name is no identifier. -/
def symbolText (name : String) : String :=
  if isIdentifier name then "@" ++ name else "@" ++ quote name

end StaticScheduling
