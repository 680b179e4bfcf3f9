import StaticScheduling.Json.Value
import StaticScheduling.Token.Basic

/-!
# JSON text

Members and elements stand on lines of their own, two spaces further in for each
level.  Empty arrays and objects stand on one line.
-/

namespace StaticScheduling

namespace Json

def hexDigit (digit : Nat) : Char := Nat.digitChar digit

/-- A character as it is written between quotes. -/
def escapedChar (c : Char) : List Char :=
  if c = '"' then ['\\', '"']
  else if c = '\\' then ['\\', '\\']
  else if c = '\x08' then ['\\', 'b']
  else if c = '\x0c' then ['\\', 'f']
  else if c = '\n' then ['\\', 'n']
  else if c = '\r' then ['\\', 'r']
  else if c = '\t' then ['\\', 't']
  else if c.toNat < 0x20 then ['\\', 'u', '0', '0', hexDigit (c.toNat / 16), hexDigit (c.toNat % 16)]
  else [c]

def quoted (text : String) : String :=
  "\"" ++ String.ofList (text.toList.flatMap escapedChar) ++ "\""

def newLine (level : Nat) : String := "\n" ++ String.ofList (List.replicate (2 * level) ' ')

mutual

/-- A value at a level. -/
def prettyAt (level : Nat) : Json → String
  | .null => "null"
  | .boolean value => if value then "true" else "false"
  | .integer value => integerText value
  | .string text => quoted text
  | .array [] => "[]"
  | .array (first :: rest) =>
    "[" ++ newLine (level + 1) ++ prettyAt (level + 1) first ++ moreElements (level + 1) rest
      ++ newLine level ++ "]"
  | .object [] => "\x7b\x7d"
  | .object ((name, first) :: rest) =>
    "\x7b" ++ newLine (level + 1) ++ quoted name ++ ": " ++ prettyAt (level + 1) first
      ++ moreMembers (level + 1) rest ++ newLine level ++ "\x7d"
  | .foreign => "null"

def moreElements (level : Nat) : List Json → String
  | [] => ""
  | next :: rest => "," ++ newLine level ++ prettyAt level next ++ moreElements level rest

def moreMembers (level : Nat) : List (String × Json) → String
  | [] => ""
  | (name, next) :: rest =>
    "," ++ newLine level ++ quoted name ++ ": " ++ prettyAt level next ++ moreMembers level rest

end

/-- A value on several lines. -/
def pretty (json : Json) : String := json.prettyAt 0

end Json

end StaticScheduling
