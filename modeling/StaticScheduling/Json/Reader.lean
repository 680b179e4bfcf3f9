import StaticScheduling.Json.Value

/-!
# Reading JSON text

Arrays and objects may nest up to a limit; one that lies deeper is read, but is
`foreign`.  So is a number that is no integer, a string with half a surrogate
pair, and an object with such a name.
-/

namespace StaticScheduling

namespace Json

/-- How deep arrays and objects nest in a document. -/
def nestingLimit : Nat := 127

def skipSpace (text : List Char) : List Char :=
  text.dropWhile fun c => c = ' ' || c = '\n' || c = '\t' || c = '\r'

def hexValue? (c : Char) : Option Nat :=
  if c.isDigit then some (c.toNat - '0'.toNat)
  else if 'a' ≤ c ∧ c ≤ 'f' then some (c.toNat - 'a'.toNat + 10)
  else if 'A' ≤ c ∧ c ≤ 'F' then some (c.toNat - 'A'.toNat + 10)
  else none

def hexNumber? (digits : List Char) : Option Nat :=
  digits.foldlM (fun number digit => (hexValue? digit).map (number * 16 + ·)) 0

/-- The character that a backslash followed by `c` stands for. -/
def unescapedChar? (c : Char) : Option Char :=
  if c = '"' ∨ c = '\\' ∨ c = '/' then some c
  else if c = 'b' then some '\x08'
  else if c = 'f' then some '\x0c'
  else if c = 'n' then some '\n'
  else if c = 'r' then some '\r'
  else if c = 't' then some '\t'
  else none

/-- A part of a string: a character, or a code unit given by its number. -/
inductive StringPart where
  | char (c : Char)
  | unit (number : Nat)

/-- Reads a string from behind its opening quote. -/
def readParts : List Char → Option (List StringPart × List Char)
  | [] => none
  | '"' :: rest => some ([], rest)
  | '\\' :: 'u' :: a :: b :: c :: d :: rest => do
    let number ← hexNumber? [a, b, c, d]
    let (parts, rest) ← readParts rest
    some (.unit number :: parts, rest)
  | '\\' :: c :: rest => do
    let meant ← unescapedChar? c
    let (parts, rest) ← readParts rest
    some (.char meant :: parts, rest)
  | c :: rest =>
    if c.toNat < 0x20 then
      none
    else do
      let (parts, rest) ← readParts rest
      some (.char c :: parts, rest)

/-- Whether a code unit is the first half of a pair. -/
def isHighSurrogate (number : Nat) : Bool := 0xD800 ≤ number && number < 0xDC00

/-- Whether a code unit is the second half of a pair. -/
def isLowSurrogate (number : Nat) : Bool := 0xDC00 ≤ number && number < 0xE000

/-- The text that parts make up, unless half of a pair is missing. -/
def textOfParts? : List StringPart → Option (List Char)
  | [] => some []
  | .char c :: rest => (textOfParts? rest).map (c :: ·)
  -- only two halves in a row make up one character
  | .unit high :: .unit low :: rest =>
    if isHighSurrogate high && isLowSurrogate low then
      (textOfParts? rest).map
        (Char.ofNat (0x10000 + (high - 0xD800) * 0x400 + (low - 0xDC00)) :: ·)
    else if isHighSurrogate high || isLowSurrogate high then
      none
    else
      (textOfParts? (.unit low :: rest)).map (Char.ofNat high :: ·)
  | .unit number :: rest =>
    if isHighSurrogate number || isLowSurrogate number then none
    else (textOfParts? rest).map (Char.ofNat number :: ·)

/-- Reads a string from behind its opening quote; no text if half of a pair is missing. -/
def readString (text : List Char) : Option (Option String × List Char) :=
  (readParts text).map fun (parts, rest) => ((textOfParts? parts).map String.ofList, rest)

def isNumberChar (c : Char) : Bool :=
  c.isDigit || c = '-' || c = '+' || c = '.' || c = 'e' || c = 'E'

/-- Whether digits follow, and nothing else. -/
def isDigits (text : List Char) : Bool := text ≠ [] && text.all Char.isDigit

/-- Whether a text is nothing, or the exponent of a number. -/
def isExponent : List Char → Bool
  | [] => true
  | mark :: sign :: rest =>
    (mark = 'e' || mark = 'E')
      && (if sign = '+' || sign = '-' then isDigits rest else isDigits (sign :: rest))
  | [_] => false

/-- Whether a text is nothing, or the fraction and the exponent of a number. -/
def isFraction : List Char → Bool
  | '.' :: rest => rest.head?.any Char.isDigit && isExponent (rest.dropWhile Char.isDigit)
  | text => isExponent text

/-- The number that a literal without its sign is.  Negative zero is no integer. -/
def numberOfLiteral? (negative : Bool) (literal : List Char) : Option Json :=
  let digits := literal.takeWhile Char.isDigit
  let rest := literal.dropWhile Char.isDigit
  -- no digits, a leading zero, or something else than a fraction or an exponent
  if digits = [] || (digits.head? = some '0' && digits.length ≠ 1) || !isFraction rest then
    none
  else
    let magnitude := Nat.ofDigitChars 10 digits 0
    if rest ≠ [] || (negative && magnitude = 0) then some .foreign
    else if negative then some (.integer (-magnitude))
    else some (.integer magnitude)

def readNumber (text : List Char) : Option (Json × List Char) :=
  let literal := text.takeWhile isNumberChar
  let number := match literal with
    | '-' :: rest => numberOfLiteral? true rest
    | _ => numberOfLiteral? false literal
  number.map fun number => (number, text.dropWhile isNumberChar)

/-- An array or object that may nest `levels` deep. -/
def within (levels : Nat) (json : Json) : Json := if levels = 0 then .foreign else json

mutual

def readValue : (fuel levels : Nat) → List Char → Option (Json × List Char)
  | 0, _, _ => none
  | fuel + 1, levels, text =>
    match skipSpace text with
    | 'n' :: 'u' :: 'l' :: 'l' :: rest => some (.null, rest)
    | 't' :: 'r' :: 'u' :: 'e' :: rest => some (.boolean true, rest)
    | 'f' :: 'a' :: 'l' :: 's' :: 'e' :: rest => some (.boolean false, rest)
    | '"' :: rest => do
      let (content, rest) ← readString rest
      some ((content.map Json.string).getD .foreign, rest)
    | '[' :: rest =>
      match skipSpace rest with
      | ']' :: rest => some (within levels (.array []), rest)
      | rest => do
        let (elements, rest) ← readElements fuel (levels - 1) rest
        some (within levels (.array elements), rest)
    | '\x7b' :: rest =>
      match skipSpace rest with
      | '\x7d' :: rest => some (within levels (.object []), rest)
      | rest => do
        let (members, rest) ← readMembers fuel (levels - 1) rest
        some (within levels ((members.map Json.object).getD .foreign), rest)
    -- nothing else starts with another character
    | text => readNumber text

/-- Reads the elements of an array, with the closing bracket. -/
def readElements : (fuel levels : Nat) → List Char → Option (List Json × List Char)
  | 0, _, _ => none
  | fuel + 1, levels, text => do
    let (first, rest) ← readValue fuel levels text
    match skipSpace rest with
    | ',' :: rest => do
      let (more, rest) ← readElements fuel levels rest
      some (first :: more, rest)
    | ']' :: rest => some ([first], rest)
    | _ => none

/-- Reads the members of an object, with the closing brace; no members if a name is no text. -/
def readMembers :
    (fuel levels : Nat) → List Char → Option (Option (List (String × Json)) × List Char)
  | 0, _, _ => none
  | fuel + 1, levels, text =>
    match skipSpace text with
    | '"' :: rest => do
      let (name, rest) ← readString rest
      match skipSpace rest with
      | ':' :: rest => do
        let (value, rest) ← readValue fuel levels rest
        let first := name.map fun name => (name, value)
        match skipSpace rest with
        | ',' :: rest => do
          let (more, rest) ← readMembers fuel levels rest
          some (first.bind fun first => more.map (first :: ·), rest)
        | '\x7d' :: rest => some (first.map fun first => [first], rest)
        | _ => none
      | _ => none
    | _ => none

end

/-- The value that a text holds, with nothing but white space around it.  Each character is reached
after at most two steps, so the fuel lasts. -/
def ofText? (text : String) : Option Json :=
  match readValue (2 * text.length + 2) nestingLimit text.toList with
  | some (json, rest) => if skipSpace rest = [] then some json else none
  | none => none

end Json

end StaticScheduling
