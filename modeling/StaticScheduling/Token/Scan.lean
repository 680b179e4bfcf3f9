import StaticScheduling.Token.Basic
import StaticScheduling.ParseError

/-!
# Reading one token

`scanToken` reads the token that starts with a given character.  A `Scan` keeps
the characters it consumed apart from those it left, and `scanToken_split` says
that nothing is lost between the two, whatever the result.
-/

namespace StaticScheduling

inductive LexicalFault where
  | unexpectedCharacter (c : Char)
  | singleSlash
  | unterminatedString
  | unknownEscape (c : Char)
  | missingSymbolName
  | missingValueName
  | malformedAttribute (name : String)
  | missingDigits
  | integerOutOfRange (literal : String)
deriving DecidableEq, Repr, Inhabited

namespace LexicalFault

def kind : LexicalFault → ParseErrorKind
  | .unexpectedCharacter _ => .invalidCharacter
  | .singleSlash => .invalidCharacter
  | .unterminatedString => .unterminatedString
  | .unknownEscape _ => .invalidEscape
  | .missingSymbolName => .invalidIdentifier
  | .missingValueName => .invalidIdentifier
  | .malformedAttribute _ => .invalidIdentifier
  | .missingDigits => .invalidNumber
  | .integerOutOfRange _ => .invalidNumber

def message : LexicalFault → String
  | .unexpectedCharacter c => "Unexpected character '" ++ String.singleton c ++ "'"
  | .singleSlash => "Expected '//' to start a comment"
  | .unterminatedString => "Unterminated string literal"
  | .unknownEscape c => "Invalid escape sequence: \\" ++ String.singleton c
  | .missingSymbolName => "Expected a symbol name after '@'"
  | .missingValueName => "Expected a value name after '%'"
  | .malformedAttribute name => "Expected '#dialect.mnemonic', found '#" ++ name ++ "'"
  | .missingDigits => "Expected digits after '-'"
  | .integerOutOfRange literal => "Invalid integer literal: " ++ literal

/-- An unknown escape is reported where reading stopped, anything else where the token starts. -/
def toParseError (fault : LexicalFault) (start stop : Position) : ParseError where
  kind := fault.kind
  position := match fault with
    | .unknownEscape _ => stop
    | _ => start
  message := fault.message
  note := none

end LexicalFault

/-- What was read from the head of a text: the result, the characters consumed, and those left. -/
structure Scan (α : Type) where
  result : Except LexicalFault α
  lexeme : List Char
  rest : List Char

namespace Scan

def map {α β : Type} (f : α → β) (scan : Scan α) : Scan β :=
  ⟨scan.result.map f, scan.lexeme, scan.rest⟩

/-- Adds characters that were consumed before. -/
def after {α : Type} (scan : Scan α) (read : List Char) : Scan α :=
  ⟨scan.result, read ++ scan.lexeme, scan.rest⟩

@[simp] theorem lexeme_map {α β : Type} (f : α → β) (scan : Scan α) :
    (scan.map f).lexeme = scan.lexeme := rfl

@[simp] theorem rest_map {α β : Type} (f : α → β) (scan : Scan α) :
    (scan.map f).rest = scan.rest := rfl

@[simp] theorem lexeme_after {α : Type} (scan : Scan α) (read : List Char) :
    (scan.after read).lexeme = read ++ scan.lexeme := rfl

@[simp] theorem rest_after {α : Type} (scan : Scan α) (read : List Char) :
    (scan.after read).rest = scan.rest := rfl

@[simp] theorem result_after {α : Type} (scan : Scan α) (read : List Char) :
    (scan.after read).result = scan.result := rfl

theorem result_map_eq_ok_iff {α β : Type} {scan : Scan α} {f : α → β} {answer : β} :
    (scan.map f).result = .ok answer ↔ ∃ value, scan.result = .ok value ∧ f value = answer := by
  obtain ⟨result, lexeme, rest⟩ := scan
  cases result <;> simp [Scan.map, Except.map]

end Scan

/-- Reads quoted text from behind its opening quote to its closing one, resolving escapes. -/
def scanQuoted : List Char → Scan (List Char)
  | [] => ⟨.error .unterminatedString, [], []⟩
  | '"' :: rest => ⟨.ok [], ['"'], rest⟩
  -- the text ends where an escape should be
  | ['\\'] => ⟨.error .unterminatedString, ['\\'], []⟩
  | '\\' :: c :: rest =>
    match unescapeChar? c with
    | none => ⟨.error (.unknownEscape c), ['\\', c], rest⟩
    | some meant => ((scanQuoted rest).map (meant :: ·)).after ['\\', c]
  | c :: rest => ((scanQuoted rest).map (c :: ·)).after [c]

def scanComment : List Char → Scan TokenKind
  | '/' :: rest =>
    ⟨.ok (.comment (String.ofList (rest.takeWhile (· ≠ '\n')))),
      '/' :: '/' :: rest.takeWhile (· ≠ '\n'), rest.dropWhile (· ≠ '\n')⟩
  | c :: rest => ⟨.error .singleSlash, ['/', c], rest⟩
  | [] => ⟨.error .singleSlash, ['/'], []⟩

def scanSymbol : List Char → Scan TokenKind
  | '"' :: rest => ((scanQuoted rest).map fun name => .symbol (String.ofList name)).after ['@', '"']
  | c :: rest =>
    if isIdentifierStart c then
      ⟨.ok (.symbol (String.ofList ((c :: rest).takeWhile isIdentifierContinue))),
        '@' :: (c :: rest).takeWhile isIdentifierContinue,
        (c :: rest).dropWhile isIdentifierContinue⟩
    else
      ⟨.error .missingSymbolName, ['@'], c :: rest⟩
  | [] => ⟨.error .missingSymbolName, ['@'], []⟩

def scanValue (text : List Char) : Scan TokenKind :=
  let name := text.takeWhile isIdentifierContinue
  ⟨if name = [] then .error .missingValueName else .ok (.value (String.ofList name)),
    '%' :: name, text.dropWhile isIdentifierContinue⟩

/-- The text before its first dot, and the text behind it. -/
def cutAtDot? : List Char → Option (List Char × List Char)
  | [] => none
  | c :: rest =>
    if c = '.' then some ([], rest)
    else (cutAtDot? rest).map fun (front, behind) => (c :: front, behind)

/-- Cuts an attribute name at its first dot; there must be something on both sides of it. -/
def attributeOfName (name : List Char) : Except LexicalFault TokenKind :=
  match cutAtDot? name with
  -- later dots belong to the mnemonic
  | some (c :: dialect, d :: mnemonic) =>
    .ok (.attribute (String.ofList (c :: dialect)) (String.ofList (d :: mnemonic)))
  | _ => .error (.malformedAttribute (String.ofList name))

def scanAttribute (text : List Char) : Scan TokenKind :=
  if text.head?.any isIdentifierStart then
    ⟨attributeOfName (text.takeWhile isIdentifierContinue),
      '#' :: text.takeWhile isIdentifierContinue, text.dropWhile isIdentifierContinue⟩
  else
    ⟨.error (.malformedAttribute ""), ['#'], text⟩

/-- The 64-bit integer with the given sign and digits, if it is in range. -/
def integerOfDigits? (negative : Bool) (digits : List Char) : Option Int64 :=
  let magnitude : Int := Nat.ofDigitChars 10 digits 0
  let value := if negative then -magnitude else magnitude
  -- the sign comes first, as the least number has no positive counterpart
  if Int64.minValue.toInt ≤ value ∧ value ≤ Int64.maxValue.toInt then some (Int64.ofInt value)
  else none

/-- Reads an integer from behind its sign, which is consumed with it. -/
def scanInteger (sign : List Char) (text : List Char) : Scan TokenKind :=
  let digits := text.takeWhile Char.isDigit
  let literal := sign ++ digits
  ⟨if digits = [] then .error .missingDigits
    else match integerOfDigits? (sign ≠ []) digits with
      | some number => .ok (.integer number)
      | none => .error (.integerOutOfRange (String.ofList literal)),
    literal, text.dropWhile Char.isDigit⟩

def scanWord (text : List Char) : Scan TokenKind :=
  ⟨.ok (.ofWord (String.ofList (text.takeWhile isIdentifierContinue))),
    text.takeWhile isIdentifierContinue, text.dropWhile isIdentifierContinue⟩

/-- Reads the token that starts with `c`.  Only a character that starts no token is left unread. -/
def scanToken (c : Char) (rest : List Char) : Scan TokenKind :=
  match Delimiter.ofChar? c with
  | some mark => ⟨.ok (.delimiter mark), [c], rest⟩
  | none =>
    -- each of these characters alone decides what is read
    if c = '/' then scanComment rest
    else if c = '"' then ((scanQuoted rest).map fun text => .string (String.ofList text)).after ['"']
    else if c = '@' then scanSymbol rest
    else if c = '%' then scanValue rest
    else if c = '#' then scanAttribute rest
    else if c = '-' then scanInteger ['-'] rest
    else if c.isDigit then scanInteger [] (c :: rest)
    else if isIdentifierStart c then scanWord (c :: rest)
    else ⟨.error (.unexpectedCharacter c), [], c :: rest⟩

theorem scanQuoted_split (text : List Char) :
    (scanQuoted text).lexeme ++ (scanQuoted text).rest = text := by
  fun_induction scanQuoted text with
  | case1 => rfl
  | case2 rest => rfl
  | case3 => rfl
  | case4 c rest unknown => rfl
  | case5 c rest meant known inductionHypothesis =>
    simp only [Scan.lexeme_after, Scan.lexeme_map, Scan.rest_after, Scan.rest_map, List.cons_append,
      List.nil_append, inductionHypothesis]
  | case6 c rest _ _ _ inductionHypothesis =>
    simp only [Scan.lexeme_after, Scan.lexeme_map, Scan.rest_after, Scan.rest_map, List.cons_append,
      List.nil_append, inductionHypothesis]

theorem scanComment_split (text : List Char) :
    (scanComment text).lexeme ++ (scanComment text).rest = '/' :: text := by
  unfold scanComment
  split
  · simp only [List.cons_append, List.takeWhile_append_dropWhile]
  · rfl
  · rfl

theorem scanSymbol_split (text : List Char) :
    (scanSymbol text).lexeme ++ (scanSymbol text).rest = '@' :: text := by
  unfold scanSymbol
  split
  · simp only [Scan.lexeme_after, Scan.lexeme_map, Scan.rest_after, Scan.rest_map, List.cons_append,
      List.nil_append, scanQuoted_split]
  · split
    · simp only [List.cons_append, List.takeWhile_append_dropWhile]
    · rfl
  · rfl

theorem scanValue_split (text : List Char) :
    (scanValue text).lexeme ++ (scanValue text).rest = '%' :: text := by
  simp only [scanValue, List.cons_append, List.takeWhile_append_dropWhile]

theorem scanAttribute_split (text : List Char) :
    (scanAttribute text).lexeme ++ (scanAttribute text).rest = '#' :: text := by
  unfold scanAttribute
  split
  · simp only [List.cons_append, List.takeWhile_append_dropWhile]
  · rfl

theorem scanInteger_split (sign text : List Char) :
    (scanInteger sign text).lexeme ++ (scanInteger sign text).rest = sign ++ text := by
  simp only [scanInteger, List.append_assoc, List.takeWhile_append_dropWhile]

theorem scanWord_split (text : List Char) :
    (scanWord text).lexeme ++ (scanWord text).rest = text := by
  simp only [scanWord, List.takeWhile_append_dropWhile]

/-- A scan cuts the text in two: what it consumed, and what it left. -/
theorem scanToken_split (c : Char) (rest : List Char) :
    (scanToken c rest).lexeme ++ (scanToken c rest).rest = c :: rest := by
  unfold scanToken
  split
  · rfl
  · split
    · subst c; exact scanComment_split rest
    · split
      · subst c
        simp only [Scan.lexeme_after, Scan.lexeme_map, Scan.rest_after, Scan.rest_map,
          List.cons_append, List.nil_append, scanQuoted_split]
      · split
        · subst c; exact scanSymbol_split rest
        · split
          · subst c; exact scanValue_split rest
          · split
            · subst c; exact scanAttribute_split rest
            · split
              · subst c; exact scanInteger_split ['-'] rest
              · split
                · exact scanInteger_split [] (c :: rest)
                · split
                  · exact scanWord_split (c :: rest)
                  · rfl

/-- A token has at least one character. -/
theorem scanToken_lexeme_ne_nil {c : Char} {rest : List Char} {kind : TokenKind}
    (read : (scanToken c rest).result = .ok kind) : (scanToken c rest).lexeme ≠ [] := by
  unfold scanToken at read ⊢
  split
  · simp
  · split
    · unfold scanComment; split <;> simp
    · split
      · simp
      · split
        · unfold scanSymbol
          split
          · simp
          · split <;> simp
          · simp
        · split
          · simp [scanValue]
          · split
            · unfold scanAttribute; split <;> simp
            · split
              · simp [scanInteger]
              · split
                · rename_i digit
                  simp [scanInteger, digit]
                · split
                  · rename_i starts
                    simp [scanWord, isIdentifierContinue, starts]
                  · simp_all

/-- Reading a token leaves less text than there was. -/
theorem scanToken_rest_length_lt {c : Char} {rest : List Char} {kind : TokenKind}
    (read : (scanToken c rest).result = .ok kind) :
    (scanToken c rest).rest.length < (c :: rest).length := by
  have split := congrArg List.length (scanToken_split c rest)
  have positive := List.length_pos_iff.mpr (scanToken_lexeme_ne_nil read)
  simp only [List.length_append] at split
  omega

end StaticScheduling
