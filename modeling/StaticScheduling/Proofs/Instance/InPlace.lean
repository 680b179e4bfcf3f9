import StaticScheduling.Instance.Parser
import StaticScheduling.Proofs.Instance.Combinators

/-! # Parsing in place

A parser may work in place: it keeps the tokens of the text, the number of the token
it stands before and the number of properties it is inside, and changes them as it
goes on.  A fault ends it where it is.  Nothing is put back then, and a property that
is open stays open.

Loops and nested properties are told how far they may go: no further than there are
tokens, or levels.  To run out of these is an outcome of its own, so that it can be
shown that no text leads to it.
-/

namespace StaticScheduling

/-- The property that a token names, up to its parameters.  The name stands behind the `#` in the
text of the token and is cut at its first dot, whatever the lexer made of it. -/
def Token.property? (token : Token) : Option (List Parameter → Property) :=
  (cutAtDot? (token.lexeme.toList.drop 1)).map fun (dialect, mnemonic) =>
    Property.mk (String.ofList dialect) (String.ofList mnemonic)

/-- What a parser that works in place keeps. -/
structure ParserMemory extends InstanceParser where
  /-- How many properties were entered and not left. -/
  depth : Nat
deriving DecidableEq, Repr, Inhabited

namespace ParserMemory

/-- What a parser keeps that was never used. -/
def ofSettings (settings : ParserSettings) : ParserMemory := ⟨InstanceParser.ofSettings settings, 0⟩

/-- The token ahead; there is none at the end of the text. -/
def current? (memory : ParserMemory) : Option Token := memory.stream.tokens[memory.standing]?

/-- Steps behind the token ahead.  At the end of the text a parser stays where it is. -/
def advance (memory : ParserMemory) : ParserMemory :=
  if memory.standing < memory.stream.tokens.length then
    { memory with standing := memory.standing + 1 }
  else
    memory

def nesting (memory : ParserMemory) : Nesting := ⟨memory.settings.nestingLimit, memory.depth⟩

/-- The fault that the token ahead, or the end of the text, is not what is expected. -/
def unexpected (memory : ParserMemory) (expectation : Expectation) : ParseError :=
  match memory.current? with
  | some token =>
    ⟨.unexpectedToken, token.span.start,
      "Expected " ++ expectation.text ++ ", found '" ++ token.lexeme ++ "'", none⟩
  | none =>
    ⟨.unexpectedEnd, memory.stream.stop,
      "Expected " ++ expectation.text ++ " before " ++ endOfInputText, none⟩

/-- The fault that there is no dot in the name of the attribute ahead. -/
def malformed (memory : ParserMemory) : ParseError :=
  ⟨.invalidIdentifier, memory.position,
    "Malformed attribute name '" ++ (memory.current?.map Token.lexeme).getD "" ++ "'", none⟩

/-- The fault that the token ahead declares an operator type behind an operation. -/
def misplaced (memory : ParserMemory) : ParseError :=
  ⟨.misplacedDeclaration, memory.position, "operator_type after the first operation",
    some "declare operator types before operations"⟩

end ParserMemory

/-- Steps that look at what a parser keeps and change it.  They end with an answer or with a fault, or
run out of rounds. -/
abbrev Parsing (Answer : Type) := ExceptT ParseError (StateT ParserMemory Option) Answer

namespace Parsing

variable {Answer Choice : Type}

/-- What a parsing answers on a memory and the memory it leaves, if it has rounds enough. -/
def on (parsing : Parsing Answer) (memory : ParserMemory) :
    Option (Except ParseError Answer × ParserMemory) :=
  StateT.run (ExceptT.run parsing) memory

theorem on_bind (parsing : Parsing Answer) (next : Answer → Parsing Choice) (memory : ParserMemory) :
    (parsing >>= next).on memory = (parsing.on memory).bind fun
      | (.ok answer, changed) => (next answer).on changed
      | (.error error, changed) => some (.error error, changed) := by
  simp only [on, ExceptT.run_bind, StateT.run_bind]
  cases StateT.run (ExceptT.run parsing) memory with
  | none => rfl
  | some outcome =>
    obtain ⟨answer, changed⟩ := outcome
    cases answer <;> rfl

theorem on_bind_of_ok {parsing : Parsing Answer} {memory changed : ParserMemory} {answer : Answer}
    (ends : parsing.on memory = some (.ok answer, changed)) (next : Answer → Parsing Choice) :
    (parsing >>= next).on memory = (next answer).on changed := by
  rw [on_bind, ends]
  rfl

theorem on_bind_of_error {parsing : Parsing Answer} {memory changed : ParserMemory}
    {error : ParseError} (ends : parsing.on memory = some (.error error, changed))
    (next : Answer → Parsing Choice) :
    (parsing >>= next).on memory = some (.error error, changed) := by
  rw [on_bind, ends]
  rfl

@[simp] theorem on_pure (answer : Answer) (memory : ParserMemory) :
    (pure answer : Parsing Answer).on memory = some (.ok answer, memory) := rfl

@[simp] theorem on_throw (error : ParseError) (memory : ParserMemory) :
    (throw error : Parsing Answer).on memory = some (.error error, memory) := rfl

@[simp] theorem on_get (memory : ParserMemory) :
    (get : Parsing ParserMemory).on memory = some (.ok memory, memory) := rfl

@[simp] theorem on_modify (change : ParserMemory → ParserMemory) (memory : ParserMemory) :
    (modify change : Parsing Unit).on memory = some (.ok (), change memory) := rfl

@[simp] theorem on_ofExcept (result : Except ParseError Answer) (memory : ParserMemory) :
    (MonadExcept.ofExcept result : Parsing Answer).on memory = some (result, memory) := by
  cases result <;> rfl

/-! ## Single tokens -/

/-- What the token ahead is chosen for, if it is chosen for anything. -/
def ahead (choose : TokenKind → Option Choice) : Parsing (Option Choice) := do
  pure ((← get).current?.bind fun token => choose token.kind)

def advance : Parsing Unit := modify ParserMemory.advance

theorem on_advance (memory : ParserMemory) : advance.on memory = some (.ok (), memory.advance) := rfl

def outOfRounds : Parsing Answer := ExceptT.mk fun _ => none

def unexpected (expectation : Expectation) : Parsing Answer := do
  throw ((← get).unexpected expectation)

/-- Steps behind a mark if it is ahead. -/
def consume (wanted : Delimiter) : Parsing Bool := do
  match ← ahead (Reading.only (.delimiter wanted)) with
  | some _ =>
    advance
    pure true
  | none => pure false

/-- Steps behind the token ahead, which has to carry something. -/
def expect (carried : TokenKind → Option Answer) (expectation : Expectation) : Parsing Answer := do
  match ← ahead carried with
  | some answer =>
    advance
    pure answer
  | none => unexpected expectation

def expectMark (wanted : Delimiter) : Parsing Unit :=
  expect (Reading.only (.delimiter wanted)) (.delimiter wanted)

def expectWord (wanted : Keyword) : Parsing Unit :=
  expect (Reading.only (.keyword wanted)) (.keyword wanted)

def expectEnd : Parsing Unit := do
  match ← ahead some with
  | some _ => unexpected .endOfInput
  | none => pure ()

/-! ## Lists -/

/-- Takes items as long as a comma is ahead. -/
def commasRounds (item : Parsing Answer) : (rounds : Nat) → Parsing (List Answer)
  | 0 => outOfRounds
  | rounds + 1 => do
    if ← consume .comma then
      let next ← item
      let more ← commasRounds item rounds
      pure (next :: more)
    else
      pure []

/-- Takes items as long as a comma is ahead; a comma is a token, and one round more finds none. -/
def commasRest (item : Parsing Answer) : Parsing (List Answer) := do
  commasRounds item ((← get).stream.tokens.length + 1)

def commas (item : Parsing Answer) : Parsing (List Answer) := do
  let first ← item
  let more ← commasRest item
  pure (first :: more)

/-- Takes items unless a mark is ahead. -/
def commasUnless (item : Parsing Answer) (close : Delimiter) : Parsing (List Answer) := do
  match ← ahead (Reading.only (.delimiter close)) with
  | some _ => pure []
  | none => commas item

def commasUntil (item : Parsing Answer) (close : Delimiter) : Parsing (List Answer) := do
  let items ← commasUnless item close
  expectMark close
  pure items

/-! ## Nesting -/

/-- Steps into a property with its name at a position. -/
def descend (position : Position) : Parsing Unit := do
  let deeper ← MonadExcept.ofExcept ((← get).nesting.descend position)
  modify fun memory => { memory with depth := deeper.depth }

def ascend : Parsing Unit :=
  modify fun memory => { memory with depth := memory.nesting.ascend.depth }

/-- Forgets the properties that were entered and not left. -/
def reset : Parsing Unit :=
  modify fun memory => { memory with depth := memory.nesting.reset.depth }

/-- Takes the tokens of a text for the ones kept so far.  If there is a fault in them, these stay. -/
def load (source : String) : Parsing Unit := do
  let stream ← MonadExcept.ofExcept (loadTokens (← get).settings source)
  modify fun memory => { memory with stream, standing := 0 }

/-! ## The grammar -/

/-- Cuts the name of the attribute ahead, which the parser does once more than the lexer. -/
def propertyName : Parsing (List Parameter → Property) := do
  let memory ← get
  match memory.current?.bind Token.property? with
  | some make => pure make
  | none => throw memory.malformed

section Nested

variable (nested : Parsing Property)

def parameter : Parsing Parameter := do
  match ← ahead TokenKind.parameter? with
  | some single =>
    advance
    pure single
  | none =>
    match ← ahead TokenKind.property? with
    | some _ =>
      let property ← nested
      pure (.property property)
    | none => unexpected .parameter

/-- The parameters of a property, if there are any. -/
def optionalParameters : Parsing (List Parameter) := do
  if ← consume .leftAngle then
    let parameters ← commas (parameter nested)
    expectMark .rightAngle
    pure parameters
  else
    pure []

def propertyAround : Parsing Property := do
  match ← ahead TokenKind.property? with
  | some _ =>
    let make ← propertyName
    let memory ← get
    advance
    descend memory.position
    let parameters ← optionalParameters nested
    ascend
    pure (make parameters)
  | none => unexpected .property

end Nested

/-- A property, and the properties inside it. -/
def propertyWithin : (levels : Nat) → Parsing Property
  | 0 => outOfRounds
  | levels + 1 => propertyAround (propertyWithin levels)

/-- There is no room for a property behind as many levels as are allowed. -/
def property : Parsing Property := do
  propertyWithin ((← get).settings.nestingLimit + 1)

def propertyList : Parsing (List Property) := do
  expectMark .leftBracket
  commasUntil property .rightBracket

def optionalProperties : Parsing (Option (List Property)) := do
  match ← ahead (Reading.only (.delimiter .leftBracket)) with
  | some _ =>
    let properties ← propertyList
    pure (some properties)
  | none => pure none

def entry : Parsing Entry := do
  match ← ahead TokenKind.entry? with
  | some make =>
    advance
    let properties ← optionalProperties
    pure (make properties)
  | none => unexpected .valueOrSymbol

def dictionaryEntry : Parsing DictionaryEntry := do
  match ← ahead TokenKind.key? with
  | some name =>
    advance
    if ← consume .equals then
      let value ← parameter property
      pure ⟨name, some value⟩
    else
      pure ⟨name, none⟩
  | none => unexpected .dictionaryKey

def dictionary : Parsing (List DictionaryEntry) := do
  expectMark .leftBrace
  commasUntil dictionaryEntry .rightBrace

def optionalDictionary : Parsing (List DictionaryEntry) := do
  match ← ahead (Reading.only (.delimiter .leftBrace)) with
  | some _ => dictionary
  | none => pure []

def operatorType : Parsing OperatorTypeDecl := do
  expectWord .operatorTypeWord
  let name ← expect TokenKind.symbol? .operatorTypeName
  let properties ← optionalProperties
  pure ⟨name, properties⟩

/-- The results of an operation, if there are any. -/
def results : Parsing (List String) := do
  match ← ahead TokenKind.value? with
  | some _ =>
    let names ← commas (expect TokenKind.value? .value)
    expectMark .equals
    pure names
  | none => pure []

def optionalName : Parsing (Option String) := do
  match ← ahead TokenKind.symbol? with
  | some name =>
    advance
    pure (some name)
  | none => pure none

def operation : Parsing OperationDecl := do
  let results ← results
  expectWord .operationWord
  let name ← optionalName
  expectMark .leftParen
  let entries ← commasUntil entry .rightParen
  let properties ← optionalProperties
  let dictionary ← optionalDictionary
  pure ⟨results, name, (Entry.split entries).1, (Entry.split entries).2, properties, dictionary⟩

/-- Takes declarations up to a closing brace, behind those taken before. -/
def declarationsRounds (operatorTypes : List OperatorTypeDecl) (operations : List OperationDecl) :
    (rounds : Nat) → Parsing (List OperatorTypeDecl × List OperationDecl)
  | 0 => outOfRounds
  | rounds + 1 => do
    match ← ahead (Reading.only (.delimiter .rightBrace)) with
    | some _ => pure (operatorTypes, operations)
    | none =>
      match ← ahead (Reading.only (.keyword .operatorTypeWord)) with
      | some _ =>
        match operations with
        | [] =>
          let declared ← operatorType
          declarationsRounds (operatorTypes ++ [declared]) operations rounds
        | _ :: _ => throw (← get).misplaced
      | none =>
        match ← ahead (Option.guard Instance.startsOperation) with
        | some _ =>
          let declared ← operation
          declarationsRounds operatorTypes (operations ++ [declared]) rounds
        | none => unexpected .declaration

/-- Takes declarations up to a closing brace; each has a token, and one round more finds the brace. -/
def declarations : Parsing (List OperatorTypeDecl × List OperationDecl) := do
  declarationsRounds [] [] ((← get).stream.tokens.length + 1)

def document : Parsing Instance := do
  expectWord .instanceWord
  let name ← expect TokenKind.symbol? .instanceName
  expectWord .ofWord
  let problem ← expect TokenKind.string? .problemName
  let properties ← optionalProperties
  expectMark .leftBrace
  let declared ← declarations
  expectMark .rightBrace
  expectEnd
  pure ⟨name, problem, properties, declared.1, declared.2⟩

/-- Parses a text with whatever an earlier one has left. -/
def text (source : String) : Parsing Instance := do
  load source
  reset
  document

end Parsing

end StaticScheduling
