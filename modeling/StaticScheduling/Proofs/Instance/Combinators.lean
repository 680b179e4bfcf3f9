import StaticScheduling.Instance.Grammar
import StaticScheduling.Proofs.Instance.Recognition

/-! # How readers are put together

Every reader of the grammar is a combination of readers in a row and of choices by
the token that comes next.  What is to hold of all readers then has to be shown for
rows, for choices and for the lists in between.
-/

namespace StaticScheduling

/-! ## What a token is read as -/

namespace TokenKind

def symbol? : TokenKind → Option String
  | .symbol name => some name
  | _ => none

def value? : TokenKind → Option String
  | .value name => some name
  | _ => none

def string? : TokenKind → Option String
  | .string text => some text
  | _ => none

/-- The name of a dictionary entry, which may also be a keyword. -/
def key? : TokenKind → Option String
  | .identifier name => some name
  | .keyword word => some word.spelling
  | _ => none

/-- The property with this name, up to its parameters. -/
def property? : TokenKind → Option (List Parameter → Property)
  | .attribute dialect mnemonic => some (Property.mk dialect mnemonic)
  | _ => none

/-- The parameter that is a single token. -/
def parameter? : TokenKind → Option Parameter
  | .integer number => some (.integer number)
  | .symbol name => some (.symbol name)
  | .string text => some (.string text)
  | _ => none

/-- The entry of an operand list with this name, up to its properties. -/
def entry? : TokenKind → Option (Option (List Property) → Entry)
  | .value name => some (.value name)
  | .symbol name => some (.symbol name)
  | _ => none

theorem symbol?_eq_some_iff {kind : TokenKind} {name : String} :
    kind.symbol? = some name ↔ kind = .symbol name := by
  cases kind <;> simp [symbol?]

theorem value?_eq_some_iff {kind : TokenKind} {name : String} :
    kind.value? = some name ↔ kind = .value name := by
  cases kind <;> simp [value?]

theorem string?_eq_some_iff {kind : TokenKind} {text : String} :
    kind.string? = some text ↔ kind = .string text := by
  cases kind <;> simp [string?]

theorem property?_eq_some_iff {kind : TokenKind} {make : List Parameter → Property} :
    kind.property? = some make ↔ ∃ dialect mnemonic,
      kind = .attribute dialect mnemonic ∧ Property.mk dialect mnemonic = make := by
  cases kind <;> simp [property?, and_assoc]

end TokenKind

theorem DictionaryEntry.names_of_key? {kind : TokenKind} {name : String}
    (found : kind.key? = some name) : DictionaryEntry.Names kind name := by
  cases kind with
  | identifier found' => cases found; exact .identifier _
  | keyword word => cases found; exact .keyword word
  | _ => cases found

namespace Reading

section Combinations

variable {α β Choice : Type}

/-- Reads nothing. -/
def answering (value : α) (kinds : List TokenKind) : Reading (α × List TokenKind) :=
  .ok (value, kinds)

/-- Reads what is behind a token that has to come. -/
def past (take : List TokenKind → Reading (List TokenKind))
    (read : List TokenKind → Reading (α × List TokenKind)) (kinds : List TokenKind) :
    Reading (α × List TokenKind) :=
  take kinds >>= read

/-- Reads one part and then another one. -/
def andThen (first : List TokenKind → Reading (α × List TokenKind))
    (next : α → List TokenKind → Reading (β × List TokenKind)) (kinds : List TokenKind) :
    Reading (β × List TokenKind) :=
  first kinds >>= fun answer => next answer.1 answer.2

/-- Reads by what the first kind is chosen for, or in another way if it is for nothing. -/
def choosing (choose : TokenKind → Option Choice)
    (chosen : Choice → List TokenKind → Reading (α × List TokenKind))
    (otherwise : List TokenKind → Reading (α × List TokenKind)) (kinds : List TokenKind) :
    Reading (α × List TokenKind) :=
  (kinds.head?.bind choose).elim (otherwise kinds) fun choice => chosen choice kinds

/-- Reads what is behind the first kind if this is chosen for something. -/
def taking (choose : TokenKind → Option Choice)
    (chosen : Choice → List TokenKind → Reading (α × List TokenKind)) :
    (List TokenKind → Reading (α × List TokenKind)) →
      List TokenKind → Reading (α × List TokenKind) :=
  choosing choose fun choice kinds => chosen choice kinds.tail

/-- Reads what a single token carries. -/
def carrying (carried : TokenKind → Option α) (expectation : Expectation) :
    List TokenKind → Reading (α × List TokenKind) :=
  taking carried answering (expected expectation)

/-- The choice for one kind alone. -/
def only (wanted kind : TokenKind) : Option Unit := if kind = wanted then some () else none

theorem only_eq_some_iff {wanted kind : TokenKind} {choice : Unit} :
    only wanted kind = some choice ↔ kind = wanted := by
  simp [only]

/-- Reads what is behind a mark if this comes next. -/
def optional (wanted : Delimiter) (read : List TokenKind → Reading (α × List TokenKind)) :
    (List TokenKind → Reading (α × List TokenKind)) →
      List TokenKind → Reading (α × List TokenKind) :=
  taking (only (.delimiter wanted)) fun _ => read

end Combinations

/-- Fails at the name of a property that has no room. -/
def tooDeep {α : Type} (limit : Nat) : List TokenKind → Reading (α × List TokenKind)
  | [] => expected .property []
  | _ :: rest => .error ⟨.nestingTooDeep limit, rest⟩

/-! ## Single tokens and lists -/

section Tokens

variable {α : Type} (read otherwise : List TokenKind → Reading (α × List TokenKind))

theorem past_eq_taking {wanted : TokenKind} {expectation : Expectation}
    {take : List TokenKind → Reading (List TokenKind)}
    (takes : ∀ rest, take (wanted :: rest) = .ok rest)
    (refuses : ∀ kinds, kinds.head? ≠ some wanted → take kinds = expected expectation kinds) :
    past take read = taking (only wanted) (fun _ => read) (expected expectation) := by
  funext kinds
  by_cases here : kinds.head? = some wanted
  · obtain ⟨rest, rfl⟩ := List.head?_eq_some_iff.mp here
    simp [past, takes, taking, choosing, only, ok_bind]
  · have none : kinds.head?.bind (only wanted) = none := by
      cases head : kinds.head? with
      | none => rfl
      | some kind =>
        rw [head, Option.some.injEq] at here
        exact if_neg here
    rw [past, refuses kinds here, taking, choosing, none]
    rfl

theorem past_mark_eq_taking (wanted : Delimiter) : past (mark wanted) read =
    taking (only (.delimiter wanted)) (fun _ => read) (expected (.delimiter wanted)) := by
  refine past_eq_taking read (fun rest => mark_eq_ok_iff.mpr rfl) fun kinds different => ?_
  rcases kinds with _ | ⟨kind, rest⟩
  · rfl
  · cases kind with
    | delimiter found => exact if_neg fun same => different (by rw [same]; rfl)
    | _ => rfl

theorem past_word_eq_taking (wanted : Keyword) : past (word wanted) read =
    taking (only (.keyword wanted)) (fun _ => read) (expected (.keyword wanted)) := by
  refine past_eq_taking read (fun rest => word_eq_ok_iff.mpr rfl) fun kinds different => ?_
  rcases kinds with _ | ⟨kind, rest⟩
  · rfl
  · cases kind with
    | keyword found => exact if_neg fun same => different (by rw [same]; rfl)
    | _ => rfl

theorem optional_apply (wanted : Delimiter) (kinds : List TokenKind) :
    optional wanted read otherwise kinds =
      if startsWith wanted kinds then read kinds.tail else otherwise kinds := by
  rcases kinds with _ | ⟨kind, rest⟩
  · rfl
  · by_cases here : kind = .delimiter wanted <;> simp [optional, taking, choosing, only, here]

theorem symbol_eq_carrying (expectation : Expectation) :
    symbol expectation = carrying TokenKind.symbol? expectation := by
  funext kinds
  rcases kinds with _ | ⟨kind, rest⟩
  · rfl
  · cases kind <;> rfl

theorem value_eq_carrying : value = carrying TokenKind.value? .value := by
  funext kinds
  rcases kinds with _ | ⟨kind, rest⟩
  · rfl
  · cases kind <;> rfl

/-- A list up to a mark is empty, or its items are read and then the mark. -/
theorem commasUntil_eq (close : Delimiter) : commasUntil read close =
    optional close (answering [])
      (andThen (commas read) fun values => past (mark close) (answering values)) := by
  funext kinds
  rw [optional_apply]
  unfold commasUntil
  congr 1
  unfold andThen
  rcases commas read kinds with failure | ⟨values, rest⟩
  · rfl
  · simp only [ok_bind, past]
    cases mark close rest <;> rfl

end Tokens

end Reading

open Reading

/-! ## The grammar -/

theorem Parameter.read_eq (nested : List TokenKind → Reading (Property × List TokenKind)) :
    Parameter.read nested = taking TokenKind.parameter? answering
      (choosing TokenKind.property?
        (fun _ => andThen nested fun property => answering (.property property))
        (expected .parameter)) := by
  funext kinds
  rcases kinds with _ | ⟨kind, rest⟩
  · rfl
  · cases kind <;> try rfl
    simp only [Parameter.read, taking, choosing, andThen, List.head?_cons, Option.bind_some]
    cases nested (.attribute _ _ :: rest) <;> rfl

/-- How a property is read behind its name, where there is room for it. -/
def Property.readInside (limit depth : Nat) (make : List Parameter → Property) :
    List TokenKind → Reading (Property × List TokenKind) :=
  optional .leftAngle
    (andThen (commas (Parameter.read (Property.read ⟨limit, depth + 1⟩))) fun parameters =>
      past (mark .rightAngle) (answering (make parameters)))
    (answering (make []))

/-- A property needs room for its name. -/
theorem Property.read_attribute (limit depth : Nat) (dialect mnemonic : String)
    (rest : List TokenKind) : Property.read ⟨limit, depth⟩ (.attribute dialect mnemonic :: rest) =
      if depth < limit then readInside limit depth (Property.mk dialect mnemonic) rest
      else .error ⟨.nestingTooDeep limit, rest⟩ := by
  rw [Property.read.eq_def]
  simp only
  split
  · rename_i closed
    rw [if_neg (by simpa [Nesting.deeper?] using closed)]
  · rename_i deeper opened
    obtain ⟨room, rfl⟩ := Nesting.deeper?_eq_some_iff.mp opened
    rw [if_pos room, readInside, optional_apply]
    congr 1
    unfold andThen
    rcases commas (Parameter.read (Property.read ⟨limit, depth + 1⟩)) rest.tail with
      failure | ⟨parameters, behind⟩
    · rfl
    · simp only [ok_bind, past]
      cases mark .rightAngle behind <;> rfl

/-- Reads a property that starts with a name. -/
def Property.readNamed (limit depth : Nat) (make : List Parameter → Property) :
    List TokenKind → Reading (Property × List TokenKind) :=
  if depth < limit then
    taking (fun _ => some ()) (fun _ => readInside limit depth make) (expected .property)
  else tooDeep limit

theorem Property.read_eq (limit depth : Nat) : Property.read ⟨limit, depth⟩ =
    choosing TokenKind.property? (readNamed limit depth) (expected .property) := by
  funext kinds
  rcases kinds with _ | ⟨kind, rest⟩
  · rw [Property.read.eq_def]
    rfl
  · cases kind <;> try exact (Property.read.eq_def ..).trans rfl
    rw [read_attribute]
    simp only [choosing, List.head?_cons, Option.bind_some, TokenKind.property?, readNamed]
    split <;> rfl

theorem Property.readOptionalList_eq (limit : Nat) : Property.readOptionalList limit =
    optional .leftBracket
      (andThen (commasUntil (Property.read (Nesting.outermost limit)) .rightBracket)
        fun properties => answering (some properties))
      (answering none) := by
  funext kinds
  rw [optional_apply]
  unfold Property.readOptionalList andThen
  cases commasUntil (Property.read (Nesting.outermost limit)) .rightBracket kinds.tail <;> rfl

theorem Entry.read_eq (limit : Nat) : Entry.read limit = taking TokenKind.entry?
    (fun make => andThen (Property.readOptionalList limit) fun properties =>
      answering (make properties)) (expected .valueOrSymbol) := by
  funext kinds
  rcases kinds with _ | ⟨kind, rest⟩
  · rfl
  · cases kind with
    | value name | symbol name =>
      simp only [Entry.read, taking, choosing, TokenKind.entry?, andThen, List.head?_cons,
        Option.bind_some, List.tail_cons]
      cases Property.readOptionalList limit rest <;> rfl
    | _ => rfl

namespace DictionaryEntry

theorem readValue_eq (limit : Nat) (name : String) : readValue limit name = optional .equals
    (andThen (Parameter.read (Property.read (Nesting.outermost limit))) fun value =>
      answering ⟨name, some value⟩) (answering ⟨name, none⟩) := by
  funext kinds
  rw [optional_apply]
  unfold readValue andThen
  cases Parameter.read (Property.read (Nesting.outermost limit)) kinds.tail <;> rfl

theorem read_eq (limit : Nat) : DictionaryEntry.read limit =
    taking TokenKind.key? (readValue limit) (expected .dictionaryKey) := by
  funext kinds
  rcases kinds with _ | ⟨kind, rest⟩
  · rfl
  · cases kind <;> rfl

theorem readOptionalList_eq (limit : Nat) : DictionaryEntry.readOptionalList limit =
    optional .leftBrace
      (andThen (commasUntil (DictionaryEntry.read limit) .rightBrace) answering)
      (answering []) := by
  funext kinds
  rw [optional_apply]
  unfold readOptionalList andThen
  cases commasUntil (DictionaryEntry.read limit) .rightBrace kinds.tail <;> rfl

end DictionaryEntry

theorem OperatorTypeDecl.read_eq (limit : Nat) : OperatorTypeDecl.read limit =
    past (word .operatorTypeWord) (andThen (symbol .operatorTypeName) fun name =>
      andThen (Property.readOptionalList limit) fun properties => answering ⟨name, properties⟩) :=
  rfl

namespace OperationDecl

theorem readResults_eq : readResults = choosing TokenKind.value?
    (fun _ => andThen (commas value) fun results => past (mark .equals) (answering results))
    (answering []) := by
  funext kinds
  rcases kinds with _ | ⟨kind, rest⟩
  · rfl
  · cases kind <;> rfl

theorem readName_eq : (fun kinds => .ok (readName kinds)) =
    taking TokenKind.symbol? (fun name => answering (some name)) (answering none) := by
  funext kinds
  rcases kinds with _ | ⟨kind, rest⟩
  · rfl
  · cases kind <;> rfl

theorem read_eq (limit : Nat) : OperationDecl.read limit =
    andThen readResults fun results => past (word .operationWord) <|
      andThen (fun kinds => .ok (readName kinds)) fun name => past (mark .leftParen) <|
        andThen (commasUntil (Entry.read limit) .rightParen) fun entries =>
          andThen (Property.readOptionalList limit) fun properties =>
            andThen (DictionaryEntry.readOptionalList limit) fun dictionary =>
              answering ⟨results, name, (Entry.split entries).1, (Entry.split entries).2, properties,
                dictionary⟩ :=
  rfl

end OperationDecl

namespace Instance

theorem readProblemName_eq : readProblemName = carrying TokenKind.string? .problemName := by
  funext kinds
  rcases kinds with _ | ⟨kind, rest⟩
  · rfl
  · cases kind <;> rfl

theorem readBody_eq (limit : Nat) : readBody limit =
    past (word .instanceWord) (andThen (symbol .instanceName) fun name =>
      past (word .ofWord) <| andThen readProblemName fun problem =>
        andThen (Property.readOptionalList limit) fun properties => past (mark .leftBrace) <|
          andThen (many startsOperatorType (OperatorTypeDecl.read limit)) fun operatorTypes =>
            andThen (many startsOperation (OperationDecl.read limit)) fun operations =>
              answering ⟨name, problem, properties, operatorTypes, operations⟩) :=
  rfl

end Instance

end StaticScheduling
