import StaticScheduling.Proofs.Instance.Following

/-! # A parser that is used again

A parser that works in place parses a text as the grammar says, whatever it keeps.
So nothing of the texts before shows in what it answers: not the tokens, not where it
was left, and not the properties that a fault left open.
-/

namespace StaticScheduling

open Reading

/-! ## Declarations -/

namespace Reading

variable {α : Type} {item : List TokenKind → Reading (α × List TokenKind)} {starts : TokenKind → Bool}

/-- Where items take tokens, reading many of them is reading one and then many. -/
theorem many_eq_andThen {kinds : List TokenKind}
    (starting : kinds.head?.any starts)
    (shorter : ∀ value rest, item kinds = .ok (value, rest) → rest.length < kinds.length) :
    many starts item kinds = andThen item
      (fun first => andThen (many starts item) fun more => answering (first :: more)) kinds := by
  rw [andThen]
  cases found : item kinds with
  | error failure => exact many_of_error starting found
  | ok answer =>
    obtain ⟨first, rest⟩ := answer
    rw [many_of_ok starting found, if_pos (shorter first rest found)]
    rfl

end Reading

namespace Instance

variable {α : Type}

/-- What comes behind all declarations, up to the closing brace. -/
def readEnd (answer : α) : List TokenKind → Reading (α × List TokenKind) :=
  choosing (only (.delimiter .rightBrace)) (fun _ => answering answer)
    (choosing (only (.keyword .operatorTypeWord))
      (fun _ kinds => .error ⟨.misplacedOperatorType, kinds⟩) (expected .declaration))

/-- Reads the operations behind some declarations, up to the closing brace. -/
def readOperations (limit : Nat) (operatorTypes : List OperatorTypeDecl)
    (operations : List OperationDecl) :
    List TokenKind → Reading ((List OperatorTypeDecl × List OperationDecl) × List TokenKind) :=
  andThen (many startsOperation (OperationDecl.read limit)) fun more =>
    readEnd (operatorTypes, operations ++ more)

/-- Reads the declarations behind some operator types, up to the closing brace. -/
def readDeclarations (limit : Nat) (operatorTypes : List OperatorTypeDecl) :
    List TokenKind → Reading ((List OperatorTypeDecl × List OperationDecl) × List TokenKind) :=
  andThen (many startsOperatorType (OperatorTypeDecl.read limit)) fun more =>
    readOperations limit (operatorTypes ++ more) []

/-- Behind the closing brace the text has to end. -/
def readStop : List TokenKind → Reading (Unit × List TokenKind) :=
  choosing some (fun _ => expected .endOfInput) (answering ())

theorem readClose_eq (document : α → Instance) (answer : α) (kinds : List TokenKind) :
    (readClose kinds >>= fun _ => Except.ok (document answer, [])) =
      andThen (readEnd answer) (fun answer => past (mark .rightBrace) <|
        andThen readStop fun _ => answering (document answer)) kinds := by
  rcases kinds with _ | ⟨kind, rest⟩
  · rfl
  · cases kind with
    | delimiter mark => cases mark <;> cases rest <;> rfl
    | keyword word => cases word <;> rfl
    | _ => rfl

end Instance

theorem OperatorTypeDecl.length_lt_of_read {limit : Nat} {kinds rest : List TokenKind}
    {declaration : OperatorTypeDecl}
    (succeeds : OperatorTypeDecl.read limit kinds = .ok (declaration, rest)) :
    rest.length < kinds.length := by
  obtain ⟨_, taken, rfl, derives⟩ := (OperatorTypeDecl.reads limit).sound succeeds
  cases derives
  simp only [List.length_append, List.length_cons]
  omega

theorem OperationDecl.length_lt_of_read {limit : Nat} {kinds rest : List TokenKind}
    {operation : OperationDecl}
    (succeeds : OperationDecl.read limit kinds = .ok (operation, rest)) :
    rest.length < kinds.length := by
  obtain ⟨_, taken, rfl, derives⟩ := (OperationDecl.reads limit).sound succeeds
  obtain ⟨kind, more, rfl, _⟩ := Instance.exists_startsOperation derives
  simp only [List.length_append, List.length_cons]
  omega

namespace Instance

section Declarations

variable {limit : Nat} {operatorTypes : List OperatorTypeDecl} {operations : List OperationDecl}
  {kinds : List TokenKind}

theorem readOperations_of_stop (stops : kinds.head?.any startsOperation = false) :
    readOperations limit operatorTypes operations kinds =
      readEnd (operatorTypes, operations) kinds := by
  rw [readOperations, andThen, many_of_stop stops, ok_bind, List.append_nil]

theorem readOperations_of_start (starting : kinds.head?.any startsOperation) :
    readOperations limit operatorTypes operations kinds = andThen (OperationDecl.read limit)
      (fun next => readOperations limit operatorTypes (operations ++ [next])) kinds := by
  rw [readOperations, andThen,
    many_eq_andThen starting fun _ _ found => OperationDecl.length_lt_of_read found]
  simp only [readOperations, andThen, bind_assoc, answering, ok_bind, List.append_assoc,
    List.singleton_append]

theorem readDeclarations_of_stop (stops : kinds.head?.any startsOperatorType = false) :
    readDeclarations limit operatorTypes kinds = readOperations limit operatorTypes [] kinds := by
  rw [readDeclarations, andThen, many_of_stop stops, ok_bind, List.append_nil]

theorem readDeclarations_of_start (starting : kinds.head?.any startsOperatorType) :
    readDeclarations limit operatorTypes kinds = andThen (OperatorTypeDecl.read limit)
      (fun next => readDeclarations limit (operatorTypes ++ [next])) kinds := by
  rw [readDeclarations, andThen,
    many_eq_andThen starting fun _ _ found => OperatorTypeDecl.length_lt_of_read found]
  simp only [readDeclarations, andThen, bind_assoc, answering, ok_bind, List.append_assoc,
    List.singleton_append]

end Declarations

/-- What is done behind some declarations is decided by the next kind. -/
theorem readOperations_eq (limit : Nat) (operatorTypes : List OperatorTypeDecl)
    (operations : List OperationDecl) : readOperations limit operatorTypes operations =
      choosing (only (.delimiter .rightBrace)) (fun _ => answering (operatorTypes, operations))
        (choosing (only (.keyword .operatorTypeWord))
          (fun _ kinds => .error ⟨.misplacedOperatorType, kinds⟩)
          (choosing (Option.guard startsOperation)
            (fun _ => andThen (OperationDecl.read limit) fun next =>
              readOperations limit operatorTypes (operations ++ [next]))
            (expected .declaration))) := by
  funext kinds
  rcases kinds with _ | ⟨kind, rest⟩
  · exact readOperations_of_stop rfl
  · by_cases starting : startsOperation kind
    · have starts : (kind :: rest).head?.any startsOperation := starting
      rw [readOperations_of_start starts]
      cases kind with
      | keyword word => cases word <;> first | rfl | cases starting
      | value name => rfl
      | _ => cases starting
    · rw [readOperations_of_stop (by simpa using starting), readEnd]
      simp [choosing, Option.guard, starting]

theorem readDeclarations_eq (limit : Nat) (operatorTypes : List OperatorTypeDecl) :
    readDeclarations limit operatorTypes =
      choosing (only (.delimiter .rightBrace)) (fun _ => answering (operatorTypes, []))
        (choosing (only (.keyword .operatorTypeWord))
          (fun _ => andThen (OperatorTypeDecl.read limit) fun next =>
              readDeclarations limit (operatorTypes ++ [next]))
          (choosing (Option.guard startsOperation)
            (fun _ => andThen (OperationDecl.read limit) fun next =>
              readOperations limit operatorTypes [next])
            (expected .declaration))) := by
  funext kinds
  by_cases starting : kinds.head?.any startsOperatorType
  · rw [readDeclarations_of_start starting]
    rcases kinds with _ | ⟨kind, rest⟩
    · cases starting
    · obtain rfl : kind = .keyword .operatorTypeWord := of_decide_eq_true starting
      rfl
  · rw [readDeclarations_of_stop (by simpa using starting), readOperations_eq]
    rcases kinds with _ | ⟨kind, rest⟩
    · rfl
    · have other : kind ≠ .keyword .operatorTypeWord := fun same => starting (decide_eq_true same)
      simp [choosing, only, other]

/-- Reads a document up to the end of the text. -/
theorem read_eq_andThen (limit : Nat) :
    (fun kinds => Instance.read limit kinds >>= fun document => Except.ok (document, [])) =
      past (word .instanceWord) (andThen (symbol .instanceName) fun name =>
        past (word .ofWord) <| andThen readProblemName fun problem =>
          andThen (Property.readOptionalList limit) fun properties => past (mark .leftBrace) <|
            andThen (readDeclarations limit []) fun declared => past (mark .rightBrace) <|
              andThen readStop fun _ =>
                answering ⟨name, problem, properties, declared.1, declared.2⟩) := by
  funext kinds
  simp only [Instance.read, bind_assoc, ok_bind]
  refine bind_congr fun _ => bind_congr fun name => bind_congr fun _ => bind_congr fun problem => ?_
  refine bind_congr fun properties => bind_congr fun _ => ?_
  rw [andThen, readDeclarations, andThen, bind_assoc]
  refine bind_congr fun operatorTypes => ?_
  rw [readOperations, andThen, bind_assoc]
  refine bind_congr fun operations => ?_
  exact readClose_eq (fun declared => ⟨name.1, problem.1, properties.1, declared.1, declared.2⟩)
    (operatorTypes.1, operations.1) operations.2

end Instance

namespace Parsing

open ParserMemory

variable {limit : Nat}

theorem follows_optionalProperties (limit : Nat) :
    Follows limit 0 optionalProperties (Property.readOptionalList limit) := by
  have listed := (follows_property limit).commasUntil .rightBracket
  rw [optionalProperties, Property.readOptionalList_eq, optional_eq_choosing]
  refine .choosing (fun _ => ?_) (.answering none)
  rw [← andThen_past]
  exact listed.mark.bind fun properties => .answering (some properties)

theorem follows_entry (limit : Nat) : Follows limit 0 entry (Entry.read limit) := by
  rw [entry, Entry.read_eq]
  exact .choosing (fun make => .advance ((follows_optionalProperties limit).bind fun properties =>
    .answering (make properties))) (.expected .valueOrSymbol)

theorem follows_dictionaryEntry (limit : Nat) :
    Follows limit 0 dictionaryEntry (DictionaryEntry.read limit) := by
  have value := follows_parameter (follows_property limit)
  rw [dictionaryEntry, DictionaryEntry.read_eq]
  refine .choosing (fun name => .advance ?_) (.expected .dictionaryKey)
  rw [DictionaryEntry.readValue_eq]
  exact .consume (value.bind fun value => .answering _) (.answering _)

theorem follows_optionalDictionary (limit : Nat) :
    Follows limit 0 optionalDictionary (DictionaryEntry.readOptionalList limit) := by
  have listed := (follows_dictionaryEntry limit).commasUntil .rightBrace
  rw [optionalDictionary, DictionaryEntry.readOptionalList_eq, optional_eq_choosing,
    andThen_answering]
  exact .choosing (fun _ => listed.mark) (.answering [])

theorem follows_operatorType (limit : Nat) :
    Follows limit 0 operatorType (OperatorTypeDecl.read limit) := by
  rw [operatorType, OperatorTypeDecl.read_eq, symbol_eq_carrying]
  exact .word <| (Follows.expect _ _).bind fun name =>
    (follows_optionalProperties limit).bind fun properties => .answering _

theorem follows_operation (limit : Nat) :
    Follows limit 0 operation (OperationDecl.read limit) := by
  have defined : Follows limit 0 results OperationDecl.readResults := by
    rw [results, OperationDecl.readResults_eq, value_eq_carrying]
    exact .choosing (fun _ => (Follows.expect _ _).commas.bind fun names =>
      .mark (.answering names)) (.answering [])
  have named : Follows limit 0 optionalName fun kinds => .ok (OperationDecl.readName kinds) := by
    rw [optionalName, OperationDecl.readName_eq]
    exact .choosing (fun name => .advance (.answering (some name))) (.answering none)
  rw [operation, OperationDecl.read_eq]
  exact defined.bind fun results => .word <| named.bind fun name => .mark <|
    ((follows_entry limit).commasUntil .rightParen).bind fun entries =>
      (follows_optionalProperties limit).bind fun properties =>
        (follows_optionalDictionary limit).bind fun dictionary => .answering _

/-- Behind an operation, an operator type is misplaced.  Every round takes an operation. -/
theorem follows_operations (operatorTypes : List OperatorTypeDecl) (first : OperationDecl)
    (more : List OperationDecl) {memory : ParserMemory} (ready : memory.Ready limit 0) (rounds : Nat)
    (enough : memory.ahead.length < rounds) :
    Agrees memory ((declarationsRounds operatorTypes (first :: more) rounds).on memory)
      (Instance.readOperations limit operatorTypes (first :: more) memory.ahead) := by
  induction rounds generalizing memory more with
  | zero => omega
  | succ rounds inductionHypothesis =>
    have misplaced := Follows.fault (α := List OperatorTypeDecl × List OperationDecl)
      (fun memory (ready : memory.Ready limit 0) => ready.toParseError_misplaced) ready
    rw [declarationsRounds, Instance.readOperations_eq]
    refine .choosing (fun _ _ => Follows.answering _ ready) fun _ => ?_
    refine .choosing (fun _ _ => misplaced) fun _ => ?_
    refine .choosing (fun _ _ => ?_) fun _ => Follows.expected .declaration ready
    refine (follows_operation limit ready).bind ready fun declared after readyAfter _ found => ?_
    have shorter := OperationDecl.length_lt_of_read found
    exact inductionHypothesis (more ++ [declared]) readyAfter (by omega)

/-- Operator types are taken until something else comes. -/
theorem follows_operatorTypes (operatorTypes : List OperatorTypeDecl) {memory : ParserMemory}
    (ready : memory.Ready limit 0) (rounds : Nat) (enough : memory.ahead.length < rounds) :
    Agrees memory ((declarationsRounds operatorTypes [] rounds).on memory)
      (Instance.readDeclarations limit operatorTypes memory.ahead) := by
  induction rounds generalizing memory operatorTypes with
  | zero => omega
  | succ rounds inductionHypothesis =>
    rw [declarationsRounds, Instance.readDeclarations_eq]
    refine .choosing (fun _ _ => Follows.answering _ ready) fun _ => ?_
    refine .choosing (fun _ _ => ?_) fun _ => ?_
    · refine (follows_operatorType limit ready).bind ready ?_
      intro declared after readyAfter _ found
      have shorter := OperatorTypeDecl.length_lt_of_read found
      exact inductionHypothesis (operatorTypes ++ [declared]) readyAfter (by omega)
    · refine .choosing (fun _ _ => ?_) fun _ => Follows.expected .declaration ready
      refine (follows_operation limit ready).bind ready fun declared after readyAfter _ found => ?_
      have shorter := OperationDecl.length_lt_of_read found
      exact follows_operations operatorTypes declared [] readyAfter rounds (by omega)

theorem follows_declarations (limit : Nat) :
    Follows limit 0 declarations (Instance.readDeclarations limit []) := by
  intro memory ready
  rw [declarations, on_bind_of_ok (on_get memory)]
  exact follows_operatorTypes [] ready _ memory.length_ahead_lt

theorem follows_document (limit : Nat) : Follows limit 0 document fun kinds =>
    Instance.read limit kinds >>= fun document => .ok (document, []) := by
  have stops : Follows limit 0 expectEnd Instance.readStop :=
    .choosing (fun _ => .expected .endOfInput) (.answering ())
  rw [document, Instance.read_eq_andThen, symbol_eq_carrying, Instance.readProblemName_eq]
  exact .word <| (Follows.expect _ _).bind fun name => .word <|
    (Follows.expect _ _).bind fun problem =>
      (follows_optionalProperties limit).bind fun properties => .mark <|
        (follows_declarations limit).bind fun declared => .mark <|
          stops.bind fun _ => .answering _

/-! ## Texts one behind the other -/

theorem on_load_of_error {memory : ParserMemory} {source : String} {error : ParseError}
    (fails : loadTokens memory.settings source = .error error) :
    (load source).on memory = some (.error error, memory) := by
  rw [load, on_bind_of_ok (on_get memory)]
  refine on_bind_of_error ?_ _
  rw [on_ofExcept, fails]

theorem on_load_of_ok {memory : ParserMemory} {source : String} {stream : TokenStream}
    (loads : loadTokens memory.settings source = .ok stream) :
    (load source).on memory = some (.ok (), { memory with stream, standing := 0 }) := by
  have loaded : (MonadExcept.ofExcept (loadTokens memory.settings source) :
      Parsing TokenStream).on memory = some (.ok stream, memory) := by rw [on_ofExcept, loads]
  rw [load, on_bind_of_ok (on_get memory), on_bind_of_ok loaded]
  rfl

/-- A document is taken up to the end of the tokens, or up to where the reader fails. -/
theorem exists_on_document (settings : ParserSettings) {stream : TokenStream}
    (recut : stream.Recut) : ∃ opened, document.on ⟨⟨settings, stream, 0⟩, 0⟩ =
      some (match Instance.read settings.nestingLimit stream.kinds with
        | .ok document => (.ok document, ⟨⟨settings, stream, stream.tokens.length⟩, opened⟩)
        | .error failure =>
          (.error (failure.toParseError stream),
            ⟨⟨settings, stream, failure.standing stream⟩, opened⟩)) := by
  have ready : ParserMemory.Ready settings.nestingLimit 0 ⟨⟨settings, stream, 0⟩, 0⟩ :=
    ⟨rfl, rfl, Nat.zero_le _, recut⟩
  have agrees : Agrees ⟨⟨settings, stream, 0⟩, 0⟩ (document.on ⟨⟨settings, stream, 0⟩, 0⟩)
      (Instance.read settings.nestingLimit stream.kinds >>= fun document => .ok (document, [])) :=
    follows_document settings.nestingLimit ready
  generalize document.on ⟨⟨settings, stream, 0⟩, 0⟩ = outcome at agrees ⊢
  cases found : Instance.read settings.nestingLimit stream.kinds with
  | ok document =>
    rw [found] at agrees
    cases agrees
    exact ⟨0, rfl⟩
  | error failure =>
    rw [found] at agrees
    cases agrees with
    | error opened suffix => exact ⟨opened, rfl⟩

/-- Parsing in place ends.  It answers what a parser answers that runs the reader of the grammar, and
leaves such a parser, perhaps with properties open. -/
theorem exists_on_text (memory : ParserMemory) (source : String) : ∃ opened,
    (text source).on memory = some ((memory.toInstanceParser.parse source).1,
      ⟨(memory.toInstanceParser.parse source).2, opened⟩) := by
  rw [InstanceParser.parse, text]
  cases loaded : loadTokens memory.settings source with
  | error error => exact ⟨memory.depth, on_bind_of_error (on_load_of_error loaded) _⟩
  | ok stream =>
    have began : reset.on { memory with stream, standing := 0 } =
      some (.ok (), ⟨⟨memory.settings, stream, 0⟩, 0⟩) := rfl
    obtain ⟨opened, ends⟩ :=
      exists_on_document memory.settings (TokenStream.recut_of_loadTokens loaded)
    rw [on_bind_of_ok (on_load_of_ok loaded), on_bind_of_ok began, ends]
    refine ⟨opened, ?_⟩
    simp only
    cases Instance.read memory.settings.nestingLimit stream.kinds <;> rfl

/-- A name that has no dot is a fault of the lexer.  Once a text was cut into tokens, no attribute in
it is refused for its name. -/
theorem kind_ne_invalidIdentifier {memory after : ParserMemory} {source : String}
    {stream : TokenStream} {error : ParseError}
    (loads : loadTokens memory.settings source = .ok stream)
    (fails : (text source).on memory = some (.error error, after)) :
    error.kind ≠ .invalidIdentifier := by
  obtain ⟨opened, ends⟩ := exists_on_text memory source
  simp only [InstanceParser.parse, loads, fails] at ends
  cases found : Instance.read memory.settings.nestingLimit stream.kinds with
  | ok document =>
    rw [found] at ends
    cases ends
  | error failure =>
    rw [found] at ends
    cases ends
    unfold SyntaxFailure.toParseError
    split
    · split <;> exact ParseErrorKind.noConfusion
    · exact ParseErrorKind.noConfusion
    · exact ParseErrorKind.noConfusion

/-- What a parser keeps that is given some texts one behind the other. -/
def fed (memory : ParserMemory) (sources : List String) : Option ParserMemory :=
  sources.foldlM (fun memory source => ((text source).on memory).map Prod.snd) memory

end Parsing

namespace InstanceParser

variable {parser : InstanceParser} {source : String}

/-- The parser that some texts leave, one behind the other. -/
def fed (parser : InstanceParser) (sources : List String) : InstanceParser :=
  sources.foldl (fun parser source => (parser.parse source).2) parser

theorem settings_parse (parser : InstanceParser) (source : String) :
    (parser.parse source).2.settings = parser.settings := by
  unfold parse
  cases loadTokens parser.settings source with
  | error error => rfl
  | ok stream =>
    simp only
    cases Instance.read parser.settings.nestingLimit stream.kinds <;> rfl

theorem settings_fed (parser : InstanceParser) (sources : List String) :
    (parser.fed sources).settings = parser.settings := by
  induction sources generalizing parser with
  | nil => rfl
  | cons source sources inductionHypothesis =>
    exact (inductionHypothesis _).trans (parser.settings_parse source)

/-- An answer depends on the settings alone. -/
theorem parse_fst_congr {other : InstanceParser} (same : parser.settings = other.settings)
    (source : String) : (parser.parse source).1 = (other.parse source).1 := by
  unfold parse
  rw [same]
  cases loadTokens other.settings source with
  | error error => rfl
  | ok stream => cases Instance.read other.settings.nestingLimit stream.kinds <;> rfl

theorem parse_of_error {error : ParseError}
    (fails : loadTokens parser.settings source = .error error) :
    parser.parse source = (.error error, parser) := by
  rw [parse, fails]

/-- A parser is left at a token of the text, and at its end if a document was read. -/
theorem exists_position_parse {stream : TokenStream}
    (loads : loadTokens parser.settings source = .ok stream) :
    ∃ number ≤ stream.tokens.length,
      (parser.parse source).2.position = stream.positionAt number ∧
        ∀ document, (parser.parse source).1 = .ok document → number = stream.tokens.length := by
  rw [parse, loads]
  simp only
  cases Instance.read parser.settings.nestingLimit stream.kinds with
  | ok document => exact ⟨_, Nat.le_refl _, rfl, fun _ _ => rfl⟩
  | error failure => exact ⟨failure.standing stream, Nat.sub_le .., rfl, nofun⟩

end InstanceParser

namespace Parsing

/-- Whatever the texts are, a parser in place keeps what a parser keeps that runs the reader. -/
theorem exists_fed (memory : ParserMemory) (sources : List String) : ∃ opened,
    fed memory sources = some ⟨memory.toInstanceParser.fed sources, opened⟩ := by
  induction sources generalizing memory with
  | nil => exact ⟨memory.depth, rfl⟩
  | cons source sources inductionHypothesis =>
    obtain ⟨opened, ends⟩ := exists_on_text memory source
    obtain ⟨last, others⟩ := inductionHypothesis ⟨(memory.toInstanceParser.parse source).2, opened⟩
    refine ⟨last, ?_⟩
    rw [fed, List.foldlM_cons, ends]
    exact others

/-- A parser that was given other texts before answers what a new one answers, whatever became of
those texts.  A text that cannot be cut into tokens, or has a comment where none may stand, leaves
the parser where it was.  Any other text leaves it at one of its tokens, and at its end if a document
was read. -/
theorem on_text_fed (settings : ParserSettings) (earlier : List String) (source : String) :
    ∃ memory result after,
      fed (ParserMemory.ofSettings settings) earlier = some memory ∧
      (text source).on memory = some (result, after) ∧
      (∃ other, (text source).on (ParserMemory.ofSettings settings) = some (result, other)) ∧
      (memory.toInstanceParser = (InstanceParser.ofSettings settings).fed earlier ∧
        memory.toInstanceParser.parse source = (result, after.toInstanceParser)) ∧
      (∀ error, loadTokens settings source = .error error →
        result = .error error ∧ after.position = memory.position) ∧
      ∀ stream, loadTokens settings source = .ok stream →
        ∃ number ≤ stream.tokens.length, after.position = stream.positionAt number ∧
          ∀ document, result = .ok document → number = stream.tokens.length := by
  let parser := (InstanceParser.ofSettings settings).fed earlier
  have same : parser.settings = settings := InstanceParser.settings_fed _ earlier
  obtain ⟨opened, feeds⟩ := exists_fed (ParserMemory.ofSettings settings) earlier
  obtain ⟨_, ends⟩ := exists_on_text ⟨parser, opened⟩ source
  obtain ⟨_, endsFresh⟩ := exists_on_text (ParserMemory.ofSettings settings) source
  rw [← InstanceParser.parse_fst_congr same source] at endsFresh
  refine ⟨_, _, _, feeds, ends, ⟨_, endsFresh⟩, ⟨rfl, rfl⟩, ?_, ?_⟩
  · intro error fails
    rw [← same] at fails
    have unmoved := InstanceParser.parse_of_error fails
    exact ⟨congrArg Prod.fst unmoved, congrArg (fun outcome => outcome.2.position) unmoved⟩
  · intro stream loads
    rw [← same] at loads
    exact InstanceParser.exists_position_parse loads

/-- A text that ends inside two properties, and one that cannot be cut into tokens. -/
def abandoned : List String := ["instance @n of \"P\" [#a.b<1, #c.d<", "%"]

/-- Both properties are open still when another text comes.  If there is a document in it, this is
read and the parser is left at its end.  If not even its tokens can be told, the parser stays at the
end of the first text. -/
theorem on_text_fed_abandoned :
    let nameless : ParseError :=
      ⟨.invalidIdentifier, ⟨1, 1⟩, "Expected a symbol name after '@'", none⟩
    ∃ memory, fed (ParserMemory.ofSettings default) abandoned = some memory ∧
      memory.depth = 2 ∧ memory.position = ⟨1, 34⟩ ∧
      (∃ after, (text "instance @m of \"Q\" \x7b \x7d").on memory =
        some (.ok ⟨"m", "Q", none, [], []⟩, after) ∧ after.position = ⟨1, 23⟩) ∧
      ∃ after, (text "@").on memory = some (.error nameless, after) ∧
        after.position = ⟨1, 34⟩ := by
  intro nameless
  obtain ⟨memory, result, after, feeds, ends, ⟨_, fresh⟩, _, _, read⟩ :=
    on_text_fed default abandoned "instance @m of \"Q\" \x7b \x7d"
  obtain ⟨_, _, stays, feedsToo, stops, _, _, unread, _⟩ := on_text_fed default abandoned "@"
  have kept : (fed (ParserMemory.ofSettings default) abandoned).map
      (fun memory => (memory.depth, memory.position)) = some (2, ⟨1, 34⟩) := by decide +kernel
  rw [feeds] at kept feedsToo
  cases feedsToo
  simp only [Option.map_some, Option.some.injEq, Prod.mk.injEq] at kept
  refine ⟨memory, feeds, kept.1, kept.2, ⟨after, ?_⟩, stays, ?_⟩
  · have answers :
        ((text "instance @m of \"Q\" \x7b \x7d").on (ParserMemory.ofSettings default)).map
          Prod.fst = some (.ok ⟨"m", "Q", none, [], []⟩) := by decide +kernel
    have reaches : (loadTokens default "instance @m of \"Q\" \x7b \x7d").map
        (fun stream => stream.positionAt stream.tokens.length) = .ok ⟨1, 23⟩ := by decide +kernel
    rw [fresh] at answers
    cases answers
    cases loads : loadTokens default "instance @m of \"Q\" \x7b \x7d" with
    | error error =>
      rw [loads] at reaches
      cases reaches
    | ok stream =>
      obtain ⟨number, _, position, last⟩ := read stream loads
      rw [loads] at reaches
      rw [position, last _ rfl]
      exact ⟨ends, Except.ok.inj reaches⟩
  · obtain ⟨rfl, same⟩ := unread nameless (by decide +kernel)
    exact ⟨stops, same.trans kept.2⟩

end Parsing

end StaticScheduling
