import StaticScheduling.Proofs.Instance.Printability
import StaticScheduling.Proofs.Instance.ViablePrefix

/-! # Faults are found at the first token that is wrong

What stands before the token that a parser fails at starts some text that the
parser accepts, and no text that it accepts goes on with this token.  The kind of
the error says what is wrong with the token: that the text ends there, that a
property nests too deep, that an operator type comes behind an operation, or that
the grammar has no such token there.
-/

namespace StaticScheduling

open Phrase Reading

/-- Items are read up to a kind that starts none. -/
theorem Reading.Reads.many_stops {α : Type} {item : Phrase α} {fits : α → Prop}
    {ends : List TokenKind → Prop} {read : List TokenKind → Reading (α × List TokenKind)}
    (reads : Reads item fits ends read) (nonempty : ∀ {value}, ¬item [] value)
    {starts : TokenKind → Bool} {kinds rest : List TokenKind} {values : List α}
    (succeeds : Reading.many starts read kinds = .ok (values, rest)) :
    rest.head?.any starts = false := by
  fun_induction Reading.many starts read kinds generalizing rest values with
  | case1 kinds starting failure failed => cases succeeds
  | case2 kinds starting first behind found shorter failure failed _ => cases succeeds
  | case3 kinds starting first behind found shorter more final others inductionHypothesis =>
    cases succeeds
    exact inductionHypothesis others
  | case4 kinds starting first behind found longer =>
    obtain ⟨_, taken, rfl, derives⟩ := reads.sound found
    cases taken with
    | nil => exact absurd derives nonempty
    | cons kind taken =>
      simp only [List.length_append, List.length_cons] at longer
      omega
  | case5 kinds stopped =>
    cases succeeds
    exact Bool.eq_false_iff.mpr stopped

namespace Instance

/-- Some document goes on with this kind, however deep its properties nest. -/
def Allows (before : List TokenKind) (kind : TokenKind) : Prop :=
  ∃ more document, Derives (before ++ kind :: more) document

/-- A document may end here, or go on with a declaration, and an operation was declared. -/
def BehindOperation (before : List TokenKind) : Prop :=
  ∃ document, Derives (before ++ [.delimiter .rightBrace]) document ∧ document.operations ≠ []

/-- What is wrong with the token behind `before`, where there is none at the end of a text. -/
inductive Blames (limit : Nat) (before : List TokenKind) :
    Option TokenKind → ParseErrorKind → Prop where
  | unexpectedEnd : Blames limit before none .unexpectedEnd
  /-- The grammar has a property there, but all documents that go on with it nest too deep. -/
  | nestingTooDeep {dialect mnemonic : String} (allowed : Allows before (.attribute dialect mnemonic))
      (deeper : ∀ more document, Derives (before ++ .attribute dialect mnemonic :: more) document →
        limit < document.depth) :
      Blames limit before (some (.attribute dialect mnemonic)) .nestingTooDeep
  | misplacedDeclaration (behind : BehindOperation before) :
      Blames limit before (some (.keyword .operatorTypeWord)) .misplacedDeclaration
  | unexpectedToken {kind : TokenKind} (refused : ¬Allows before kind)
      (placed : kind = .keyword .operatorTypeWord → ¬BehindOperation before) :
      Blames limit before (some kind) .unexpectedToken

/-! ## Where reading fails -/

/-- Nothing that nests within a limit is said by kinds that go on like these. -/
def Blocked (limit : Nat) (before behind : List TokenKind) : Prop :=
  ∀ other document, other.head? = behind.head? → Derives (before ++ other) document →
    ¬document.Fits limit

/-- What a failure says about the place where it is. -/
inductive FailsAt (before : List TokenKind) : SyntaxFailure → List TokenKind → Prop where
  | unexpected (expectation : Expectation) {behind : List TokenKind}
      (refused : ∀ kind ∈ behind.head?, ¬Allows before kind)
      (placed : behind.head? = some (.keyword .operatorTypeWord) → ¬BehindOperation before) :
      FailsAt before ⟨.unexpected expectation, behind⟩ behind
  | misplacedOperatorType {rest : List TokenKind} (behind : BehindOperation before) :
      FailsAt before ⟨.misplacedOperatorType, .keyword .operatorTypeWord :: rest⟩
        (.keyword .operatorTypeWord :: rest)
  | nestingTooDeep (limit : Nat) {dialect mnemonic : String} {rest : List TokenKind}
      (allowed : Allows before (.attribute dialect mnemonic)) :
      FailsAt before ⟨.nestingTooDeep limit, rest⟩ (.attribute dialect mnemonic :: rest)

variable {limit : Nat} {kinds before behind rest : List TokenKind} {document : Instance}
  {failure : SyntaxFailure}

/-- Where every greater limit is of no help, the grammar does not go on. -/
theorem not_allows_of_blocked (blocked : ∀ wider, limit ≤ wider → Blocked wider before behind)
    {kind : TokenKind} (next : kind ∈ behind.head?) : ¬Allows before kind := by
  rintro ⟨more, document, derives⟩
  exact blocked (max limit document.depth) (Nat.le_max_left _ _) (kind :: more) document next.symm
    derives (depth_le_iff.mp (Nat.le_max_right _ _))

/-- Where the part before the closing brace cannot be read, no document is read. -/
theorem blocked_of_readBody {wider : Nat}
    (fails : ∀ other, other.head? = behind.head? →
      ∃ failure, readBody wider (before ++ other) = .error failure) :
    Blocked wider before behind := by
  intro other document same derives fits
  have succeeds := read_eq_ok_iff.mpr ⟨derives, fits⟩
  obtain ⟨failure, fails⟩ := fails other same
  rw [read_eq_readBody, fails] at succeeds
  cases succeeds

theorem readBody_fails (fails : readBody limit kinds = .error failure) :
    ∃ before behind, kinds = before ++ behind ∧ FailsAt before failure behind ∧
      Viable Derives (Fits limit) before ∧ Blocked limit before behind := by
  obtain ⟨before, behind, rfl, stuck⟩ := (continues limit).stuck trivial fails
  have others {wider : Nat} (within : limit ≤ wider) (deep : failure.fault.isTooDeep → limit = wider)
      (other : List TokenKind) (same : other.head? = behind.head?) :
      ∃ failure', readBody wider (before ++ other) = .error failure' := by
    obtain ⟨before', behind', split, about, others⟩ := (oneAhead within).error fails
    obtain ⟨rfl, rfl⟩ := stuck.about.unique about split
    exact others deep other same
  have viable : Viable Derives (Fits limit) before := by
    by_cases start : before = []
    · rw [start]
      exact (continues limit).viable trivial
    · exact stuck.viable start
  refine ⟨before, behind, rfl, ?_, viable,
    blocked_of_readBody (others (Nat.le_refl limit) fun _ => rfl)⟩
  cases stuck.about with
  | unexpected expectation =>
    refine .unexpected expectation (fun kind next => not_allows_of_blocked (fun wider within =>
      blocked_of_readBody (others within fun deep => absurd deep Bool.false_ne_true)) next) ?_
    -- behind an operation the declarations end before an operator type, so nothing fails there
    rintro next ⟨document, derives, operations⟩
    obtain ⟨rest, rfl⟩ := List.head?_eq_some_iff.mp next
    have fits := depth_le_iff.mp (Nat.le_max_right limit document.depth)
    have stops : Stops [.leftBracket, .leftBrace] (.keyword .operatorTypeWord :: rest) := by
      simp [Stops]
    obtain ⟨failure', fails⟩ := others (Nat.le_max_left limit document.depth)
      (fun deep => absurd deep Bool.false_ne_true) _ rfl
    rw [readBody_complete derives fits stops rfl fun none => absurd none operations] at fails
    cases fails
  | nestingTooDeep bound kind rest =>
    obtain ⟨dialect, mnemonic, _, same, more, document, derives, _⟩ := stuck.tooDeep rfl
    cases same
    rw [List.append_assoc] at derives
    exact .nestingTooDeep bound ⟨more, document, derives⟩

/-- Behind the closing brace nothing may come, and before it only declarations. -/
theorem readClose_eq_error (fails : readClose rest = .error failure) :
    (∃ more, rest = .delimiter .rightBrace :: more ∧ more ≠ [] ∧
        failure = ⟨.unexpected .endOfInput, more⟩) ∨
      (∃ more, rest = .keyword .operatorTypeWord :: more ∧
        failure = ⟨.misplacedOperatorType, rest⟩) ∨
      (rest.head? ≠ some (.delimiter .rightBrace) ∧
        rest.head? ≠ some (.keyword .operatorTypeWord) ∧
          failure = ⟨.unexpected .declaration, rest⟩) := by
  unfold readClose expected at fails
  split at fails
  · rename_i more
    split at fails
    · cases fails
    · cases fails
      exact .inl ⟨more, rfl, ‹_›, rfl⟩
  · cases fails
    exact .inr (.inl ⟨_, rfl, rfl⟩)
  · rename_i noBrace noType
    cases fails
    refine .inr (.inr ⟨fun brace => ?_, fun type => ?_, rfl⟩)
    · obtain ⟨more, rfl⟩ := List.head?_eq_some_iff.mp brace
      exact noBrace _ rfl
    · obtain ⟨more, rfl⟩ := List.head?_eq_some_iff.mp type
      exact noType _ rfl

/-- Without an operation all operator types were read. -/
theorem readBody_stops (succeeds : readBody limit kinds = .ok (document, rest))
    (none : document.operations = []) : rest.head?.any startsOperatorType = false := by
  simp only [readBody, bind_eq_ok_iff, Prod.exists, Except.ok.injEq, Prod.mk.injEq] at succeeds
  obtain ⟨_, _, _, _, _, _, _, _, _, _, _, _, _, _, _, _, _, foundTypes, _, _, foundOperations, rfl,
    rfl⟩ := succeeds
  obtain ⟨_, taken, rfl, derives⟩ := (readsOperations limit).sound foundOperations
  subst none
  cases derives
  exact (OperatorTypeDecl.reads limit).many_stops (fun derives => by cases derives) foundTypes

/-- Where the declarations end, all that goes on is the closing brace, whatever the limit. -/
theorem eq_rightBrace_of_readBody {taken other : List TokenKind} {whole : Instance}
    (succeeds : readBody limit (taken ++ rest) = .ok (document, rest))
    (same : other.head? = rest.head?) (derives : Derives (taken ++ other) whole) :
    other = [.delimiter .rightBrace] := by
  have fits := depth_le_iff.mp (Nat.le_max_right limit whole.depth)
  have reads := read_eq_ok_iff.mpr ⟨derives, fits⟩
  obtain ⟨taken', split, others⟩ := (oneAhead (Nat.le_max_left limit whole.depth)).ok succeeds
  obtain rfl := List.append_cancel_right split
  rw [read_eq_readBody, others other same, ok_bind, bind_eq_ok_iff, exists_unit] at reads
  exact readClose_eq_ok_iff.mp reads.1

/-- What is read before a failure can be completed, and no document goes on with what it is about. -/
theorem read_fails (fails : Instance.read limit kinds = .error failure) :
    ∃ before behind, kinds = before ++ behind ∧ FailsAt before failure behind ∧
      Viable Derives (Fits limit) before ∧ Blocked limit before behind := by
  rw [read_eq_readBody] at fails
  rcases bind_eq_error_iff.mp fails with stuck | ⟨⟨document, rest⟩, succeeds, unclosed⟩
  · exact readBody_fails stuck
  obtain ⟨fits, taken, rfl, derives⟩ := readBody_sound succeeds
  have brace : ∀ kind ∈ [TokenKind.delimiter .rightBrace], kind.Plain := by decide
  rcases bind_eq_error_iff.mp unclosed with stuck | ⟨_, _, succeeded⟩
  · rcases readClose_eq_error stuck with ⟨more, rfl, some, rfl⟩ | ⟨more, rfl, rfl⟩ |
      ⟨noBrace, noType, rfl⟩
    · have ends {other : List TokenKind} {whole : Instance}
          (derivesWhole : Derives (taken ++ [.delimiter .rightBrace] ++ other) whole) :
          other = [] := by
        rw [List.append_assoc, List.singleton_append] at derivesWhole
        have alone : TokenKind.delimiter .rightBrace :: other = [.delimiter .rightBrace] :=
          eq_rightBrace_of_readBody succeeds rfl derivesWhole
        exact (List.cons.inj alone).2
      refine ⟨taken ++ [.delimiter .rightBrace], more, by simp, .unexpected _ ?_ ?_, ?_, ?_⟩
      · rintro kind _ ⟨_, _, derivesWhole⟩
        cases ends derivesWhole
      · rintro _ ⟨_, derivesWhole, _⟩
        cases ends derivesWhole
      · exact ⟨[], document, by rwa [List.append_nil], fits, List.forall_mem_nil _⟩
      · intro other whole same derivesWhole
        obtain rfl := ends derivesWhole
        exact absurd (List.head?_eq_none_iff.mp same.symm) some
    · have declared : document.operations ≠ [] := by
        intro none
        have stopped := readBody_stops succeeds none
        cases stopped
      refine ⟨taken, _, rfl, .misplacedOperatorType ⟨document, derives, declared⟩,
        ⟨_, document, derives, fits, brace⟩, fun other whole same derivesWhole => ?_⟩
      rw [eq_rightBrace_of_readBody succeeds same derivesWhole] at same
      cases same
    · have blocked (wider : Nat) : Blocked wider taken rest := by
        intro other whole same derivesWhole
        rw [eq_rightBrace_of_readBody succeeds same derivesWhole] at same
        exact absurd same.symm noBrace
      exact ⟨taken, rest, rfl, .unexpected _ (fun kind => not_allows_of_blocked fun wider
        (_ : limit ≤ wider) => blocked wider) fun type => absurd type noType,
        ⟨_, document, derives, fits, brace⟩, blocked limit⟩
  · cases succeeded

end Instance

/-! ## Texts -/

/-- A space before each token keeps it apart from the one before. -/
theorem Layout.spaced_map {kinds : List TokenKind} (plain : ∀ kind ∈ kinds, kind.Plain)
    (afterMark : Bool) : Spaced afterMark (kinds.map (Piece.mk " ")) := by
  induction kinds generalizing afterMark with
  | nil => trivial
  | cons kind kinds inductionHypothesis =>
    obtain ⟨here, others⟩ := List.forall_mem_cons.mp plain
    have space : " " ≠ "" := by decide
    exact ⟨⟨isBlank_space, here⟩, .inr (.inl space), inductionHypothesis others _⟩

/-- Plain kinds are those that texts have tokens of, whether comments are allowed or not. -/
theorem exists_loadTokens_iff (settings : ParserSettings) {kinds : List TokenKind} :
    (∃ source stream, loadTokens settings source = .ok stream ∧ stream.kinds = kinds) ↔
      ∀ kind ∈ kinds, kind.Plain := by
  constructor
  · rintro ⟨source, stream, loads, rfl⟩ kind member
    refine ⟨Instance.allWritable_of_loadTokens loads kind member, ?_⟩
    obtain ⟨whole, _, dropped⟩ := bind_eq_ok_iff.mp loads
    rw [TokenStream.kinds_withoutComments dropped] at member
    simpa using (List.mem_filter.mp member).2
  · intro plain
    obtain ⟨stream, loads, same⟩ :=
      Instance.loadTokens_layout (Layout.spaced_map plain true) settings
    exact ⟨_, stream, loads, same.trans (by simp [Layout.kinds, Function.comp_def])⟩

/-- The kinds of a text, with the end of the text behind them. -/
def terminated (kinds : List TokenKind) : List (Option TokenKind) := kinds.map some ++ [none]

theorem terminated_append (before behind : List TokenKind) :
    terminated (before ++ behind) = before.map some ++ terminated behind := by
  rw [terminated, terminated, List.map_append, List.append_assoc]

/-- The first of the kinds, or the end of the text. -/
theorem terminated_eq_cons (kinds : List TokenKind) :
    terminated kinds = kinds.head? :: (terminated kinds).tail := by
  cases kinds <;> rfl

theorem map_some_append_prefix_terminated_iff {before accepted : List TokenKind}
    {next : Option TokenKind} : before.map some ++ [next] <+: terminated accepted ↔
      ∃ other, accepted = before ++ other ∧ other.head? = next := by
  induction before generalizing accepted with
  | nil =>
    rw [terminated_eq_cons]
    simp [List.cons_prefix_cons, eq_comm]
  | cons kind before inductionHypothesis =>
    cases accepted with
    | nil => simp [terminated]
    | cons first accepted =>
      have shape : terminated (first :: accepted) = some first :: terminated accepted := rfl
      rw [shape, List.map_cons, List.cons_append, List.cons_prefix_cons, inductionHypothesis]
      simp [eq_comm, and_assoc]

namespace InstanceParser

/-- The kinds of the tokens of some text that the parser accepts. -/
def Accepts (parser : InstanceParser) (kinds : List TokenKind) : Prop :=
  ∃ source stream document, loadTokens parser.settings source = .ok stream ∧ stream.kinds = kinds ∧
    (parser.parse source).1 = .ok document

theorem accepts_iff {parser : InstanceParser} {kinds : List TokenKind} :
    parser.Accepts kinds ↔ (∀ kind ∈ kinds, kind.Plain) ∧
      ∃ document, Instance.Derives kinds document ∧
        document.Fits parser.settings.nestingLimit := by
  rw [← exists_loadTokens_iff parser.settings]
  constructor
  · rintro ⟨source, stream, document, loads, rfl, parses⟩
    obtain ⟨same, loaded, reads⟩ := parse_eq_ok_iff.mp parses
    rw [loads] at loaded
    cases loaded
    exact ⟨⟨source, stream, loads, rfl⟩, document, Instance.read_eq_ok_iff.mp reads⟩
  · rintro ⟨⟨source, stream, loads, rfl⟩, document, derives⟩
    exact ⟨source, stream, document, loads, rfl,
      parse_eq_ok_iff.mpr ⟨stream, loads, Instance.read_eq_ok_iff.mpr derives⟩⟩

theorem parse_eq_error_iff {parser : InstanceParser} {source : String} {stream : TokenStream}
    {error : ParseError} (loads : loadTokens parser.settings source = .ok stream) :
    (parser.parse source).1 = .error error ↔ ∃ failure,
      Instance.read parser.settings.nestingLimit stream.kinds = .error failure ∧
        error = failure.toParseError stream := by
  unfold parse
  simp only [loads]
  cases Instance.read parser.settings.nestingLimit stream.kinds with
  | ok document => simp
  | error failure => simp [eq_comm]

end InstanceParser

namespace Instance.FailsAt

variable {before behind : List TokenKind} {failure : SyntaxFailure} {stream : TokenStream}
  (fails : FailsAt before failure behind) (split : stream.kinds = before ++ behind)

include fails split

theorem offender_eq : failure.offender stream = before.length := by
  have counted : stream.tokens.length = before.length + behind.length := by
    rw [← List.length_append, ← split, TokenStream.kinds, List.length_map]
  cases fails with
  | unexpected | misplacedOperatorType =>
    simp only [SyntaxFailure.offender, SyntaxFailure.standing, counted]
    omega
  | nestingTooDeep =>
    simp only [SyntaxFailure.offender, SyntaxFailure.standing, counted, List.length_cons]
    omega

theorem position_toParseError :
    (failure.toParseError stream).position = stream.positionAt before.length := by
  rw [← fails.offender_eq split]
  unfold SyntaxFailure.toParseError
  split
  · split <;> rfl
  · rfl
  · rfl

theorem blames {limit : Nat} (blocked : Blocked limit before behind) :
    Blames limit before behind.head? (failure.toParseError stream).kind := by
  have offender := fails.offender_eq split
  have found : (stream.tokens[before.length]?).map Token.kind = behind.head? := by
    rw [← List.getElem?_map, ← TokenStream.kinds, split, List.getElem?_append_right (Nat.le_refl _),
      Nat.sub_self, List.head?_eq_getElem?]
  cases fails with
  | unexpected expectation refused placed =>
    simp only [SyntaxFailure.toParseError, offender]
    cases token : stream.tokens[before.length]? with
    | none =>
      rw [token, Option.map_none] at found
      rw [← found]
      exact .unexpectedEnd
    | some token =>
      rw [token, Option.map_some] at found
      rw [← found] at refused placed ⊢
      exact .unexpectedToken (refused _ rfl) fun same => placed (congrArg some same)
  | misplacedOperatorType behind => exact .misplacedDeclaration behind
  | nestingTooDeep bound allowed =>
    refine .nestingTooDeep allowed fun more document derives => ?_
    have tooDeep := blocked (_ :: more) document rfl derives
    rw [← depth_le_iff] at tooDeep
    omega

end Instance.FailsAt

namespace InstanceParser

/-- An error is about the first token, or the end of the text, that nothing accepted goes on
with. -/
structure FirstFault (parser : InstanceParser) (stream : TokenStream) (error : ParseError)
    (number : Nat) : Prop where
  inside : number < (terminated stream.kinds).length
  position : error.position = stream.positionAt number
  begun : ∃ accepted, parser.Accepts accepted ∧
    (terminated stream.kinds).take number <+: terminated accepted
  refused : ∀ accepted, parser.Accepts accepted →
    ¬(terminated stream.kinds).take (number + 1) <+: terminated accepted
  blamed : Instance.Blames parser.settings.nestingLimit (stream.kinds.take number)
    (terminated stream.kinds)[number] error.kind

/-- A parser that fails does so at the first token that is wrong. -/
theorem parse_fails_at_first_fault {parser : InstanceParser} {source : String}
    {stream : TokenStream} (loads : loadTokens parser.settings source = .ok stream)
    {error : ParseError} (fails : (parser.parse source).1 = .error error) :
    ∃ number, parser.FirstFault stream error number := by
  obtain ⟨failure, reads, rfl⟩ := (parse_eq_error_iff loads).mp fails
  obtain ⟨before, behind, split, failsAt, viable, blocked⟩ := Instance.read_fails reads
  have shape : terminated stream.kinds =
      before.map some ++ behind.head? :: (terminated behind).tail := by
    rw [split, terminated_append, ← terminated_eq_cons]
  have inside : before.length < (terminated stream.kinds).length := by
    simp [shape]
  have untilHere : (terminated stream.kinds).take before.length = before.map some := by
    rw [shape, List.take_left' (List.length_map _)]
  have here : (terminated stream.kinds)[before.length] = behind.head? := by
    simp [shape]
  refine ⟨before.length, inside, failsAt.position_toParseError split, ?begun, ?refused, ?blamed⟩
  case begun =>
    obtain ⟨more, document, derives, fits, plainMore⟩ := viable
    have plain := (exists_loadTokens_iff parser.settings).mp ⟨source, stream, loads, rfl⟩
    rw [split] at plain
    have plainBefore := (List.forall_mem_append.mp plain).1
    refine ⟨before ++ more, accepts_iff.mpr ⟨List.forall_mem_append.mpr ⟨plainBefore, plainMore⟩,
      document, derives, fits⟩, ?_⟩
    rw [untilHere, terminated_append]
    exact List.prefix_append _ _
  case refused =>
    intro accepted accepts begins
    rw [List.take_succ_eq_append_getElem inside, untilHere, here,
      map_some_append_prefix_terminated_iff] at begins
    obtain ⟨other, rfl, same⟩ := begins
    obtain ⟨_, document, derives, fits⟩ := accepts_iff.mp accepts
    exact blocked other document same derives fits
  case blamed =>
    rw [here, split, List.take_left' rfl]
    exact failsAt.blames split blocked

/-- A text with a property in a property, and with an operator type behind an operation. -/
def faultyText : String :=
  "instance @n of \"Problem\" \x7b // none\n  operation (@a [#b.c<1, #d.e>])\n  operator_type @a\n\x7d"

/-- Where one level is allowed the inner property is wrong, and else the operator type. -/
theorem parse_fails_at_first_fault_faulty :
    ∃ stream, (∀ limit, loadTokens ⟨limit, true⟩ faultyText = .ok stream) ∧
      (∃ error, ((ofSettings ⟨1, true⟩).parse faultyText).1 = .error error ∧
        error.kind = .nestingTooDeep ∧ error.position = ⟨2, 26⟩ ∧
        ∃ number, (ofSettings ⟨1, true⟩).FirstFault stream error number) ∧
      ∃ error, ((ofSettings ⟨2, true⟩).parse faultyText).1 = .error error ∧
        error.kind = .misplacedDeclaration ∧ error.position = ⟨3, 3⟩ ∧
        ∃ number, (ofSettings ⟨2, true⟩).FirstFault stream error number := by
  have lexes : (loadTokens ⟨0, true⟩ faultyText).isOk := by decide +kernel
  have tooDeep : ((ofSettings ⟨1, true⟩).parse faultyText).1 =
      .error ⟨.nestingTooDeep, ⟨2, 26⟩, "attribute parameters nest deeper than 1 levels", none⟩ := by
    decide +kernel
  have misplaced : ((ofSettings ⟨2, true⟩).parse faultyText).1 =
      .error ⟨.misplacedDeclaration, ⟨3, 3⟩, "operator_type after the first operation",
        some "declare operator types before operations"⟩ := by
    decide +kernel
  cases loads : loadTokens ⟨0, true⟩ faultyText with
  | error error =>
    rw [loads] at lexes
    cases lexes
  | ok stream =>
    -- the limit on nesting plays no part in cutting a text into tokens
    have loads (limit : Nat) : loadTokens ⟨limit, true⟩ faultyText = .ok stream := loads
    exact ⟨stream, loads, ⟨_, tooDeep, rfl, rfl, parse_fails_at_first_fault (loads 1) tooDeep⟩,
      ⟨_, misplaced, rfl, rfl, parse_fails_at_first_fault (loads 2) misplaced⟩⟩

end InstanceParser

end StaticScheduling
