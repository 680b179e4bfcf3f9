import StaticScheduling.Instance.Text
import StaticScheduling.Proofs.Instance.Reuse

/-! # Texts that are spelled in another way

Blanks and comments stand between tokens, and a literal may be spelled in several
ways.  What a parser does is decided by the kinds of the tokens, so two texts with the
same kinds hold the same document or fail in the same way.  A fault still shows where it
is and what the text has there.
-/

namespace StaticScheduling

/-- Faults at the tokens with one number, in two texts.  They say the same but for the place, and for
how the token is spelled where one is shown. -/
structure ParseError.SameFault (first second : TokenStream) (error other : ParseError) : Prop where
  kind_eq : error.kind = other.kind
  note_eq : error.note = other.note
  place : ∃ number, error.position = first.positionAt number ∧
    other.position = second.positionAt number ∧
      (error.message = other.message ∨
        ∃ (expected : Expectation) (shown otherShown : Token),
          first.tokens[number]? = some shown ∧ second.tokens[number]? = some otherShown ∧
            error.message = "Expected " ++ expected.text ++ ", found '" ++ shown.lexeme ++ "'" ∧
            other.message = "Expected " ++ expected.text ++ ", found '" ++ otherShown.lexeme ++ "'")

namespace SyntaxFailure

variable {first second : TokenStream}

theorem length_eq_of_kinds_eq (same : first.kinds = second.kinds) :
    first.tokens.length = second.tokens.length := by
  simpa only [TokenStream.kinds, List.length_map] using congrArg List.length same

/-- One failure is told of two streams with the same kinds. -/
theorem sameFault_toParseError (same : first.kinds = second.kinds) (failure : SyntaxFailure) :
    ParseError.SameFault first second (failure.toParseError first) (failure.toParseError second) := by
  have lengths := length_eq_of_kinds_eq same
  have offenders : failure.offender second = failure.offender first := by
    simp only [offender, standing, lengths]
  obtain ⟨fault, rest⟩ := failure
  cases fault with
  | misplacedOperatorType | nestingTooDeep limit =>
    refine ⟨rfl, rfl, _, rfl, ?_, .inl rfl⟩
    simp only [toParseError, offenders]
  | unexpected expected =>
    -- there is a token with this number in both streams, or in none
    have found : ((first.tokens[offender ⟨.unexpected expected, rest⟩ first]?).map Token.kind) =
        (second.tokens[offender ⟨.unexpected expected, rest⟩ first]?).map Token.kind := by
      rw [← List.getElem?_map, ← List.getElem?_map]
      exact congrArg (fun kinds : List TokenKind => kinds[_]?) same
    simp only [toParseError, offenders]
    generalize offender ⟨.unexpected expected, rest⟩ first = number at found
    cases here : first.tokens[number]? with
    | none =>
      rw [here] at found
      rw [Option.map_eq_none_iff.mp found.symm]
      exact ⟨rfl, rfl, number, rfl, rfl, .inl rfl⟩
    | some shown =>
      rw [here] at found
      obtain ⟨otherShown, there, _⟩ := Option.map_eq_some_iff.mp found.symm
      rw [there]
      exact ⟨rfl, rfl, number, rfl, rfl, .inr ⟨expected, shown, otherShown, here, there, rfl, rfl⟩⟩

end SyntaxFailure

/-- Answers to two texts with the same kinds: one document, or one fault. -/
inductive InstanceParser.SameAnswer (first second : TokenStream) :
    Except ParseError Instance → Except ParseError Instance → Prop where
  | document (document : Instance) : SameAnswer first second (.ok document) (.ok document)
  | fault {error other : ParseError} (same : ParseError.SameFault first second error other) :
      SameAnswer first second (.error error) (.error other)

namespace InstanceParser

/-- Texts with the same kinds have the same answer, and a parser is left before the tokens with one
number. -/
theorem parse_sameAnswer (parser : InstanceParser) {source other : String}
    {first second : TokenStream} (loads : loadTokens parser.settings source = .ok first)
    (loadsOther : loadTokens parser.settings other = .ok second)
    (same : first.kinds = second.kinds) :
    SameAnswer first second (parser.parse source).1 (parser.parse other).1 ∧
      (parser.parse source).2.standing = (parser.parse other).2.standing := by
  have lengths := SyntaxFailure.length_eq_of_kinds_eq same
  simp only [parse, loads, loadsOther, same]
  cases Instance.read parser.settings.nestingLimit second.kinds with
  | ok document => exact ⟨.document document, lengths⟩
  | error failure =>
    refine ⟨.fault (failure.sameFault_toParseError same), ?_⟩
    simp only [SyntaxFailure.standing, lengths]

end InstanceParser

theorem TokenStream.exists_loadTokens {source : String} {stream : TokenStream} (limit : Nat)
    (lexes : TokenStream.ofText source = .ok stream) :
    ∃ remaining, loadTokens ⟨limit, true⟩ source = .ok remaining ∧
      remaining.kinds = stream.kinds.filter fun kind => !kind.isComment := by
  obtain ⟨remaining, dropped⟩ := stream.exists_withoutComments
  refine ⟨remaining, ?_, kinds_withoutComments dropped⟩
  rw [loadTokens, lexes, ok_bind, dropped]

namespace Instance

theorem failsOnly_checkAllRecords (document : Instance) :
    FailsOnly (fun error => error.category = .structural) document.checkAllRecords := by
  refine .forM fun numbered _ => ?_
  simp only [checkRecords]
  cases recordFault? numbered.1.operands.length numbered.1.dependences with
  | none => exact .of_eq_ok rfl
  | some fault =>
    intro error fails
    cases fails
    rfl

/-- Two texts whose tokens have the same kinds, apart from comments, hold the same document, or are
refused for the same records, or for one fault.  A parser in place ends on both with the same answer,
before the tokens with one number. -/
theorem ofText_respelled {limit : Nat} {source other : String} {stream otherStream : TokenStream}
    (lexes : TokenStream.ofText source = .ok stream)
    (lexesOther : TokenStream.ofText other = .ok otherStream)
    (same : (stream.kinds.filter fun kind => !kind.isComment) =
      otherStream.kinds.filter fun kind => !kind.isComment) :
    let settings : ParserSettings := ⟨limit, true⟩
    ∃ first second, loadTokens settings source = .ok first ∧
      loadTokens settings other = .ok second ∧
      ((∃ document, ofText source settings = .ok document ∧ ofText other settings = .ok document) ∨
        (∃ error, error.category = .structural ∧ ofText source settings = .error error ∧
          ofText other settings = .error error) ∨
        ∃ error otherError, ParseError.SameFault first second error otherError ∧
          ofText source settings = .error (.parse error) ∧
          ofText other settings = .error (.parse otherError)) ∧
      ∃ answer otherAnswer memory otherMemory,
        (Parsing.text source).on (ParserMemory.ofSettings settings) = some (answer, memory) ∧
        (Parsing.text other).on (ParserMemory.ofSettings settings) =
          some (otherAnswer, otherMemory) ∧
        InstanceParser.SameAnswer first second answer otherAnswer ∧
        memory.standing = otherMemory.standing := by
  intro settings
  obtain ⟨first, loads, kinds⟩ := TokenStream.exists_loadTokens limit lexes
  obtain ⟨second, loadsOther, otherKinds⟩ := TokenStream.exists_loadTokens limit lexesOther
  obtain ⟨answers, standing⟩ :=
    (InstanceParser.ofSettings settings).parse_sameAnswer loads loadsOther
      (kinds.trans (same.trans otherKinds.symm))
  obtain ⟨_, ends⟩ := Parsing.exists_on_text (ParserMemory.ofSettings settings) source
  obtain ⟨_, endsOther⟩ := Parsing.exists_on_text (ParserMemory.ofSettings settings) other
  refine ⟨first, second, loads, loadsOther, ?_, _, _, _, _, ends, endsOther, answers, standing⟩
  unfold ofText
  generalize ((InstanceParser.ofSettings settings).parse source).1 = answer at answers
  generalize ((InstanceParser.ofSettings settings).parse other).1 = otherAnswer at answers
  cases answers with
  | fault same => exact .inr (.inr ⟨_, _, same, rfl, rfl⟩)
  | document document =>
    -- the records are checked behind the parser, in the document alone
    simp only
    cases checked : document.checkAllRecords with
    | ok _ => exact .inl ⟨document, rfl, rfl⟩
    | error error =>
      exact .inr (.inl ⟨error, document.failsOnly_checkAllRecords error checked, rfl, rfl⟩)

/-- A text with a number behind its end. -/
def plainText : String := "instance @n of \"a\tb\" [#a.b<1, -7>] \x7b\x7d 7"

/-- The same tokens, with comments and without blanks, and spelled in another way. -/
def respelledText : String :=
  "// n\ninstance@\"n\"of\"a\\tb\"[#a.b<01,-007>]\x7b// b\n\x7d 007"

theorem ofText_respelled_plainText :
    ∃ stream otherStream, TokenStream.ofText plainText = .ok stream ∧
      TokenStream.ofText respelledText = .ok otherStream ∧
      (stream.kinds.filter fun kind => !kind.isComment) =
        (otherStream.kinds.filter fun kind => !kind.isComment) ∧
      ∃ first second error otherError,
        loadTokens ⟨1, true⟩ plainText = .ok first ∧
        loadTokens ⟨1, true⟩ respelledText = .ok second ∧
        ParseError.SameFault first second error otherError ∧
        ofText plainText ⟨1, true⟩ = .error (.parse error) ∧
        ofText respelledText ⟨1, true⟩ = .error (.parse otherError) ∧
        error.message = "Expected end of input, found '7'" ∧
        otherError.message = "Expected end of input, found '007'" := by
  have kinds : (TokenStream.ofText plainText).map
        (fun stream => stream.kinds.filter fun kind => !kind.isComment) =
      (TokenStream.ofText respelledText).map
        fun stream => stream.kinds.filter fun kind => !kind.isComment := by decide +kernel
  have refused : ofText plainText ⟨1, true⟩ = .error (.parse ⟨.unexpectedToken, ⟨1, 39⟩,
      "Expected end of input, found '7'", none⟩) := by decide +kernel
  have refusedOther : ofText respelledText ⟨1, true⟩ = .error (.parse ⟨.unexpectedToken, ⟨3, 3⟩,
      "Expected end of input, found '007'", none⟩) := by decide +kernel
  have lexes : (TokenStream.ofText plainText).isOk := by decide +kernel
  cases found : TokenStream.ofText plainText with
  | error error =>
    rw [found] at lexes
    cases lexes
  | ok stream =>
    cases foundOther : TokenStream.ofText respelledText with
    | error error =>
      rw [found, foundOther] at kinds
      cases kinds
    | ok otherStream =>
      rw [found, foundOther] at kinds
      have same := Except.ok.inj kinds
      obtain ⟨first, second, loads, loadsOther, outcomes, _⟩ :=
        @ofText_respelled 1 _ _ _ _ found foundOther same
      refine ⟨stream, otherStream, rfl, rfl, same, first, second, _, _, loads, loadsOther, ?_,
        refused, refusedOther, rfl, rfl⟩
      rw [refused, refusedOther] at outcomes
      obtain ⟨_, accepted, _⟩ | ⟨_, structural, textual, _⟩ | ⟨_, _, told, here, there⟩ := outcomes
      · cases accepted
      · cases textual
        cases structural
      · cases here
        cases there
        exact told

end Instance

end StaticScheduling
