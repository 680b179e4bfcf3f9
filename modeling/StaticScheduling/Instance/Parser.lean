import StaticScheduling.Instance.Grammar
import StaticScheduling.Token.Lexer

/-!
# Documents from text

The text is cut into tokens, comments are dropped or refused, and the grammar is
run on the kinds.  The kinds that a failure left tell which token it is about.
-/

namespace StaticScheduling

structure ParserSettings where
  /-- How deep properties may nest. -/
  nestingLimit : Nat
  /-- Whether comments may stand between tokens. -/
  allowComments : Bool
deriving DecidableEq, Repr

/-- Comments are allowed and properties nest up to the usual limit. -/
def ParserSettings.default : ParserSettings := ⟨Nesting.defaultLimit, true⟩

instance : Inhabited ParserSettings := ⟨ParserSettings.default⟩

namespace TokenStream

/-- The stream without its comments; where comments are refused, the first of them is a fault. -/
def withoutComments (stream : TokenStream) (allowComments : Bool) :
    Except ParseError TokenStream :=
  match stream.tokens.find? fun token => token.kind.isComment && !allowComments with
  | some comment =>
    .error ⟨.commentNotAllowed, comment.span.start, "Comments are disabled for this parser", none⟩
  | none => .ok { stream with tokens := stream.tokens.filter fun token => !token.kind.isComment }

end TokenStream

namespace SyntaxFailure

/-- The number of the token a parser stands before when it fails. -/
def standing (failure : SyntaxFailure) (stream : TokenStream) : Nat :=
  stream.tokens.length - failure.rest.length

/-- The number of the token that a failure is about.  Too deep nesting is found behind the name. -/
def offender (failure : SyntaxFailure) (stream : TokenStream) : Nat :=
  match failure.fault with
  -- the name stands right before the place where the failure was found
  | .nestingTooDeep _ => failure.standing stream - 1
  | _ => failure.standing stream

/-- A failure as a fault in the text. -/
def toParseError (failure : SyntaxFailure) (stream : TokenStream) : ParseError :=
  let position := stream.positionAt (failure.offender stream)
  match failure.fault with
  | .unexpected expected =>
    match stream.tokens[failure.offender stream]? with
    | some token =>
      ⟨.unexpectedToken, position, "Expected " ++ expected.text ++ ", found '" ++ token.lexeme ++ "'",
        none⟩
    | none =>
      ⟨.unexpectedEnd, position, "Expected " ++ expected.text ++ " before " ++ endOfInputText, none⟩
  | .misplacedOperatorType =>
    ⟨.misplacedDeclaration, position, "operator_type after the first operation",
      some "declare operator types before operations"⟩
  | .nestingTooDeep limit => ⟨.nestingTooDeep, position, Nesting.tooDeepMessage limit, none⟩

end SyntaxFailure

/-- The tokens of a text that the grammar looks at. -/
def loadTokens (settings : ParserSettings) (source : String) : Except ParseError TokenStream := do
  let stream ← TokenStream.ofText source
  stream.withoutComments settings.allowComments

/-- A parser of documents.  Between two texts it keeps the tokens of the last one that it could cut
into tokens, and the number of the token it stands before. -/
structure InstanceParser where
  settings : ParserSettings
  stream : TokenStream
  standing : Nat
deriving DecidableEq, Repr, Inhabited

namespace InstanceParser

def ofSettings (settings : ParserSettings) : InstanceParser := ⟨settings, TokenStream.empty, 0⟩

def name : String := "instance"

/-- Where the token stands that the parser stands before. -/
def position (parser : InstanceParser) : Position := parser.stream.positionAt parser.standing

def parse (parser : InstanceParser) (source : String) :
    Except ParseError Instance × InstanceParser :=
  match loadTokens parser.settings source with
  -- a text that cannot be cut into tokens leaves the parser as it was
  | .error error => (.error error, parser)
  | .ok stream =>
    match Instance.read parser.settings.nestingLimit stream.kinds with
    | .ok document => (.ok document, { parser with stream, standing := stream.tokens.length })
    | .error failure =>
      (.error (failure.toParseError stream),
        { parser with stream, standing := failure.standing stream })

end InstanceParser

end StaticScheduling
