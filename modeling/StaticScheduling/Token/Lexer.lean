import StaticScheduling.Text.Cursor
import StaticScheduling.Token.Scan

/-!
# The tokens of a text

A lexer hands out the tokens of a text one by one and answers `none` at its end.
After a fault it stands where scanning stopped and can go on.  Reading a whole
text ends because every token takes at least one character.
-/

namespace StaticScheduling

/-- Reads the next token, skipping white space before it; `none` at the end of the text. -/
def Cursor.nextToken (cursor : Cursor) : Except ParseError (Option Token) × Cursor :=
  let ready := cursor.skipBlanks
  match ready.next with
  | (none, _) => (.ok none, ready)
  | (some c, behind) =>
    let scan := scanToken c behind.rest
    -- the cursor goes over what was scanned, so the lexeme is text that stood ahead of it
    let (lexeme, after) := ready.take scan.lexeme.length
    (match scan.result with
      | .ok kind => .ok (some ⟨kind, String.ofList lexeme, after.spanFrom ready.position⟩)
      | .error fault => .error (fault.toParseError ready.position after.position),
      after)

theorem Cursor.nextToken_of_blank {cursor : Cursor} (ahead : cursor.skipBlanks.rest = []) :
    cursor.nextToken = (.ok none, cursor.skipBlanks) := by
  simp only [nextToken, next_of_nil ahead]

/-- What the cursor goes over is what the scan consumed, and what it comes to is what the scan
left. -/
theorem Cursor.nextToken_of_cons {cursor : Cursor} {c : Char} {rest : List Char}
    (ahead : cursor.skipBlanks.rest = c :: rest) :
    cursor.nextToken =
      (match (scanToken c rest).result with
        | .ok kind => .ok (some ⟨kind, String.ofList (scanToken c rest).lexeme,
            ⟨cursor.skipBlanks.position,
              cursor.skipBlanks.position.advance (scanToken c rest).lexeme⟩⟩)
        | .error fault => .error (fault.toParseError cursor.skipBlanks.position
            (cursor.skipBlanks.position.advance (scanToken c rest).lexeme)),
        ⟨(scanToken c rest).rest,
          cursor.skipBlanks.position.advance (scanToken c rest).lexeme⟩) := by
  have taken := take_of_split (ahead.trans (scanToken_split c rest).symm)
  simp only [nextToken, next_of_cons ahead, taken, spanFrom]

/-- A token that was read is no longer ahead. -/
theorem Cursor.nextToken_rest_length_lt {cursor : Cursor} {token : Token}
    (read : cursor.nextToken.1 = .ok (some token)) :
    cursor.nextToken.2.rest.length < cursor.rest.length := by
  have skipped := cursor.skipBlanks_rest_length_le
  cases ahead : cursor.skipBlanks.rest with
  | nil =>
    rw [nextToken_of_blank ahead] at read
    cases read
  | cons c rest =>
    rw [nextToken_of_cons ahead] at read ⊢
    cases result : (scanToken c rest).result with
    | error fault => simp [result] at read
    | ok kind =>
      have shorter := scanToken_rest_length_lt result
      rw [ahead] at skipped
      exact Nat.lt_of_lt_of_le shorter skipped

/-- Reads every token that is left; where a fault is found, reading stops. -/
def Cursor.tokens (cursor : Cursor) : Except ParseError (List Token) × Cursor :=
  match _ : cursor.nextToken.1 with
  | .error error => (.error error, cursor.nextToken.2)
  | .ok none => (.ok [], cursor.nextToken.2)
  | .ok (some token) =>
    match cursor.nextToken.2.tokens with
    | (.ok tokens, after) => (.ok (token :: tokens), after)
    | (.error error, after) => (.error error, after)
termination_by cursor.rest.length
decreasing_by exact Cursor.nextToken_rest_length_lt ‹_›

structure Lexer where
  source : String
  cursor : Cursor
  /-- Whether the end of the text was handed out. -/
  finished : Bool
deriving DecidableEq, Repr, Inhabited

namespace Lexer

def ofText (source : String) : Lexer := ⟨source, Cursor.ofText source, false⟩

def position (lexer : Lexer) : Position := lexer.cursor.position

/-- Whether the end of the text was not handed out yet. -/
def hasMore (lexer : Lexer) : Bool := !lexer.finished

/-- Starts over from the first character. -/
def reset (lexer : Lexer) : Lexer := ofText lexer.source

/-- Hands out the next token, or `none` at the end of the text and ever after. -/
def next (lexer : Lexer) : Except ParseError (Option Token) × Lexer :=
  if lexer.finished then
    (.ok none, lexer)
  else
    match lexer.cursor.nextToken with
    | (.ok none, cursor) => (.ok none, { lexer with cursor, finished := true })
    | (result, cursor) => (result, { lexer with cursor })

/-- Hands out every token that is left. -/
def tokens (lexer : Lexer) : Except ParseError (List Token) × Lexer :=
  if lexer.finished then
    (.ok [], lexer)
  else
    match lexer.cursor.tokens with
    | (.ok tokens, cursor) => (.ok tokens, { lexer with cursor, finished := true })
    | (.error error, cursor) => (.error error, { lexer with cursor })

end Lexer

/-- The tokens of a whole text, and the position of its end. -/
structure TokenStream where
  tokens : List Token
  stop : Position
deriving DecidableEq, Repr, Inhabited

namespace TokenStream

def empty : TokenStream := ⟨[], Position.start⟩

def ofText (source : String) : Except ParseError TokenStream :=
  match (Cursor.ofText source).tokens with
  | (.ok tokens, cursor) => .ok ⟨tokens, cursor.position⟩
  | (.error error, _) => .error error

def kinds (stream : TokenStream) : List TokenKind := stream.tokens.map Token.kind

/-- Where the token with a given index starts, or where the text ends. -/
def positionAt (stream : TokenStream) (index : Nat) : Position :=
  match stream.tokens[index]? with
  | some token => token.span.start
  | none => stream.stop

end TokenStream

end StaticScheduling
