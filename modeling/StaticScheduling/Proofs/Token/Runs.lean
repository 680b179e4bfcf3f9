import StaticScheduling.Token.Lexer

/-! # Runs of the lexer

What one call of the lexer does is said once, for each way it can go:
`scan_of_nextToken`, `blank_of_nextToken` and `fault_of_nextToken` invert a call,
`nextToken_of_scan` is the way forward.  `Cursor.Run` is a run of the lexer, call
by call, which ends at the end of the text or at a fault.  There is a run from
every cursor, and it is what `Cursor.tokens` computes, so facts about all tokens
of a text are by induction on runs.
-/

namespace StaticScheduling

namespace Cursor

/-! ## One call -/

theorem skipBlanks_split (cursor : Cursor) :
    ∃ blank, (∀ c ∈ blank, isBlank c) ∧ cursor.rest = blank ++ cursor.skipBlanks.rest ∧
      cursor.skipBlanks.position = cursor.position.advance blank := by
  refine ⟨cursor.rest.takeWhile isBlank, List.all_eq_true.mp List.all_takeWhile, ?_, ?_⟩
  · rw [skipBlanks_eq, List.takeWhile_append_dropWhile]
  · rw [skipBlanks_eq]

/-- No white space is left to skip. -/
theorem not_isBlank_of_skipBlanks {cursor : Cursor} {c : Char} {rest : List Char}
    (ahead : cursor.skipBlanks.rest = c :: rest) : isBlank c = false := by
  have stop := List.head?_dropWhile_not isBlank cursor.rest
  simp only [skipBlanks_eq] at ahead
  rw [ahead] at stop
  exact stop

theorem nextToken_of_scan {cursor : Cursor} {c : Char} {rest lexeme left : List Char}
    {kind : TokenKind} (ahead : cursor.skipBlanks.rest = c :: rest)
    (scanned : scanToken c rest = ⟨.ok kind, lexeme, left⟩) :
    cursor.nextToken =
      (.ok (some ⟨kind, String.ofList lexeme, ⟨cursor.skipBlanks.position,
        cursor.skipBlanks.position.advance lexeme⟩⟩),
        ⟨left, cursor.skipBlanks.position.advance lexeme⟩) := by
  rw [nextToken_of_cons ahead, scanned]

/-- A token was scanned behind the white space. -/
theorem scan_of_nextToken {cursor : Cursor} {token : Token}
    (read : cursor.nextToken.1 = .ok (some token)) :
    ∃ c rest lexeme left, cursor.skipBlanks.rest = c :: rest ∧
      scanToken c rest = ⟨.ok token.kind, lexeme, left⟩ ∧
      token = ⟨token.kind, String.ofList lexeme, ⟨cursor.skipBlanks.position,
        cursor.skipBlanks.position.advance lexeme⟩⟩ ∧
      cursor.nextToken.2 = ⟨left, token.span.stop⟩ := by
  cases ahead : cursor.skipBlanks.rest with
  | nil =>
    rw [nextToken_of_blank ahead] at read
    cases read
  | cons c rest =>
    rw [nextToken_of_cons ahead] at read ⊢
    cases scanned : scanToken c rest with
    | mk result lexeme left =>
      simp only [scanned] at read
      cases result with
      | error fault => cases read
      | ok kind =>
        cases read
        exact ⟨c, rest, lexeme, left, rfl, scanned, rfl, rfl⟩

/-- Where no token is left there is nothing but white space. -/
theorem blank_of_nextToken {cursor : Cursor} (read : cursor.nextToken.1 = .ok none) :
    cursor.skipBlanks.rest = [] := by
  cases ahead : cursor.skipBlanks.rest with
  | nil => rfl
  | cons c rest =>
    rw [nextToken_of_cons ahead] at read
    cases result : (scanToken c rest).result <;> simp [result] at read

/-- A fault was found behind the white space, by a scan that consumed some of the text. -/
theorem fault_of_nextToken {cursor : Cursor} {error : ParseError}
    (read : cursor.nextToken.1 = .error error) :
    ∃ fault lexeme left, cursor.skipBlanks.rest = lexeme ++ left ∧
      error = LexicalFault.toParseError fault cursor.skipBlanks.position
        (cursor.skipBlanks.position.advance lexeme) := by
  cases ahead : cursor.skipBlanks.rest with
  | nil =>
    rw [nextToken_of_blank ahead] at read
    cases read
  | cons c rest =>
    rw [nextToken_of_cons ahead] at read
    cases result : (scanToken c rest).result with
    | ok kind => simp [result] at read
    | error fault =>
      simp only [result, Except.error.injEq] at read
      exact ⟨fault, _, _, (scanToken_split c rest).symm, read.symm⟩

/-! ## Calls one after the other -/

/-- The tokens that are handed out one after the other from a cursor on, how this ends (there are no
more, or there is a fault), and where the cursor is left. -/
inductive Run : Cursor → List Token → Except ParseError Unit → Cursor → Prop
  | done {cursor : Cursor} : cursor.nextToken.1 = .ok none →
    Run cursor [] (.ok ()) cursor.nextToken.2
  | fault {cursor : Cursor} {error : ParseError} : cursor.nextToken.1 = .error error →
    Run cursor [] (.error error) cursor.nextToken.2
  | token {cursor after : Cursor} {token : Token} {tokens : List Token}
    {ending : Except ParseError Unit} : cursor.nextToken.1 = .ok (some token) →
    Run cursor.nextToken.2 tokens ending after → Run cursor (token :: tokens) ending after

theorem tokens_eq (cursor : Cursor) :
    cursor.tokens =
      match cursor.nextToken.1 with
      | .error error => (.error error, cursor.nextToken.2)
      | .ok none => (.ok [], cursor.nextToken.2)
      | .ok (some token) =>
        (cursor.nextToken.2.tokens.1.map (token :: ·), cursor.nextToken.2.tokens.2) := by
  rw [tokens]
  split <;> rename_i next <;> simp only [next]
  split <;> rename_i others <;> rw [others] <;> rfl

theorem Run.tokens_eq {cursor after : Cursor} {tokens : List Token} {ending : Except ParseError Unit}
    (run : cursor.Run tokens ending after) :
    cursor.tokens = (ending.map fun _ => tokens, after) := by
  induction run with
  | done next => rw [Cursor.tokens_eq, next]; rfl
  | fault next => rw [Cursor.tokens_eq, next]; rfl
  | @token _ _ _ _ ending next _ inductionHypothesis =>
    rw [Cursor.tokens_eq, next, inductionHypothesis]
    cases ending <;> rfl

/-- Reading tokens comes to an end from every cursor. -/
theorem exists_run (cursor : Cursor) : ∃ tokens ending after, cursor.Run tokens ending after := by
  cases next : cursor.nextToken.1 with
  | error error => exact ⟨_, _, _, .fault next⟩
  | ok answer =>
    cases answer with
    | none => exact ⟨_, _, _, .done next⟩
    | some token =>
      obtain ⟨tokens, ending, after, run⟩ := exists_run cursor.nextToken.2
      exact ⟨_, _, _, .token next run⟩
termination_by cursor.rest.length
decreasing_by exact nextToken_rest_length_lt next

/-- What holds of the token of every call holds of all tokens of a run. -/
theorem Run.forall_mem {holds : Token → Prop}
    (each : ∀ {cursor : Cursor} {token : Token},
      cursor.nextToken.1 = .ok (some token) → holds token)
    {cursor after : Cursor} {tokens : List Token} {ending : Except ParseError Unit}
    (run : cursor.Run tokens ending after) : ∀ token ∈ tokens, holds token := by
  induction run with
  | done next => nofun
  | fault next => nofun
  | token next _ inductionHypothesis =>
    exact List.forall_mem_cons.mpr ⟨each next, inductionHypothesis⟩

/-- A run takes at least one character for every token. -/
theorem Run.length_le {cursor after : Cursor} {tokens : List Token}
    {ending : Except ParseError Unit} (run : cursor.Run tokens ending after) :
    tokens.length ≤ cursor.rest.length := by
  induction run with
  | done next => exact Nat.zero_le _
  | fault next => exact Nat.zero_le _
  | token next _ inductionHypothesis =>
    have shorter := nextToken_rest_length_lt next
    rw [List.length_cons]
    omega

end Cursor

/-! ## Whole texts -/

theorem Lexer.tokens_of_run {source : String} {tokens : List Token} {ending : Except ParseError Unit}
    {after : Cursor} (run : (Cursor.ofText source).Run tokens ending after) :
    (Lexer.ofText source).tokens = (ending.map fun _ => tokens, ⟨source, after, ending.isOk⟩) := by
  have unread : (Lexer.ofText source).finished = false := rfl
  unfold Lexer.tokens
  rw [if_neg (by simp [unread]), Lexer.ofText, run.tokens_eq]
  cases ending <;> rfl

namespace TokenStream

theorem ofText_of_run {source : String} {tokens : List Token} {ending : Except ParseError Unit}
    {after : Cursor} (run : (Cursor.ofText source).Run tokens ending after) :
    TokenStream.ofText source = ending.map fun _ => ⟨tokens, after.position⟩ := by
  unfold TokenStream.ofText
  rw [run.tokens_eq]
  cases ending <;> rfl

/-- The tokens of a text are those of a run from its start. -/
theorem run_of_ofText {source : String} {stream : TokenStream}
    (lexes : TokenStream.ofText source = .ok stream) :
    ∃ after, (Cursor.ofText source).Run stream.tokens (.ok ()) after := by
  obtain ⟨tokens, ending, after, run⟩ := Cursor.exists_run (Cursor.ofText source)
  rw [ofText_of_run run] at lexes
  cases ending with
  | error error => cases lexes
  | ok _ =>
    cases lexes
    exact ⟨after, run⟩

end TokenStream

end StaticScheduling
