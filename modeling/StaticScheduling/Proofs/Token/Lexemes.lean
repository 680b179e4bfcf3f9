import Mathlib.Data.List.TakeWhile
import Mathlib.Tactic.SplitIfs
import StaticScheduling.Proofs.Token.Runs
import StaticScheduling.Proofs.Token.Spelling

/-! # Tokens make up their text

Reading tokens one after the other goes through a text without losing anything:
the lexemes, with the white space between them, are the text, and every token
spans the positions that are reached by stepping over what stands before its
lexeme, and over the lexeme (`Tiles`).  A lexeme alone is read as the same
token, because a scan never depends on what it leaves (`Scan.Repeats`).
-/

namespace StaticScheduling

/-! ## Lexemes alone -/

/-- A run of accepted characters is taken as a whole where nothing follows it. -/
theorem takeWhile_takeWhile_self (accept : Char → Bool) (text : List Char) :
    (text.takeWhile accept).takeWhile accept = text.takeWhile accept ∧
      (text.takeWhile accept).dropWhile accept = [] := by
  have inside : ∀ c ∈ text.takeWhile accept, accept c := fun _ => List.mem_takeWhile_imp
  have stop : ([] : List Char).head?.all fun c => !accept c := rfl
  simpa using takeWhile_append_of_stop accept inside stop

/-- Where a scan reads a token, its lexeme starts with `c`, and what it consumed behind `c` is
scanned as the same token and used up. -/
def Scan.Repeats (scan : Scan TokenKind) (c : Char) (scanBehind : List Char → Scan TokenKind) :
    Prop :=
  ∀ kind, scan.result = .ok kind →
    ∃ taken, scan.lexeme = c :: taken ∧ scanBehind taken = ⟨.ok kind, c :: taken, []⟩

theorem scanQuoted_lexeme {text value : List Char} (read : (scanQuoted text).result = .ok value) :
    scanQuoted (scanQuoted text).lexeme = ⟨.ok value, (scanQuoted text).lexeme, []⟩ := by
  fun_induction scanQuoted text generalizing value with
  | case1 => cases read
  | case2 rest =>
    cases read
    rfl
  | case3 => cases read
  | case4 c rest unknown => cases read
  | case5 c rest meant known inductionHypothesis =>
    obtain ⟨others, readOthers, rfl⟩ := Scan.result_map_eq_ok_iff.mp read
    simp only [Scan.lexeme_after, Scan.lexeme_map, List.cons_append, List.nil_append, scanQuoted,
      known, inductionHypothesis readOthers]
    rfl
  | case6 c rest notQuote notLast notEscape inductionHypothesis =>
    obtain ⟨others, readOthers, rfl⟩ := Scan.result_map_eq_ok_iff.mp read
    have notBackslash : c ≠ '\\' := by
      rintro rfl
      cases rest with
      | nil => exact notLast rfl rfl
      | cons d rest => exact notEscape d rest rfl rfl
    simp only [Scan.lexeme_after, Scan.lexeme_map, List.cons_append, List.nil_append,
      scanQuoted_cons notQuote notBackslash, inductionHypothesis readOthers]
    rfl

/-- Quoted text that is read as a token is read again from its lexeme, whatever opens it. -/
theorem scanQuoted_lexeme_after {text : List Char} {kindOf : List Char → TokenKind}
    {kind : TokenKind} (opening : List Char)
    (read : (((scanQuoted text).map kindOf).after opening).result = .ok kind) :
    ((scanQuoted (scanQuoted text).lexeme).map kindOf).after opening =
      ⟨.ok kind, opening ++ (scanQuoted text).lexeme, []⟩ := by
  obtain ⟨value, readText, rfl⟩ := Scan.result_map_eq_ok_iff.mp read
  rw [scanQuoted_lexeme readText]
  rfl

theorem repeats_scanComment (text : List Char) :
    (scanComment text).Repeats '/' scanComment := by
  intro kind read
  unfold scanComment at read
  split at read
  · rename_i rest
    cases read
    obtain ⟨again, nothing⟩ := takeWhile_takeWhile_self (fun c => decide (c ≠ '\n')) rest
    exact ⟨'/' :: rest.takeWhile (· ≠ '\n'), rfl, by rw [scanComment, again, nothing]⟩
  · cases read
  · cases read

theorem repeats_scanSymbol (text : List Char) : (scanSymbol text).Repeats '@' scanSymbol := by
  intro kind read
  unfold scanSymbol at read
  split at read
  · rename_i rest
    exact ⟨'"' :: (scanQuoted rest).lexeme, rfl, scanQuoted_lexeme_after ['@', '"'] read⟩
  · rename_i c rest notQuote
    split at read
    · rename_i starts
      cases read
      have continues := isIdentifierContinue_of_isIdentifierStart starts
      obtain ⟨again, nothing⟩ := takeWhile_takeWhile_self isIdentifierContinue (c :: rest)
      refine ⟨(c :: rest).takeWhile isIdentifierContinue, by simp [scanSymbol, starts], ?_⟩
      rw [List.takeWhile_cons_of_pos continues] at again nothing ⊢
      simp only [scanSymbol, starts, if_true, again, nothing]
    · cases read
  · cases read

theorem repeats_scanValue (text : List Char) : (scanValue text).Repeats '%' scanValue := by
  intro kind read
  obtain ⟨again, nothing⟩ := takeWhile_takeWhile_self isIdentifierContinue text
  refine ⟨text.takeWhile isIdentifierContinue, rfl, ?_⟩
  simp only [scanValue] at read ⊢
  rw [again, nothing, read]

theorem repeats_scanAttribute (text : List Char) :
    (scanAttribute text).Repeats '#' scanAttribute := by
  intro kind read
  obtain ⟨again, nothing⟩ := takeWhile_takeWhile_self isIdentifierContinue text
  unfold scanAttribute at read
  split at read
  · rename_i starts
    have startsToo : (text.takeWhile isIdentifierContinue).head?.any isIdentifierStart := by
      cases text with
      | nil => cases starts
      | cons c rest =>
        rw [List.takeWhile_cons_of_pos (isIdentifierContinue_of_isIdentifierStart starts)]
        exact starts
    refine ⟨text.takeWhile isIdentifierContinue, ?_, ?_⟩
    · rw [scanAttribute, if_pos starts]
    · have answer : attributeOfName (text.takeWhile isIdentifierContinue) = .ok kind := read
      rw [scanAttribute, if_pos startsToo, again, nothing, answer]
  · cases read

theorem repeats_scanInteger (text : List Char) :
    (scanInteger ['-'] text).Repeats '-' (scanInteger ['-']) := by
  intro kind read
  obtain ⟨again, nothing⟩ := takeWhile_takeWhile_self Char.isDigit text
  refine ⟨text.takeWhile Char.isDigit, rfl, ?_⟩
  simp only [scanInteger] at read ⊢
  rw [again, nothing, read]
  rfl

-- without a sign, the first character is taken with those behind it
theorem repeats_scanInteger_cons {c : Char} (digit : c.isDigit) (text : List Char) :
    (scanInteger [] (c :: text)).Repeats c fun behind => scanInteger [] (c :: behind) := by
  intro kind read
  obtain ⟨again, nothing⟩ := takeWhile_takeWhile_self Char.isDigit (c :: text)
  rw [List.takeWhile_cons_of_pos digit] at again nothing
  simp only [scanInteger, List.takeWhile_cons_of_pos digit] at read
  refine ⟨text.takeWhile Char.isDigit, ?_, ?_⟩
  · rw [scanInteger, List.takeWhile_cons_of_pos digit]
    rfl
  · simp only [scanInteger]
    rw [again, nothing, read]
    rfl

theorem repeats_scanWord {c : Char} (starts : isIdentifierStart c) (text : List Char) :
    (scanWord (c :: text)).Repeats c fun behind => scanWord (c :: behind) := by
  intro kind read
  have continues := isIdentifierContinue_of_isIdentifierStart starts
  obtain ⟨again, nothing⟩ := takeWhile_takeWhile_self isIdentifierContinue (c :: text)
  rw [List.takeWhile_cons_of_pos continues] at again nothing
  simp only [scanWord, List.takeWhile_cons_of_pos continues] at read
  refine ⟨text.takeWhile isIdentifierContinue, ?_, ?_⟩
  · rw [scanWord, List.takeWhile_cons_of_pos continues]
  · simp only [scanWord]
    rw [again, nothing, read]

theorem repeats_scanToken (c : Char) (text : List Char) :
    (scanToken c text).Repeats c (scanToken c) := by
  unfold scanToken
  cases Delimiter.ofChar? c with
  | some mark =>
    intro kind read
    cases read
    exact ⟨[], rfl, rfl⟩
  | none =>
    dsimp only
    split_ifs with slash quoted symbol value hash minus digit starts
    · exact slash ▸ repeats_scanComment text
    · intro kind read
      subst quoted
      exact ⟨(scanQuoted text).lexeme, rfl, scanQuoted_lexeme_after ['"'] read⟩
    · exact symbol ▸ repeats_scanSymbol text
    · exact value ▸ repeats_scanValue text
    · exact hash ▸ repeats_scanAttribute text
    · exact minus ▸ repeats_scanInteger text
    · exact repeats_scanInteger_cons digit text
    · exact repeats_scanWord starts text
    · intro kind read
      cases read

/-! ## Where tokens stand -/

/-- A text that stands behind what was read before, cut into tokens.  There is white space before
each of them and at the end, perhaps none; every token has at least one character, and spans the
positions before and behind its lexeme. -/
inductive Tiles : (read text : List Char) → List Token → Prop
  | trailing {read blank : List Char} : (∀ c ∈ blank, isBlank c) → Tiles read blank []
  | token {read blank rest : List Char} {token : Token} {tokens : List Token} :
    (∀ c ∈ blank, isBlank c) → token.lexeme ≠ "" →
    token.span = ⟨Position.start.advance (read ++ blank),
      Position.start.advance (read ++ blank ++ token.lexeme.toList)⟩ →
    Tiles (read ++ blank ++ token.lexeme.toList) rest tokens →
    Tiles read (blank ++ token.lexeme.toList ++ rest) (token :: tokens)

/-- A token like this one, read from the same characters, at the start of a text. -/
def Token.alone (token : Token) : Token :=
  { token with span := ⟨Position.start, Position.start.advance token.lexeme.toList⟩ }

namespace Cursor

/-- What one call takes from the text: white space, and the lexeme of the token. -/
theorem lexeme_of_nextToken {cursor : Cursor} {token : Token}
    (next : cursor.nextToken.1 = .ok (some token)) {read : List Char}
    (position : cursor.position = Position.start.advance read) :
    ∃ blank, (∀ c ∈ blank, isBlank c) ∧ token.lexeme ≠ "" ∧
      cursor.rest = blank ++ token.lexeme.toList ++ cursor.nextToken.2.rest ∧
      token.span = ⟨Position.start.advance (read ++ blank),
        Position.start.advance (read ++ blank ++ token.lexeme.toList)⟩ ∧
      cursor.nextToken.2.position = token.span.stop := by
  obtain ⟨blank, blanks, text, behind⟩ := cursor.skipBlanks_split
  obtain ⟨c, rest, lexeme, left, ahead, scanned, shape, after⟩ := scan_of_nextToken next
  have whole := scanToken_split c rest
  have nonempty := scanToken_lexeme_ne_nil (congrArg Scan.result scanned)
  rw [scanned] at whole nonempty
  rw [after, shape, String.toList_ofList]
  refine ⟨blank, blanks, by simpa using nonempty, ?_, ?_, rfl⟩
  · rw [text, ahead, List.append_assoc, whole]
  · rw [behind, position, Position.advance_append _ (read ++ blank), Position.advance_append]

/-- The lexeme of a token is read alone as the same token. -/
theorem alone_of_nextToken {cursor : Cursor} {token : Token}
    (next : cursor.nextToken.1 = .ok (some token)) :
    (Lexer.ofText token.lexeme).tokens.1 = .ok [token.alone] := by
  obtain ⟨c, rest, lexeme, left, ahead, scanned, shape, _⟩ := scan_of_nextToken next
  obtain ⟨taken, starts, again⟩ :=
    repeats_scanToken c rest token.kind (congrArg Scan.result scanned)
  rw [scanned] at starts
  change lexeme = c :: taken at starts
  subst starts
  have visible := not_isBlank_of_skipBlanks ahead
  have characters : token.lexeme.toList = c :: taken := by rw [shape, String.toList_ofList]
  have ready : (Cursor.ofText token.lexeme).skipBlanks = ⟨c :: taken, Position.start⟩ := by
    simp [ofText, skipBlanks_eq, characters, visible]
  have first := nextToken_of_scan (congrArg Cursor.rest ready) again
  -- one call takes all of it, so the next call finds the end
  have run : (Cursor.ofText token.lexeme).Run [_] (.ok ()) _ :=
    .token (congrArg Prod.fst first) (.done (by rw [first]; rfl))
  rw [Lexer.tokens_of_run run, ready, Token.alone, characters, shape]
  rfl

/-- A fault is reported at a position that is reached by stepping over some of the text. -/
theorem position_of_nextToken {cursor : Cursor} {error : ParseError}
    (read : cursor.nextToken.1 = .error error) :
    ∃ passed, passed <+: cursor.rest ∧ error.position = cursor.position.advance passed := by
  obtain ⟨blank, _, text, position⟩ := cursor.skipBlanks_split
  obtain ⟨fault, lexeme, left, ahead, rfl⟩ := fault_of_nextToken read
  rw [text, ahead, position]
  -- an unknown escape is reported behind what was scanned, anything else before it
  cases fault with
  | unknownEscape c =>
    refine ⟨blank ++ lexeme, ⟨left, List.append_assoc _ _ _⟩, ?_⟩
    exact (Position.advance_append _ _ _).symm
  | _ => exact ⟨blank, List.prefix_append _ _, rfl⟩

namespace Run

variable {cursor after : Cursor} {tokens : List Token}

theorem tiles (run : cursor.Run tokens (.ok ()) after) {read : List Char}
    (position : cursor.position = Position.start.advance read) :
    Tiles read cursor.rest tokens ∧
      after.position = Position.start.advance (read ++ cursor.rest) := by
  generalize finished : (.ok () : Except ParseError Unit) = ending at run
  induction run generalizing read with
  | @done cursor next =>
    obtain ⟨blank, blanks, text, stop⟩ := cursor.skipBlanks_split
    have ahead := blank_of_nextToken next
    rw [ahead, List.append_nil] at text
    rw [nextToken_of_blank ahead, stop, text, position, ← Position.advance_append]
    exact ⟨.trailing blanks, rfl⟩
  | fault next => cases finished
  | @token cursor after token tokens ending next _ inductionHypothesis =>
    obtain ⟨blank, blanks, nonempty, text, span, stop⟩ := lexeme_of_nextToken next position
    rw [span] at stop
    obtain ⟨tiles, final⟩ := inductionHypothesis stop finished
    rw [text]
    refine ⟨.token blanks nonempty span tiles, ?_⟩
    rw [final]
    simp only [List.append_assoc]

theorem position_of_error {error : ParseError} (run : cursor.Run tokens (.error error) after)
    {read : List Char} (position : cursor.position = Position.start.advance read) :
    ∃ passed, passed <+: cursor.rest ∧
      error.position = Position.start.advance (read ++ passed) := by
  generalize failed : (.error error : Except ParseError Unit) = ending at run
  induction run generalizing read with
  | done next => cases failed
  | @fault cursor error next =>
    cases failed
    obtain ⟨passed, ahead, reported⟩ := position_of_nextToken next
    exact ⟨passed, ahead, by rw [reported, position, Position.advance_append]⟩
  | @token cursor after token tokens ending next _ inductionHypothesis =>
    obtain ⟨blank, _, _, text, span, stop⟩ := lexeme_of_nextToken next position
    rw [span] at stop
    obtain ⟨passed, ahead, reported⟩ := inductionHypothesis stop failed
    rw [text]
    refine ⟨blank ++ token.lexeme.toList ++ passed, (List.prefix_append_right_inj _).mpr ahead, ?_⟩
    rw [reported]
    simp only [List.append_assoc]

end Run

end Cursor

/-! ## The calls of a lexer -/

namespace Lexer

/-- What a lexer answers to a number of calls, one after the other. -/
def answers (lexer : Lexer) : (calls : Nat) → List (Except ParseError (Option Token))
  | 0 => []
  | calls + 1 => lexer.next.1 :: lexer.next.2.answers calls

/-- A lexer hands out some tokens, one to a call, and then gives the last answer, all of it within a
number of calls. -/
def HandsOutWithin (lexer : Lexer) (calls : Nat) (tokens : List Token)
    (last : Except ParseError (Option Token)) : Prop :=
  tokens.length + 1 ≤ calls ∧
    lexer.answers (tokens.length + 1) = tokens.map (fun token => .ok (some token)) ++ [last]

/-- Until the end was handed out, a call of a lexer is one of its cursor. -/
theorem next_of_unfinished (source : String) (cursor : Cursor) :
    (Lexer.mk source cursor false).next =
      (cursor.nextToken.1, ⟨source, cursor.nextToken.2, cursor.nextToken.1 matches .ok none⟩) := by
  unfold Lexer.next
  obtain ⟨answer, left⟩ := cursor.nextToken
  rcases answer with _ | _ | _ <;> rfl

theorem answers_of_run {source : String} {cursor after : Cursor} {tokens : List Token}
    {ending : Except ParseError Unit} (run : cursor.Run tokens ending after) :
    (Lexer.mk source cursor false).answers (tokens.length + 1) =
      tokens.map (fun token => .ok (some token)) ++ [ending.map fun _ => none] := by
  induction run with
  | done next => simp [answers, next_of_unfinished, next, Except.map]
  | fault next => simp [answers, next_of_unfinished, next, Except.map]
  | token next _ inductionHypothesis =>
    rw [List.length_cons, answers, next_of_unfinished, next, inductionHypothesis]
    rfl

theorem handsOutWithin_of_run {source : String} {after : Cursor} {tokens : List Token}
    {ending : Except ParseError Unit} (run : (Cursor.ofText source).Run tokens ending after) :
    (Lexer.ofText source).HandsOutWithin (source.length + 1) tokens (ending.map fun _ => none) := by
  have few : tokens.length ≤ source.toList.length := run.length_le
  rw [String.length_toList] at few
  exact ⟨Nat.succ_le_succ few, answers_of_run run⟩

end Lexer

/-! ## Whole texts -/

/-- Tokens account for a text, up to the position where they stop: they make up the text, that
position is its end, and every lexeme is read alone as the same token. -/
structure TokenStream.AccountsFor (stream : TokenStream) (source : String) : Prop where
  tiles : Tiles [] source.toList stream.tokens
  stop : stream.stop = Position.start.advance source.toList
  alone : ∀ token ∈ stream.tokens, (Lexer.ofText token.lexeme).tokens.1 = .ok [token.alone]

/-- Reading a text loses nothing of it, and all positions are exact, whether it is read to its end
or to a fault.  There are no more calls than characters, but for the one that finds the end. -/
theorem Lexer.tokens_ofText_account (source : String) :
    match (Lexer.ofText source).tokens with
    | (.ok tokens, after) =>
      TokenStream.AccountsFor ⟨tokens, after.position⟩ source ∧
        (Lexer.ofText source).HandsOutWithin (source.length + 1) tokens (.ok none)
    | (.error error, _) =>
      (∃ passed, passed <+: source.toList ∧ error.position = Position.start.advance passed) ∧
        ∃ tokens, (Lexer.ofText source).HandsOutWithin (source.length + 1) tokens (.error error) := by
  obtain ⟨tokens, ending, after, run⟩ := (Cursor.ofText source).exists_run
  have calls := handsOutWithin_of_run run
  rw [tokens_of_run run]
  have start : (Cursor.ofText source).position = Position.start.advance [] := rfl
  cases ending with
  | ok _ =>
    obtain ⟨tiles, stop⟩ := run.tiles start
    exact ⟨⟨tiles, stop, run.forall_mem Cursor.alone_of_nextToken⟩, calls⟩
  | error error =>
    exact ⟨run.position_of_error start, tokens, calls⟩

/-- Quoted text may go on in the next line, and positions are counted on from there.  An unknown
escape in it is found when the tokens in front of it were handed out, and is reported behind it. -/
theorem Lexer.tokens_ofText_account_quoted :
    let tokens : List Token :=
      [⟨.identifier "a", "a", ⟨⟨1, 1⟩, ⟨1, 2⟩⟩⟩, ⟨.string "b\nc", "\"b\nc\"", ⟨⟨2, 2⟩, ⟨3, 3⟩⟩⟩,
        ⟨.value "0", "%0", ⟨⟨3, 3⟩, ⟨3, 5⟩⟩⟩]
    let unknown : ParseError := ⟨.invalidEscape, ⟨2, 6⟩, "Invalid escape sequence: \\q", none⟩
    ((Lexer.ofText "a\n \"b\nc\"%0").tokens.1 = .ok tokens ∧
      TokenStream.AccountsFor ⟨tokens, ⟨3, 5⟩⟩ "a\n \"b\nc\"%0" ∧
      (Lexer.ofText "a\n \"b\nc\"%0").HandsOutWithin 11 tokens (.ok none)) ∧
    ((Lexer.ofText "@a %b\n \"c\\qd\"").tokens.1 = .error unknown ∧
      (∃ passed, passed <+: "@a %b\n \"c\\qd\"".toList ∧
        ⟨2, 6⟩ = Position.start.advance passed) ∧
      ∃ tokens, (Lexer.ofText "@a %b\n \"c\\qd\"").HandsOutWithin 14 tokens (.error unknown)) := by
  intro tokens unknown
  constructor
  · have lexed : (Lexer.ofText "a\n \"b\nc\"%0").tokens =
        (.ok tokens, ⟨"a\n \"b\nc\"%0", ⟨[], ⟨3, 5⟩⟩, true⟩) := by decide +kernel
    have account := tokens_ofText_account "a\n \"b\nc\"%0"
    rw [lexed] at account
    exact ⟨congrArg Prod.fst lexed, account⟩
  · have stopped : (Lexer.ofText "@a %b\n \"c\\qd\"").tokens =
        (.error unknown, ⟨"@a %b\n \"c\\qd\"", ⟨['d', '"'], ⟨2, 6⟩⟩, false⟩) := by decide +kernel
    have account := tokens_ofText_account "@a %b\n \"c\\qd\""
    rw [stopped] at account
    exact ⟨congrArg Prod.fst stopped, account⟩

end StaticScheduling
