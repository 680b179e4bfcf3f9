import Mathlib.Data.List.Chain
import StaticScheduling.Instance.Layout
import StaticScheduling.Proofs.Token.Runs
import StaticScheduling.Proofs.Token.Spelling

/-! # Layouts are read back token by token

A layout is a sequence of tokens with white space before each.  Its text gives
back exactly these tokens if every one of them ends before the text behind it
(`Layout.Legible`).  `Layout.Separated` is the local form of this condition: of
two neighbours one is punctuation, or there is white space between them, and a
comment ends with its line.  `Layout.Spaced` says so piece by piece for layouts
that have no comments.
-/

namespace StaticScheduling

namespace Cursor

theorem nextToken_of_readsBack {cursor : Cursor} {kind : TokenKind} {blank rest : List Char}
    (ahead : cursor.rest = blank ++ (kind.spelling.toList ++ rest))
    (blanks : ∀ c ∈ blank, isBlank c) (reads : kind.ReadsBack rest) :
    ∃ token, cursor.nextToken.1 = .ok (some token) ∧ token.kind = kind ∧
      cursor.nextToken.2.rest = rest := by
  obtain ⟨c, text, shape, visible, scanned⟩ := reads
  -- the blanks are skipped, and no more, as no spelling starts with one
  have skipped : cursor.skipBlanks.rest = c :: (text ++ rest) := by
    simp only [skipBlanks_eq, ahead, shape, List.cons_append]
    exact (takeWhile_append_of_stop isBlank blanks (by simp [visible])).2
  have next := nextToken_of_scan skipped scanned
  exact ⟨_, congrArg Prod.fst next, rfl, by rw [next]⟩

theorem skipBlanks_of_blank {cursor : Cursor} (blanks : ∀ c ∈ cursor.rest, isBlank c) :
    cursor.skipBlanks.rest = [] := by
  have stop : ([] : List Char).head?.all fun c => !isBlank c := rfl
  simpa [skipBlanks_eq] using (takeWhile_append_of_stop isBlank blanks stop).2

end Cursor

namespace Layout

theorem toList_text_cons (piece : Piece) (pieces : List Piece) :
    (Layout.text (piece :: pieces)).toList =
      piece.blank.toList ++ (piece.kind.spelling.toList ++ (Layout.text pieces).toList) := by
  simp [Layout.text, Piece.text]

/-- White space stands where it should, every token has a spelling of its own, and ends before the
text behind it. -/
def Legible : List Piece → (trailing : List Char) → Prop
  | [], trailing => ∀ c ∈ trailing, isBlank c
  | piece :: pieces, trailing =>
    (∀ c ∈ piece.blank.toList, isBlank c) ∧ piece.kind.Writable ∧
      piece.kind.EndsBefore ((Layout.text pieces).toList ++ trailing) ∧ Legible pieces trailing

theorem run_of_legible {pieces : List Piece} {trailing : List Char}
    (legible : Legible pieces trailing) (cursor : Cursor)
    (ahead : cursor.rest = (Layout.text pieces).toList ++ trailing) :
    ∃ tokens after, cursor.Run tokens (.ok ()) after ∧
      tokens.map Token.kind = pieces.map Piece.kind := by
  -- piece by piece, from wherever the cursor is
  induction pieces generalizing cursor with
  | nil =>
    have blanks : ∀ c ∈ cursor.rest, isBlank c := by
      rw [ahead]
      exact legible
    have next := Cursor.nextToken_of_blank (Cursor.skipBlanks_of_blank blanks)
    exact ⟨[], _, .done (congrArg Prod.fst next), rfl⟩
  | cons piece pieces inductionHypothesis =>
    obtain ⟨blanks, writable, ends, legible⟩ := legible
    rw [toList_text_cons, List.append_assoc, List.append_assoc] at ahead
    obtain ⟨token, read, same, left⟩ :=
      Cursor.nextToken_of_readsBack ahead blanks (TokenKind.readsBack writable ends)
    obtain ⟨tokens, after, run, kinds⟩ := inductionHypothesis legible cursor.nextToken.2 left
    exact ⟨token :: tokens, after, .token read run, by
      rw [List.map_cons, List.map_cons, same, kinds]⟩

end Layout

/-- A legible layout is read back as the tokens it was made of. -/
theorem TokenStream.kinds_ofText_layout {pieces : List Piece} {trailing : String}
    (legible : Layout.Legible pieces trailing.toList) :
    ∃ stream, TokenStream.ofText (Layout.text pieces ++ trailing) = .ok stream ∧
      stream.kinds = pieces.map Piece.kind := by
  obtain ⟨tokens, after, run, kinds⟩ :=
    Layout.run_of_legible legible (Cursor.ofText _) String.toList_append
  exact ⟨_, TokenStream.ofText_of_run run, kinds⟩

/-! ## Spacing -/

/-- Whether a token is punctuation. -/
def TokenKind.isDelimiter : TokenKind → Bool
  | .delimiter _ => true
  | _ => false

namespace Layout

/-- White space, perhaps none. -/
def IsBlank (text : String) : Prop := ∀ c ∈ text.toList, isBlank c

instance (text : String) : Decidable (IsBlank text) :=
  decidable_of_iff (text.toList.all isBlank) (by simp [IsBlank])

/-- The white space between two tokens keeps them apart: there is some, unless one of them is
punctuation, and behind a comment it starts with the end of the line. -/
def SetsApart (previous next : Piece) : Prop :=
  (previous.kind.isDelimiter ∨ next.blank ≠ "" ∨ next.kind.isDelimiter) ∧
    (previous.kind.isComment → next.blank.toList.head? = some '\n')

instance (previous next : Piece) : Decidable (SetsApart previous next) :=
  inferInstanceAs (Decidable (_ ∧ _))

/-- Tokens that can be written, with white space before each and behind the last that keeps
neighbours apart. -/
structure Separated (pieces : List Piece) (trailing : String) : Prop where
  writable : ∀ piece ∈ pieces, piece.kind.Writable
  blanks : ∀ piece ∈ pieces, IsBlank piece.blank
  trailingBlank : IsBlank trailing
  apart : pieces.IsChain SetsApart
  /-- Behind a comment the line ends, or the text does. -/
  lineEnds : ∀ piece ∈ pieces.getLast?, piece.kind.isComment →
    trailing.toList.head?.all (· = '\n')

theorem stops_of_isBlank {blank : List Char} (blanks : ∀ c ∈ blank, isBlank c) :
    blank.head?.all fun c => !isIdentifierContinue c := by
  cases blank with
  | nil => rfl
  | cons c blank => simp [not_isIdentifierContinue_of_isBlank (blanks c (.head _))]

/-- What follows a word starts with white space or with punctuation, which cannot be taken for part
of it. -/
theorem stops_of_detached {piece : Piece} (blanks : IsBlank piece.blank)
    (detached : piece.blank ≠ "" ∨ piece.kind.isDelimiter) (rest : List Char) :
    (piece.blank.toList ++ (piece.kind.spelling.toList ++ rest)).head?.all
      fun c => !isIdentifierContinue c := by
  cases shape : piece.blank.toList with
  | cons c blank =>
    have stops := stops_of_isBlank blanks
    rw [shape] at stops
    exact stops
  | nil =>
    have mark := detached.resolve_left (by simpa using String.toList_eq_nil_iff.mp shape)
    cases kind : piece.kind with
    | delimiter mark => simp [TokenKind.spelling, mark.not_isIdentifierContinue_char]
    | _ => simp [kind, TokenKind.isDelimiter] at mark

/-- Punctuation and quoted text end by themselves, a comment ends with its line, and words are
stopped by what follows. -/
theorem endsBefore_of_stops {kind : TokenKind} {rest : List Char}
    (comment : kind.isComment → rest.head?.all (· = '\n'))
    (word : kind.isDelimiter = false → rest.head?.all fun c => !isIdentifierContinue c) :
    kind.EndsBefore rest := by
  cases kind with
  | string text => trivial
  | delimiter mark => trivial
  | comment text => exact comment rfl
  | _ => exact word rfl

theorem Separated.tail {piece : Piece} {pieces : List Piece} {trailing : String}
    (separated : Separated (piece :: pieces) trailing) : Separated pieces trailing := by
  refine ⟨fun other member => separated.writable other (.tail _ member),
    fun other member => separated.blanks other (.tail _ member), separated.trailingBlank,
    separated.apart.tail, ?_⟩
  intro last isLast
  cases pieces with
  | nil => cases isLast
  | cons next pieces => exact separated.lineEnds last (by rwa [List.getLast?_cons_cons])

theorem Separated.endsBefore {piece : Piece} {pieces : List Piece} {trailing : String}
    (separated : Separated (piece :: pieces) trailing) :
    piece.kind.EndsBefore ((Layout.text pieces).toList ++ trailing.toList) := by
  cases pieces with
  | nil =>
    exact endsBefore_of_stops (separated.lineEnds piece rfl)
      fun _ => stops_of_isBlank separated.trailingBlank
  | cons next pieces =>
    obtain ⟨⟨gap, newline⟩, _⟩ := List.isChain_cons_cons.mp separated.apart
    rw [toList_text_cons, List.append_assoc, List.append_assoc]
    refine endsBefore_of_stops ?_ ?_
    · intro comment
      obtain ⟨more, shape⟩ := List.head?_eq_some_iff.mp (newline comment)
      simp [shape]
    · intro noMark
      have detached := gap.resolve_left (by simp [noMark])
      exact stops_of_detached (separated.blanks next (.tail _ (.head _))) detached _

theorem Legible.of_separated {pieces : List Piece} {trailing : String}
    (separated : Separated pieces trailing) : Legible pieces trailing.toList := by
  induction pieces with
  | nil => exact separated.trailingBlank
  | cons piece pieces inductionHypothesis =>
    exact ⟨separated.blanks piece (.head _), separated.writable piece (.head _),
      separated.endsBefore, inductionHypothesis separated.tail⟩

end Layout

/-- Reading undoes writing: tokens of every kind, set apart by any white space, are read as these
tokens and nothing else. -/
theorem Lexer.kinds_tokens_separated {pieces : List Piece} {trailing : String}
    (separated : Layout.Separated pieces trailing) :
    (Lexer.ofText (Layout.text pieces ++ trailing)).tokens.1.map (List.map Token.kind) =
      .ok (pieces.map Piece.kind) := by
  obtain ⟨tokens, after, run, kinds⟩ :=
    Layout.run_of_legible (.of_separated separated) (Cursor.ofText _) String.toList_append
  rw [tokens_of_run run, ← kinds]
  rfl

/-- Words that start like reserved words, names with and without quotes, the least integer, escapes,
and comments. -/
def Layout.mixture : List Piece :=
  [⟨"", .comment " of @a"⟩, ⟨"\n ", .keyword .operationWord⟩, ⟨"\t", .identifier "operations"⟩,
    ⟨" ", .symbol "a.b$1"⟩, ⟨"", .delimiter .comma⟩, ⟨"", .symbol "a \"b\""⟩,
    ⟨" ", .integer Int64.minValue⟩, ⟨" ", .string "\n\\//"⟩, ⟨" ", .value "0.$"⟩,
    ⟨"", .delimiter .equals⟩, ⟨"", .attribute "ssp" "a.b"⟩, ⟨"  ", .comment ""⟩]

theorem Lexer.kinds_tokens_separated_mixture :
    Layout.Separated Layout.mixture "\n" ∧
      Layout.text Layout.mixture ++ "\n" =
        "// of @a\n operation\toperations @a.b$1,@\"a \\\"b\\\"\" -9223372036854775808 " ++
          "\"\\n\\\\//\" %0.$=#ssp.a.b  //\n" ∧
      (Lexer.ofText (Layout.text Layout.mixture ++ "\n")).tokens.1.map (List.map Token.kind) =
        .ok (Layout.mixture.map Piece.kind) := by
  have separated : Layout.Separated Layout.mixture "\n" :=
    ⟨by decide, by decide, by decide, by decide, by decide⟩
  exact ⟨separated, by decide, Lexer.kinds_tokens_separated separated⟩

namespace Layout

/-- A piece that can be written wherever it is set off from its neighbours. -/
def Sound (piece : Piece) : Prop :=
  IsBlank piece.blank ∧ piece.kind.Writable ∧ piece.kind.isComment = false

/-- Every piece can be written, and one that is no punctuation has white space before it or stands
behind punctuation.  `afterMark` says whether the first piece stands behind punctuation. -/
def Spaced : (afterMark : Bool) → List Piece → Prop
  | _, [] => True
  | afterMark, piece :: pieces =>
    Sound piece ∧ (afterMark ∨ piece.blank ≠ "" ∨ piece.kind.isDelimiter) ∧
      Spaced piece.kind.isDelimiter pieces

theorem Spaced.weaken {pieces : List Piece} (spaced : Spaced false pieces) (afterMark : Bool) :
    Spaced afterMark pieces := by
  cases pieces with
  | nil => trivial
  | cons piece pieces =>
    obtain ⟨sound, detached, rest⟩ := spaced
    exact ⟨sound, .inr (detached.resolve_left (by simp)), rest⟩

theorem Spaced.append {afterMark : Bool} {first second : List Piece}
    (firstSpaced : Spaced afterMark first) (secondSpaced : Spaced false second) :
    Spaced afterMark (first ++ second) := by
  induction first generalizing afterMark with
  | nil => exact secondSpaced.weaken afterMark
  | cons piece pieces inductionHypothesis =>
    obtain ⟨sound, detached, rest⟩ := firstSpaced
    exact ⟨sound, detached, inductionHypothesis rest⟩

theorem Separated.of_spaced {pieces : List Piece} {trailing : String} {afterMark : Bool}
    (spaced : Spaced afterMark pieces) (blanks : IsBlank trailing) :
    Separated pieces trailing := by
  induction pieces generalizing afterMark with
  | nil => exact ⟨nofun, nofun, blanks, .nil, nofun⟩
  | cons piece pieces inductionHypothesis =>
    obtain ⟨⟨blank, writable, noComment⟩, _, rest⟩ := spaced
    have separated := inductionHypothesis rest
    refine ⟨List.forall_mem_cons.mpr ⟨writable, separated.writable⟩,
      List.forall_mem_cons.mpr ⟨blank, separated.blanks⟩, blanks, ?_, ?_⟩
    · cases pieces with
      | nil => exact .singleton _
      | cons next pieces =>
        obtain ⟨_, detached, _⟩ := rest
        exact .cons_cons ⟨detached, by simp [noComment]⟩ separated.apart
    · cases pieces with
      | nil =>
        intro last isLast comment
        obtain rfl : piece = last := by simpa using isLast
        rw [noComment] at comment
        contradiction
      | cons next pieces => exact separated.lineEnds

theorem Legible.of_spaced {pieces : List Piece} {trailing : String} {afterMark : Bool}
    (spaced : Spaced afterMark pieces) (blanks : IsBlank trailing) :
    Legible pieces trailing.toList :=
  .of_separated (.of_spaced spaced blanks)

end Layout

end StaticScheduling
