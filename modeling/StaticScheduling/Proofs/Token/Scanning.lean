import Mathlib.Data.List.TakeWhile
import Mathlib.Tactic.SplitIfs
import StaticScheduling.Proofs.Token.Runs
import StaticScheduling.Proofs.Token.Spelling

/-! # Scanned tokens can be written

Whatever the spelling a token was read from, it has a canonical spelling that is
read as the same token.  For names this is what the characters say that a scan
takes; numbers, quoted text and punctuation can always be written.  Kinds that
have one spelling only were read from it, so that the name of an attribute stands
in the text as it was cut (`TokenStream.cutAtDot?_lexeme`).
-/

namespace StaticScheduling

theorem isNamePart_ofList {name : List Char} (nonempty : name ≠ [])
    (inside : ∀ c ∈ name, isIdentifierContinue c) : IsNamePart (String.ofList name) := by
  refine ⟨?_, by rwa [String.toList_ofList]⟩
  simpa using nonempty

theorem isIdentifier_ofList {c : Char} {rest : List Char} (starts : isIdentifierStart c)
    (inside : ∀ d ∈ rest, isIdentifierContinue d) : isIdentifier (String.ofList (c :: rest)) := by
  have continues := isIdentifierContinue_of_isIdentifierStart starts
  exact isIdentifier_iff.mpr ⟨c, rest, String.toList_ofList, starts,
    List.forall_mem_cons.mpr ⟨continues, inside⟩⟩

theorem TokenKind.writable_ofWord {word : String} (valid : isIdentifier word) :
    (TokenKind.ofWord word).Writable := by
  unfold TokenKind.ofWord
  cases reserved : Keyword.ofSpelling? word with
  | none => exact ⟨valid, reserved⟩
  | some keyword => trivial

/-- A bare word is spelled as it is, whether it is reserved or not. -/
@[simp] theorem TokenKind.spelling_ofWord (word : String) :
    (TokenKind.ofWord word).spelling = word := by
  unfold TokenKind.ofWord
  cases reserved : Keyword.ofSpelling? word with
  | none => rfl
  | some keyword => exact Keyword.spelling_of_ofSpelling? reserved

/-! ## Scans -/

/-- Tokens that are read from their canonical spelling only.  A number may have zeros in front,
quoted text may go on in the next line, and the name of a symbol may be quoted without need. -/
def TokenKind.HasOneSpelling : TokenKind → Prop
  | .integer _ | .string _ | .symbol _ => False
  | .identifier _ | .keyword _ | .value _ | .attribute _ _ | .delimiter _ | .comment _ => True

/-- The kind that was read, if one was, has a spelling of its own, and that is what was consumed if
there is no other. -/
def Scan.Canonical (scan : Scan TokenKind) : Prop :=
  ∀ kind, scan.result = .ok kind →
    kind.Writable ∧ (kind.HasOneSpelling → scan.lexeme = kind.spelling.toList)

/-- Nothing is said about what was consumed for kinds that have more than one spelling. -/
theorem Scan.canonical_map {α : Type} (scan : Scan α) {kindOf : α → TokenKind}
    (writable : ∀ answer, (kindOf answer).Writable)
    (several : ∀ answer, ¬ (kindOf answer).HasOneSpelling) (read : List Char) :
    ((scan.map kindOf).after read).Canonical := by
  intro kind answers
  obtain ⟨answer, _, rfl⟩ := scan.result_map_eq_ok_iff.mp answers
  exact ⟨writable answer, fun one => absurd one (several answer)⟩

theorem canonical_scanComment (text : List Char) : (scanComment text).Canonical := by
  intro kind read
  unfold scanComment at read ⊢
  split at read
  · rename_i rest
    cases read
    refine ⟨?_, fun _ => by simp [TokenKind.spelling]⟩
    show '\n' ∉ (String.ofList (rest.takeWhile (· ≠ '\n'))).toList
    rw [String.toList_ofList]
    intro member
    simpa using List.mem_takeWhile_imp member
  · cases read
  · cases read

theorem canonical_scanSymbol (text : List Char) : (scanSymbol text).Canonical := by
  unfold scanSymbol
  split
  · refine Scan.canonical_map _ (fun _ => ?_) (fun _ => id) _
    trivial
  · intro kind read
    split at read
    · cases read
      exact ⟨trivial, False.elim⟩
    · cases read
  · intro kind read
    cases read

theorem canonical_scanValue (text : List Char) : (scanValue text).Canonical := by
  intro kind read
  simp only [scanValue] at read ⊢
  split at read
  · cases read
  · rename_i nonempty
    cases read
    exact ⟨isNamePart_ofList nonempty fun _ => List.mem_takeWhile_imp,
      fun _ => by simp [TokenKind.spelling]⟩

/-- The part of a name before its first dot is a dialect, and something follows the dot. -/
theorem writable_of_attributeOfName {c : Char} {rest : List Char} (starts : isIdentifierStart c)
    (inside : ∀ d ∈ rest, isIdentifierContinue d) {kind : TokenKind}
    (read : attributeOfName (c :: rest) = .ok kind) : kind.Writable := by
  obtain ⟨dialect, mnemonic, rfl, cut, named, nonempty⟩ := attributeOfName_eq_ok_iff.mp read
  obtain ⟨shape, dotless⟩ := cutAtDot?_eq_some_iff.mp cut
  obtain ⟨d, others, dialectShape⟩ :=
    List.exists_cons_of_ne_nil (mt String.toList_eq_nil_iff.mp named)
  rw [dialectShape] at shape
  cases shape
  have insideDialect : isIdentifier dialect := by
    rw [← String.ofList_toList (s := dialect), dialectShape]
    exact isIdentifier_ofList starts fun d member => inside d (List.mem_append_left _ member)
  have insideMnemonic : ∀ d ∈ mnemonic.toList, isIdentifierContinue d := fun d member =>
    inside d (List.mem_append_right _ (.tail _ member))
  exact ⟨insideDialect, dotless, nonempty, insideMnemonic⟩

/-- A name is spelled with the dot it was cut at. -/
theorem spelling_of_attributeOfName {name : List Char} {kind : TokenKind}
    (read : attributeOfName name = .ok kind) : kind.spelling.toList = '#' :: name := by
  obtain ⟨dialect, mnemonic, rfl, cut, _⟩ := attributeOfName_eq_ok_iff.mp read
  simp [TokenKind.spelling, (cutAtDot?_eq_some_iff.mp cut).1]

theorem canonical_scanAttribute (text : List Char) : (scanAttribute text).Canonical := by
  intro kind read
  unfold scanAttribute at read ⊢
  split at read
  · rename_i starts
    rw [if_pos starts]
    refine ⟨?_, fun _ => (spelling_of_attributeOfName read).symm⟩
    -- the first character is taken with the others, as it goes on an identifier too
    cases text with
    | nil => cases starts
    | cons c rest =>
      have starts : isIdentifierStart c := starts
      have continues := isIdentifierContinue_of_isIdentifierStart starts
      rw [List.takeWhile_cons_of_pos continues] at read
      exact writable_of_attributeOfName starts (fun _ => List.mem_takeWhile_imp) read
  · cases read

theorem canonical_scanInteger (sign text : List Char) : (scanInteger sign text).Canonical := by
  intro kind read
  simp only [scanInteger] at read
  split at read
  · cases read
  · split at read
    · cases read
      exact ⟨trivial, False.elim⟩
    · cases read

theorem canonical_scanWord {c : Char} (starts : isIdentifierStart c) (rest : List Char) :
    (scanWord (c :: rest)).Canonical := by
  intro kind read
  have continues := isIdentifierContinue_of_isIdentifierStart starts
  simp only [scanWord, List.takeWhile_cons_of_pos continues] at read ⊢
  cases read
  exact ⟨TokenKind.writable_ofWord (isIdentifier_ofList starts fun _ => List.mem_takeWhile_imp),
    fun _ => by simp⟩

theorem canonical_scanToken (c : Char) (rest : List Char) : (scanToken c rest).Canonical := by
  unfold scanToken
  split
  · rename_i mark found
    intro kind read
    cases read
    exact ⟨trivial, fun _ => by simp [TokenKind.spelling, Delimiter.char_of_ofChar? found]⟩
  · split_ifs with slash quoted symbol value hash minus digit starts
    · exact canonical_scanComment rest
    · refine Scan.canonical_map _ (fun _ => ?_) (fun _ => id) _
      trivial
    · exact canonical_scanSymbol rest
    · exact canonical_scanValue rest
    · exact canonical_scanAttribute rest
    · exact canonical_scanInteger ['-'] rest
    · exact canonical_scanInteger [] (c :: rest)
    · exact canonical_scanWord starts rest
    · intro kind read
      cases read

/-! ## Texts -/

/-- A token that was read can be written, and is written as it stands in the text where it has just
one spelling. -/
theorem Cursor.canonical_of_nextToken {cursor : Cursor} {token : Token}
    (read : cursor.nextToken.1 = .ok (some token)) :
    token.kind.Writable ∧ (token.kind.HasOneSpelling → token.lexeme = token.kind.spelling) := by
  obtain ⟨c, rest, lexeme, left, _, scanned, shape, _⟩ := scan_of_nextToken read
  have canonical := canonical_scanToken c rest token.kind (congrArg Scan.result scanned)
  rw [scanned] at canonical
  refine canonical.imp_right fun spelled one => ?_
  rw [shape, ← String.ofList_toList (s := token.kind.spelling), ← spelled one]

namespace TokenStream

variable {source : String} {stream : TokenStream}

theorem writable_of_ofText (lexes : TokenStream.ofText source = .ok stream) :
    ∀ kind ∈ stream.kinds, kind.Writable := by
  obtain ⟨after, run⟩ := run_of_ofText lexes
  intro kind member
  obtain ⟨token, present, rfl⟩ := List.mem_map.mp member
  exact (run.forall_mem Cursor.canonical_of_nextToken token present).1

/-- Where a kind has just one spelling, its tokens stand in the text as they are spelled. -/
theorem lexeme_eq_spelling (lexes : TokenStream.ofText source = .ok stream) :
    ∀ token ∈ stream.tokens, token.kind.HasOneSpelling → token.lexeme = token.kind.spelling := by
  obtain ⟨after, run⟩ := run_of_ofText lexes
  intro token present
  exact (run.forall_mem Cursor.canonical_of_nextToken token present).2

/-- The text of an attribute is a dialect without dots and a mnemonic, with a dot between them.  So
there is one way only to cut its name at the first dot, and it can always be cut. -/
theorem cutAtDot?_lexeme (lexes : TokenStream.ofText source = .ok stream) {token : Token}
    (present : token ∈ stream.tokens) {dialect mnemonic : String}
    (named : token.kind = .attribute dialect mnemonic) :
    token.lexeme = "#" ++ dialect ++ "." ++ mnemonic ∧ '.' ∉ dialect.toList ∧
      cutAtDot? (token.lexeme.toList.drop 1) = some (dialect.toList, mnemonic.toList) := by
  have writable := writable_of_ofText lexes token.kind (List.mem_map_of_mem present)
  have spelled := lexeme_eq_spelling lexes token present
  rw [named] at writable spelled
  obtain ⟨_, dotless, _⟩ := writable
  have lexeme : token.lexeme = "#" ++ dialect ++ "." ++ mnemonic := spelled trivial
  refine ⟨lexeme, dotless, cutAtDot?_eq_some_iff.mpr ⟨?_, dotless⟩⟩
  simp [lexeme]

end TokenStream

end StaticScheduling
