import StaticScheduling.Token.Lexer

/-! # Tokens are read back from their spelling

`TokenKind.spelling` is the canonical way to write a token.  This module shows
that `scanToken` reads it back whatever stands behind it, as long as that text
cannot be taken for part of the token (`TokenKind.EndsBefore`).  A spelling
starts with a character that is not blank, so white space before it is skipped
and no more.
-/

namespace StaticScheduling

/-! ## Characters -/

theorem isAlpha_iff {c : Char} :
    c.isAlpha ↔ (0x41 ≤ c.toNat ∧ c.toNat ≤ 0x5A) ∨ (0x61 ≤ c.toNat ∧ c.toNat ≤ 0x7A) := by
  have letters : c.isAlpha = (decide ('A'.val ≤ c.val ∧ c.val ≤ 'Z'.val) ||
      (decide ('a'.val ≤ c.val) && decide (c.val ≤ 'z'.val))) := rfl
  rw [letters]
  simp only [Bool.or_eq_true, Bool.and_eq_true, decide_eq_true_eq, UInt32.le_iff_toNat_le]
  exact Iff.rfl

theorem isDigit_iff {c : Char} : c.isDigit ↔ 0x30 ≤ c.toNat ∧ c.toNat ≤ 0x39 := by
  have digits : c.isDigit = (decide ('0'.val ≤ c.val) && decide (c.val ≤ '9'.val)) := rfl
  rw [digits]
  simp only [Bool.and_eq_true, decide_eq_true_eq, UInt32.le_iff_toNat_le]
  exact Iff.rfl

theorem toNat_of_isIdentifierContinue {c : Char} (inside : isIdentifierContinue c) :
    0x24 ≤ c.toNat ∧ c.toNat ≤ 0x7A := by
  simp only [isIdentifierContinue, isIdentifierStart, Bool.or_eq_true, decide_eq_true_eq,
    isAlpha_iff, isDigit_iff] at inside
  rcases inside with (((rfl | letter) | digit) | rfl) | rfl
  · decide
  · omega
  · omega
  · decide
  · decide

theorem not_isBlank_of_isIdentifierContinue {c : Char} (inside : isIdentifierContinue c) :
    isBlank c = false := by
  obtain ⟨low, high⟩ := toNat_of_isIdentifierContinue inside
  simp only [isBlank, blankRanges, List.any_cons, List.any_nil, Bool.or_false, Bool.or_eq_false_iff,
    Bool.and_eq_false_iff, decide_eq_false_iff_not]
  omega

theorem not_isIdentifierContinue_of_isBlank {c : Char} (blank : isBlank c) :
    isIdentifierContinue c = false := by
  cases inside : isIdentifierContinue c with
  | false => rfl
  | true => rw [not_isBlank_of_isIdentifierContinue inside] at blank; contradiction

theorem not_isDigit_of_isIdentifierStart {c : Char} (starts : isIdentifierStart c) :
    c.isDigit = false := by
  simp only [isIdentifierStart, Bool.or_eq_true, decide_eq_true_eq, isAlpha_iff] at starts
  rw [Bool.eq_false_iff, ne_eq, isDigit_iff]
  rcases starts with rfl | letter
  · decide
  · omega

theorem isIdentifierContinue_of_isIdentifierStart {c : Char} (starts : isIdentifierStart c) :
    isIdentifierContinue c := by
  simp only [isIdentifierContinue, starts, Bool.true_or]

theorem isIdentifierContinue_of_isDigit {c : Char} (digit : c.isDigit) :
    isIdentifierContinue c := by
  simp only [isIdentifierContinue, digit, Bool.or_true, Bool.true_or]

namespace Delimiter

theorem char_of_ofChar? {c : Char} {mark : Delimiter} (found : ofChar? c = some mark) :
    mark.char = c := by
  simpa using List.find?_some found

theorem not_isIdentifierContinue_char (mark : Delimiter) :
    isIdentifierContinue mark.char = false := by
  cases mark <;> decide

theorem not_isBlank_char (mark : Delimiter) : isBlank mark.char = false := by
  cases mark <;> decide

theorem ofChar?_eq_none_of_isIdentifierContinue {c : Char} (inside : isIdentifierContinue c) :
    ofChar? c = none := by
  cases found : ofChar? c with
  | none => rfl
  | some mark =>
    rw [← char_of_ofChar? found, not_isIdentifierContinue_char] at inside
    contradiction

end Delimiter

/-! ## Names -/

/-- A text that may stand inside a bare name: not empty, and made of the characters that go on an
identifier.  Values and mnemonics are of this form. -/
def IsNamePart (name : String) : Prop :=
  name ≠ "" ∧ ∀ c ∈ name.toList, isIdentifierContinue c

-- goes through the characters of the name, not through all characters there are
instance (name : String) : Decidable (IsNamePart name) :=
  decidable_of_iff (name ≠ "" ∧ name.toList.all isIdentifierContinue) (by simp [IsNamePart])

theorem isIdentifier_iff {name : String} :
    isIdentifier name ↔
      ∃ c rest, name.toList = c :: rest ∧ isIdentifierStart c ∧
        ∀ d ∈ c :: rest, isIdentifierContinue d := by
  unfold isIdentifier
  split
  · rename_i empty
    simp [empty]
  · rename_i c rest shape
    simp only [Bool.and_eq_true, List.all_eq_true]
    constructor
    · rintro ⟨starts, inside⟩
      exact ⟨c, rest, shape, starts, inside⟩
    · rintro ⟨d, more, same, starts, inside⟩
      rw [shape] at same
      cases same
      exact ⟨starts, inside⟩

/-- The longest run of accepted characters ends where the word does. -/
theorem takeWhile_append_of_stop (accept : Char → Bool) {word rest : List Char}
    (inside : ∀ c ∈ word, accept c) (stop : rest.head?.all fun c => !accept c) :
    (word ++ rest).takeWhile accept = word ∧ (word ++ rest).dropWhile accept = rest := by
  rw [List.takeWhile_append_of_pos inside, List.dropWhile_append_of_pos inside]
  cases rest with
  | nil => simp
  | cons c rest =>
    simp only [List.head?_cons, Option.all_some, Bool.not_eq_true'] at stop
    simp [stop]

/-- The first dot is where the text in front of it has none. -/
theorem cutAtDot?_eq_some_iff {text front behind : List Char} :
    cutAtDot? text = some (front, behind) ↔ text = front ++ '.' :: behind ∧ '.' ∉ front := by
  induction text generalizing front with
  | nil => simp [cutAtDot?]
  | cons c rest inductionHypothesis =>
    rw [cutAtDot?]
    by_cases dot : c = '.'
    · rw [if_pos dot]
      cases front <;> simp_all [eq_comm]
    · rw [if_neg dot, Option.map_eq_some_iff]
      constructor
      · rintro ⟨⟨others, left⟩, cut, same⟩
        cases same
        obtain ⟨rfl, dotless⟩ := inductionHypothesis.mp cut
        exact ⟨rfl, by simp [dotless, Ne.symm dot]⟩
      · rintro ⟨shape, dotless⟩
        cases front with
        | nil => cases shape; contradiction
        | cons d others =>
          cases shape
          have dotless := List.not_mem_of_not_mem_cons dotless
          exact ⟨(others, behind), inductionHypothesis.mpr ⟨rfl, dotless⟩, rfl⟩

theorem attributeOfName_eq_ok_iff {name : List Char} {kind : TokenKind} :
    attributeOfName name = .ok kind ↔ ∃ dialect mnemonic : String,
      kind = .attribute dialect mnemonic ∧
        cutAtDot? name = some (dialect.toList, mnemonic.toList) ∧ dialect ≠ "" ∧ mnemonic ≠ "" := by
  unfold attributeOfName
  constructor
  · intro read
    split at read
    · rename_i c dialect d mnemonic cut
      cases read
      exact ⟨_, _, rfl, by simpa using cut, by simp, by simp⟩
    · cases read
  · rintro ⟨dialect, mnemonic, rfl, cut, named, kinded⟩
    obtain ⟨c, others, dialectShape⟩ :=
      List.exists_cons_of_ne_nil (mt String.toList_eq_nil_iff.mp named)
    obtain ⟨d, more, mnemonicShape⟩ :=
      List.exists_cons_of_ne_nil (mt String.toList_eq_nil_iff.mp kinded)
    rw [cut, dialectShape, mnemonicShape]
    simp only [← dialectShape, ← mnemonicShape, String.ofList_toList]

/-! ## Quoted text -/

/-- A character that neither ends the text nor starts an escape stands for itself. -/
theorem scanQuoted_cons {c : Char} (notQuote : c ≠ '"') (notBackslash : c ≠ '\\')
    (rest : List Char) : scanQuoted (c :: rest) = ((scanQuoted rest).map (c :: ·)).after [c] := by
  rw [scanQuoted.eq_def]
  split <;> simp_all

theorem scanQuoted_escapeChar (c : Char) (rest : List Char) :
    scanQuoted (escapeChar c ++ rest) =
      ((scanQuoted rest).map (c :: ·)).after (escapeChar c) := by
  unfold escapeChar
  split
  · subst c; rfl
  · split
    · subst c; rfl
    · split
      · subst c; rfl
      · split
        · subst c; rfl
        · split
          · subst c; rfl
          · rename_i notQuote notBackslash _ _ _
            exact scanQuoted_cons notQuote notBackslash rest

/-- Escaping is undone by reading quoted text. -/
theorem scanQuoted_escape (text rest : List Char) :
    scanQuoted (text.flatMap escapeChar ++ '"' :: rest) =
      ⟨.ok text, text.flatMap escapeChar ++ ['"'], rest⟩ := by
  -- one character at a time, however many characters it is escaped to
  induction text with
  | nil => rfl
  | cons c text inductionHypothesis =>
    rw [List.flatMap_cons, List.append_assoc, scanQuoted_escapeChar, inductionHypothesis]
    simp only [Scan.map, Scan.after, Except.map, List.append_assoc]

theorem toList_quote (text : String) :
    (quote text).toList = '"' :: (text.toList.flatMap escapeChar ++ ['"']) := by
  simp [quote, escape]

/-! ## Numbers -/

theorem toList_toString (number : Nat) : (toString number).toList = Nat.toDigits 10 number :=
  Nat.toList_repr

theorem toList_integerText (value : Int) :
    (integerText value).toList =
      (if value < 0 then ['-'] else []) ++ Nat.toDigits 10 value.natAbs := by
  unfold integerText
  split
  · rw [String.toList_append, toList_toString]
    rfl
  · rw [toList_toString]
    rfl

theorem integerOfDigits?_toDigits (number : Int64) :
    integerOfDigits? (decide (number.toInt < 0)) (Nat.toDigits 10 number.toInt.natAbs) =
      some number := by
  -- sign and magnitude make up the number, also at the least number there is
  have value : (if decide (number.toInt < 0) then -(number.toInt.natAbs : Int)
      else (number.toInt.natAbs : Int)) = number.toInt := by
    by_cases negative : number.toInt < 0
    · simp only [negative, decide_true, if_true]
      omega
    · simp only [negative, decide_false, Bool.false_eq_true, if_false]
      omega
  simp only [integerOfDigits?, Nat.ofDigitChars_ten_toDigits, value, Int64.minValue_le_toInt,
    Int64.toInt_le, and_self, if_true, Int64.ofInt_toInt]

theorem isDigit_of_mem_toDigits (number : Nat) {c : Char} (digit : c ∈ Nat.toDigits 10 number) :
    c.isDigit :=
  Nat.isDigit_of_mem_toDigits (by decide) (by decide) digit

theorem isNamePart_toString (number : Nat) : IsNamePart (toString number) := by
  constructor
  · intro empty
    have digits := congrArg String.toList empty
    rw [toList_toString] at digits
    exact Nat.toDigits_ne_nil digits
  · intro c member
    rw [toList_toString] at member
    exact isIdentifierContinue_of_isDigit (isDigit_of_mem_toDigits number member)

theorem scanInteger_toDigits (number : Int64) (rest : List Char)
    (stop : rest.head?.all fun c => !isIdentifierContinue c) :
    scanInteger (if number.toInt < 0 then ['-'] else [])
        (Nat.toDigits 10 number.toInt.natAbs ++ rest) =
      ⟨.ok (.integer number), (integerText number.toInt).toList, rest⟩ := by
  -- digits go on identifiers too, so what ends an identifier ends a number
  have stopDigits : rest.head?.all fun c => !c.isDigit := by
    cases rest with
    | nil => rfl
    | cons c rest =>
      simp only [List.head?_cons, Option.all_some, Bool.not_eq_true'] at stop ⊢
      cases digit : c.isDigit with
      | false => rfl
      | true => rw [isIdentifierContinue_of_isDigit digit] at stop; contradiction
  obtain ⟨taken, left⟩ := takeWhile_append_of_stop Char.isDigit
    (fun c digit => isDigit_of_mem_toDigits number.toInt.natAbs digit) stopDigits
  have sign : decide ((if number.toInt < 0 then ['-'] else []) ≠ ([] : List Char)) =
      decide (number.toInt < 0) := by
    split <;> simp [*]
  simp only [scanInteger, taken, left, sign, integerOfDigits?_toDigits, Nat.toDigits_ne_nil,
    if_false, toList_integerText]

/-! ## Tokens -/

namespace TokenKind

/-- A token whose spelling is read back as this token.  An identifier must not be a reserved word,
and a comment ends with its line. -/
def Writable : TokenKind → Prop
  | .identifier name => isIdentifier name ∧ Keyword.ofSpelling? name = none
  | .value name => IsNamePart name
  | .attribute dialect mnemonic =>
    isIdentifier dialect ∧ '.' ∉ dialect.toList ∧ IsNamePart mnemonic
  | .comment text => '\n' ∉ text.toList
  | .integer _ | .string _ | .keyword _ | .symbol _ | .delimiter _ => True

instance (kind : TokenKind) : Decidable kind.Writable := by
  cases kind <;> unfold Writable <;> infer_instance

/-- Text that cannot be taken for part of a token in front of it. -/
def EndsBefore (kind : TokenKind) (rest : List Char) : Prop :=
  match kind with
  | .delimiter _ | .string _ => True
  | .comment _ => rest.head?.all (· = '\n')
  | _ => rest.head?.all fun c => !isIdentifierContinue c

/-- Reading the token that `text` starts with gives this token and consumes exactly its spelling. -/
def ReadsBack (kind : TokenKind) (rest : List Char) : Prop :=
  ∃ c text, kind.spelling.toList = c :: text ∧ isBlank c = false ∧
    scanToken c (text ++ rest) = ⟨.ok kind, c :: text, rest⟩

end TokenKind

/-- A character of an identifier is no mark and introduces no name, so it starts a number or a
word. -/
theorem scanToken_of_isIdentifierContinue {c : Char} (inside : isIdentifierContinue c)
    (rest : List Char) :
    scanToken c rest =
      if c.isDigit then scanInteger [] (c :: rest)
      else if isIdentifierStart c then scanWord (c :: rest)
      else ⟨.error (.unexpectedCharacter c), [], c :: rest⟩ := by
  have differs (d : Char) (other : isIdentifierContinue d = false) : c ≠ d := by
    rintro rfl
    rw [inside] at other
    contradiction
  simp only [scanToken, Delimiter.ofChar?_eq_none_of_isIdentifierContinue inside,
    differs '/' (by decide), differs '"' (by decide), differs '@' (by decide),
    differs '%' (by decide), differs '#' (by decide), differs '-' (by decide), if_false]

/-- A bare word is read as a reserved word or an identifier. -/
theorem scanToken_of_isIdentifier {name : String} (valid : isIdentifier name) {rest : List Char}
    (stop : rest.head?.all fun c => !isIdentifierContinue c) :
    ∃ c text, name.toList = c :: text ∧ isBlank c = false ∧
      scanToken c (text ++ rest) = ⟨.ok (.ofWord name), c :: text, rest⟩ := by
  obtain ⟨c, text, shape, starts, inside⟩ := isIdentifier_iff.mp valid
  have continues := isIdentifierContinue_of_isIdentifierStart starts
  obtain ⟨taken, left⟩ := takeWhile_append_of_stop isIdentifierContinue inside stop
  rw [List.cons_append] at taken left
  refine ⟨c, text, shape, not_isBlank_of_isIdentifierContinue continues, ?_⟩
  rw [scanToken_of_isIdentifierContinue continues]
  simp only [not_isDigit_of_isIdentifierStart starts, starts, if_false, if_true, Bool.false_eq_true,
    scanWord, taken, left, ← shape, String.ofList_toList]

namespace TokenKind

theorem readsBack_integer (number : Int64) {rest : List Char}
    (ends : (integer number).EndsBefore rest) : (integer number).ReadsBack rest := by
  have scanned := scanInteger_toDigits number rest ends
  have spelled := toList_integerText number.toInt
  by_cases negative : number.toInt < 0
  · simp only [negative, if_true] at scanned spelled
    refine ⟨'-', _, spelled, by decide, ?_⟩
    rw [spelled] at scanned
    exact scanned
  · simp only [negative, if_false, List.nil_append] at scanned spelled
    cases digits : Nat.toDigits 10 number.toInt.natAbs with
    | nil => exact absurd digits Nat.toDigits_ne_nil
    | cons c text =>
      have digit : c.isDigit :=
        isDigit_of_mem_toDigits number.toInt.natAbs (by rw [digits]; exact .head _)
      have continues := isIdentifierContinue_of_isDigit digit
      rw [spelled, digits] at scanned
      refine ⟨c, text, spelled.trans digits, not_isBlank_of_isIdentifierContinue continues, ?_⟩
      rw [scanToken_of_isIdentifierContinue continues, if_pos digit]
      exact scanned

theorem readsBack_string (text : String) (rest : List Char) : (string text).ReadsBack rest := by
  refine ⟨'"', _, toList_quote text, by decide, ?_⟩
  have opening : scanToken '"' =
      fun rest => ((scanQuoted rest).map fun text => string (String.ofList text)).after ['"'] := rfl
  rw [opening, List.append_assoc]
  simp only [List.singleton_append, scanQuoted_escape]
  simp only [Scan.map, Scan.after, Except.map, String.ofList_toList, List.singleton_append]

theorem readsBack_symbol (name : String) {rest : List Char}
    (ends : (symbol name).EndsBefore rest) : (symbol name).ReadsBack rest := by
  have opening : scanToken '@' = scanSymbol := rfl
  -- a name that is an identifier is written bare, any other one in quotes
  by_cases valid : isIdentifier name
  · obtain ⟨c, text, shape, starts, inside⟩ := isIdentifier_iff.mp valid
    obtain ⟨taken, left⟩ := takeWhile_append_of_stop isIdentifierContinue inside ends
    have notQuote : c ≠ '"' := by
      rintro rfl
      exact absurd starts (by decide)
    refine ⟨'@', c :: text, by simp [spelling, symbolText, valid, shape], by decide, ?_⟩
    rw [opening, List.cons_append, scanSymbol.eq_def]
    split
    · rename_i same
      exact absurd (List.cons.inj same).1 notQuote
    · rename_i same
      cases same
      rw [List.cons_append] at taken left
      simp only [starts, if_true, taken, left, ← shape, String.ofList_toList]
    · contradiction
  · refine ⟨'@', (quote name).toList, by simp [spelling, symbolText, valid], by decide, ?_⟩
    rw [opening, toList_quote, List.cons_append, List.append_assoc]
    simp only [List.singleton_append, scanSymbol, scanQuoted_escape]
    simp only [Scan.map, Scan.after, Except.map, String.ofList_toList, List.cons_append,
      List.nil_append]

theorem readsBack_value {name : String} (writable : (value name).Writable) {rest : List Char}
    (ends : (value name).EndsBefore rest) : (value name).ReadsBack rest := by
  obtain ⟨nonempty, inside⟩ := writable
  obtain ⟨taken, left⟩ := takeWhile_append_of_stop isIdentifierContinue inside ends
  have opening : scanToken '%' = scanValue := rfl
  refine ⟨'%', name.toList, by simp [spelling], by decide, ?_⟩
  simp only [opening, scanValue, taken, left, String.toList_eq_nil_iff, nonempty, if_false,
    String.ofList_toList]

theorem readsBack_attribute {dialect mnemonic : String}
    (writable : (TokenKind.attribute dialect mnemonic).Writable) {rest : List Char}
    (ends : (TokenKind.attribute dialect mnemonic).EndsBefore rest) :
    (TokenKind.attribute dialect mnemonic).ReadsBack rest := by
  obtain ⟨valid, dotless, nonempty, inside⟩ := writable
  obtain ⟨c, text, shape, starts, insideDialect⟩ := isIdentifier_iff.mp valid
  rw [← shape] at insideDialect
  -- all of the name is taken at once, and then cut at its first dot
  have insideName : ∀ d ∈ dialect.toList ++ '.' :: mnemonic.toList, isIdentifierContinue d := by
    intro d member
    rcases List.mem_append.mp member with member | member
    · exact insideDialect d member
    · rcases List.mem_cons.mp member with rfl | member
      · decide
      · exact inside d member
  obtain ⟨taken, left⟩ := takeWhile_append_of_stop isIdentifierContinue insideName ends
  have named : dialect ≠ "" := by
    rintro rfl
    cases shape
  have cut : attributeOfName (dialect.toList ++ '.' :: mnemonic.toList) =
      .ok (TokenKind.attribute dialect mnemonic) :=
    attributeOfName_eq_ok_iff.mpr
      ⟨dialect, mnemonic, rfl, cutAtDot?_eq_some_iff.mpr ⟨rfl, dotless⟩, named, nonempty⟩
  have opening : scanToken '#' = scanAttribute := rfl
  have first : (dialect.toList ++ '.' :: mnemonic.toList ++ rest).head?.any isIdentifierStart := by
    simp [shape, starts]
  refine ⟨'#', dialect.toList ++ '.' :: mnemonic.toList, by simp [spelling], by decide, ?_⟩
  rw [opening, scanAttribute, if_pos first, taken, left, cut]

theorem readsBack_comment {text : String} (writable : (comment text).Writable) {rest : List Char}
    (ends : (comment text).EndsBefore rest) : (comment text).ReadsBack rest := by
  have inside : ∀ c ∈ text.toList, decide (c ≠ '\n') = true := by
    intro c member
    exact decide_eq_true fun same => writable (same ▸ member)
  have stop : rest.head?.all fun c => !decide (c ≠ '\n') := by
    simpa [EndsBefore] using ends
  obtain ⟨taken, left⟩ := takeWhile_append_of_stop (fun c => decide (c ≠ '\n')) inside stop
  have opening : scanToken '/' = scanComment := rfl
  refine ⟨'/', '/' :: text.toList, by simp [spelling], by decide, ?_⟩
  rw [opening, List.cons_append, scanComment, taken, left, String.ofList_toList]

/-- A token that is written and ends where the next text begins is read back as it was. -/
theorem readsBack {kind : TokenKind} (writable : kind.Writable) {rest : List Char}
    (ends : kind.EndsBefore rest) : kind.ReadsBack rest := by
  match kind with
  | .integer number => exact readsBack_integer number ends
  | .string text => exact readsBack_string text rest
  | .identifier name =>
    obtain ⟨valid, unreserved⟩ := writable
    obtain ⟨c, text, shape, visible, scanned⟩ := scanToken_of_isIdentifier valid ends
    simp only [ofWord, unreserved] at scanned
    exact ⟨c, text, shape, visible, scanned⟩
  | .keyword word =>
    have valid : isIdentifier word.spelling := by cases word <;> decide
    obtain ⟨c, text, shape, visible, scanned⟩ := scanToken_of_isIdentifier valid ends
    simp only [ofWord, Keyword.ofSpelling?_spelling] at scanned
    exact ⟨c, text, shape, visible, scanned⟩
  | .symbol name => exact readsBack_symbol name ends
  | .value name => exact readsBack_value writable ends
  | .attribute dialect mnemonic => exact readsBack_attribute writable ends
  | .delimiter mark =>
    refine ⟨mark.char, [], by simp [spelling], mark.not_isBlank_char, ?_⟩
    simp only [scanToken, Delimiter.ofChar?_char, List.nil_append]
  | .comment text => exact readsBack_comment writable ends

end TokenKind

end StaticScheduling
