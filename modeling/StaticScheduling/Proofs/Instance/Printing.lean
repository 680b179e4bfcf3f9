import StaticScheduling.Instance.Text
import StaticScheduling.Proofs.Instance.Reading
import StaticScheduling.Proofs.Success
import StaticScheduling.Proofs.Token.Stream
import StaticScheduling.Proofs.Verification

/-! # Reading undoes writing

The canonical text of a printable document is read back as this document.  The
layout of every part is spaced, so the lexer finds its tokens again, and the
grammar finds the document in the tokens.
-/

namespace StaticScheduling

namespace Layout

theorem isBlank_empty : IsBlank "" := by simp [IsBlank]

theorem isBlank_space : IsBlank " " := by
  intro c member
  rw [List.mem_singleton.mp member]
  decide

theorem isBlank_newline : IsBlank "\n" := by
  intro c member
  rw [List.mem_singleton.mp member]
  decide

theorem isBlank_margin (indent : Nat) : IsBlank (Instance.margin indent) := by
  intro c member
  simp only [Instance.margin, String.toList_append, String.toList_ofList, List.mem_append,
    List.mem_replicate] at member
  rcases member with member | ⟨_, rfl⟩
  · exact isBlank_newline c member
  · decide

theorem spaced_mark {afterMark : Bool} {blank : String} {delimiter : Delimiter}
    {pieces : List Piece} (blanks : IsBlank blank) (rest : Spaced true pieces) :
    Spaced afterMark (Piece.mark blank delimiter :: pieces) :=
  ⟨⟨blanks, trivial, rfl⟩, .inr (.inr rfl), rest⟩

theorem spaced_single_mark {afterMark : Bool} {blank : String} (blanks : IsBlank blank)
    (delimiter : Delimiter) : Spaced afterMark [Piece.mark blank delimiter] :=
  spaced_mark blanks trivial

theorem Spaced.sound {pieces : List Piece} {afterMark : Bool} (spaced : Spaced afterMark pieces) :
    ∀ piece ∈ pieces, Sound piece := by
  induction pieces generalizing afterMark with
  | nil => nofun
  | cons first pieces inductionHypothesis =>
    obtain ⟨sound, _, rest⟩ := spaced
    exact List.forall_mem_cons.mpr ⟨sound, inductionHypothesis rest⟩

section Items

variable {α : Type} {layout : String → α → List Piece}

/-- An item that is set off by the white space before it or by punctuation. -/
def SpacedItem (layout : String → α → List Piece) (value : α) : Prop :=
  ∀ afterMark blank, IsBlank blank → (afterMark = true ∨ blank ≠ "") →
    Spaced afterMark (layout blank value)

theorem spaced_commas {values : List α} (items : ∀ value ∈ values, SpacedItem layout value)
    {afterMark : Bool} {blank : String} (blanks : IsBlank blank)
    (detached : afterMark = true ∨ blank ≠ "") :
    Spaced afterMark (Layout.commas layout blank values) := by
  cases values with
  | nil => trivial
  | cons first more =>
    -- every further item stands behind a comma
    have next (value : α) (member : value ∈ more) :
        Spaced false (Piece.mark "" .comma :: layout " " value) :=
      spaced_mark isBlank_empty
        (items value (.tail _ member) true " " isBlank_space (.inl rfl))
    have behind : Spaced false (more.flatMap fun value =>
        Piece.mark "" .comma :: layout " " value) := by
      clear items
      induction more with
      | nil => trivial
      | cons value more inductionHypothesis =>
        exact (next value (.head _)).append
          (inductionHypothesis fun value member => next value (.tail _ member))
    exact (items first (.head _) afterMark blank blanks detached).append behind

theorem spaced_flatMap {values : List α} {layout : α → List Piece}
    (items : ∀ value ∈ values, Spaced false (layout value)) :
    Spaced false (values.flatMap layout) := by
  induction values with
  | nil => trivial
  | cons value values inductionHypothesis =>
    exact (items value (.head _)).append
      (inductionHypothesis fun value member => items value (.tail _ member))

end Items

/-- Items between two marks. -/
theorem spaced_brackets {α : Type} {layout : String → α → List Piece} {values : List α}
    (items : ∀ value ∈ values, SpacedItem layout value) {blank : String} (blanks : IsBlank blank)
    (left right : Delimiter) (afterMark : Bool) :
    Spaced afterMark (Piece.mark blank left ::
      (Layout.commas layout "" values ++ [Piece.mark "" right])) :=
  spaced_mark blanks ((spaced_commas items isBlank_empty (.inl rfl)).append
    (spaced_single_mark isBlank_empty right))

end Layout

open Layout

mutual

theorem Property.spaced_pieces (property : Property) (named : property.WellNamed) :
    SpacedItem Property.pieces property := by
  intro afterMark blank blanks detached
  match property with
  | ⟨dialect, mnemonic, []⟩ =>
    simp only [Property.WellNamed] at named
    exact ⟨⟨blanks, named.1, rfl⟩, detached.imp id .inl, trivial⟩
  | ⟨dialect, mnemonic, first :: more⟩ =>
    simp only [Property.WellNamed] at named
    have items : ∀ parameter ∈ first :: more, SpacedItem Parameter.pieces parameter := by
      intro parameter member
      exact Parameter.spaced_pieces parameter (Parameter.allWellNamed_iff.mp named.2 parameter member)
    rw [Property.pieces, Parameter.pieces_more]
    exact ⟨⟨blanks, named.1, rfl⟩, detached.imp id .inl,
      spaced_brackets items isBlank_empty .leftAngle .rightAngle _⟩
termination_by sizeOf property

theorem Parameter.spaced_pieces (parameter : Parameter) (named : parameter.WellNamed) :
    SpacedItem Parameter.pieces parameter := by
  intro afterMark blank blanks detached
  match parameter with
  | .integer number => exact ⟨⟨blanks, trivial, rfl⟩, detached.imp id .inl, trivial⟩
  | .symbol name => exact ⟨⟨blanks, trivial, rfl⟩, detached.imp id .inl, trivial⟩
  | .string text => exact ⟨⟨blanks, trivial, rfl⟩, detached.imp id .inl, trivial⟩
  | .property nested =>
    simp only [Parameter.WellNamed] at named
    rw [Parameter.pieces]
    exact Property.spaced_pieces nested named afterMark blank blanks detached
termination_by sizeOf parameter

end

theorem Property.spaced_optionalPieces {limit : Nat} {properties : Option (List Property)}
    (printable : Property.ListPrintable limit properties) :
    Spaced false (Property.optionalPieces properties) := by
  cases properties with
  | none => trivial
  | some properties =>
    have items : ∀ property ∈ properties, SpacedItem Property.pieces property := by
      intro property member
      exact property.spaced_pieces (printable property member).1
    exact spaced_brackets items isBlank_space .leftBracket .rightBracket false

theorem Entry.spaced_pieces {limit : Nat} {entry : Entry}
    (named : ∀ name properties, entry = .value name properties → IsNamePart name)
    (printable : Property.ListPrintable limit entry.properties) :
    SpacedItem Entry.pieces entry := by
  intro afterMark blank blanks detached
  have behind := Property.spaced_optionalPieces printable
  cases entry with
  | value name properties =>
    exact ⟨⟨blanks, named name properties rfl, rfl⟩, detached.imp id .inl, behind⟩
  | symbol name properties => exact ⟨⟨blanks, trivial, rfl⟩, detached.imp id .inl, behind⟩

theorem DictionaryEntry.spaced_pieces {limit : Nat} {entry : DictionaryEntry}
    (printable : entry.Printable limit) : SpacedItem DictionaryEntry.pieces entry := by
  intro afterMark blank blanks detached
  obtain ⟨name, value⟩ := entry
  obtain ⟨valid, values⟩ := printable
  -- a key is written as a word, which may happen to be reserved
  have sound : Sound ⟨blank, .ofWord name⟩ ∧ (TokenKind.ofWord name).isDelimiter = false := by
    unfold TokenKind.ofWord
    cases found : Keyword.ofSpelling? name with
    | none => exact ⟨⟨blanks, ⟨valid, found⟩, rfl⟩, rfl⟩
    | some word => exact ⟨⟨blanks, trivial, rfl⟩, rfl⟩
  rw [DictionaryEntry.pieces]
  refine ⟨sound.1, detached.imp id .inl, ?_⟩
  rw [sound.2]
  cases value with
  | none => trivial
  | some value =>
    exact spaced_mark isBlank_space
      (value.spaced_pieces (values value rfl).1 true " " isBlank_space (.inl rfl))

namespace OperationDecl

theorem spaced_dictionaryPieces {limit : Nat} {entries : List DictionaryEntry}
    (printable : ∀ entry ∈ entries, entry.Printable limit) :
    Spaced false (dictionaryPieces entries) := by
  cases entries with
  | nil => trivial
  | cons first more =>
    have items : ∀ entry ∈ first :: more, SpacedItem DictionaryEntry.pieces entry :=
      fun entry member => DictionaryEntry.spaced_pieces (printable entry member)
    exact spaced_brackets items isBlank_space .leftBrace .rightBrace false

theorem spaced_resultPieces {results : List String} (named : ∀ name ∈ results, IsNamePart name)
    {blank : String} (blanks : IsBlank blank) (nonempty : blank ≠ "") :
    Spaced false (resultPieces blank results) := by
  cases results with
  -- without results the word `operation` comes first, else the names and an equals sign
  | nil => exact ⟨⟨blanks, trivial, rfl⟩, .inr (.inl nonempty), trivial⟩
  | cons first more =>
    have items : ∀ name ∈ first :: more,
        SpacedItem (fun blank name => [⟨blank, .value name⟩]) name := by
      intro name member afterMark blank blanks detached
      exact ⟨⟨blanks, named name member, rfl⟩, detached.imp id .inl, trivial⟩
    have behind : Spaced false [Piece.mark " " .equals, Piece.word " " .operationWord] :=
      spaced_mark isBlank_space ⟨⟨isBlank_space, trivial, rfl⟩, .inl rfl, trivial⟩
    exact (spaced_commas items blanks (.inr nonempty)).append behind

theorem spaced_pieces {limit : Nat} {operation : OperationDecl}
    (printable : operation.Printable limit) {blank : String} (blanks : IsBlank blank)
    (nonempty : blank ≠ "") : Spaced false (operation.pieces blank) := by
  have name : Spaced false (operation.name.toList.map fun name => (⟨" ", .symbol name⟩ : Piece)) := by
    cases operation.name with
    | none => trivial
    | some name =>
      have nonempty : " " ≠ "" := by decide
      exact ⟨⟨isBlank_space, trivial, rfl⟩, .inr (.inl nonempty), trivial⟩
  have entriesPrintable := Entry.forall_properties_join (Property.ListPrintable limit)
    (Property.listPrintable_none limit) printable.records operation.operands
  have entries : Spaced false
      (Entry.listPieces "" (Entry.join operation.operands operation.dependences)) := by
    refine spaced_brackets ?_ isBlank_empty .leftParen .rightParen false
    intro entry member
    refine Entry.spaced_pieces ?_ (entriesPrintable entry member)
    rintro name properties rfl
    exact printable.operands name (Entry.mem_operands_of_mem_join member)
  exact ((((spaced_resultPieces printable.results blanks nonempty).append name).append
    entries).append (Property.spaced_optionalPieces printable.properties)).append
    (spaced_dictionaryPieces printable.dictionary)

end OperationDecl

namespace Instance

theorem spaced_pieces {limit : Nat} {document : Instance} (printable : document.Printable limit)
    (indent : Nat) : Spaced true (document.pieces indent) := by
  have nonempty : margin indent ≠ "" := by simp [margin]
  have header : Spaced true [Piece.word "" .instanceWord, ⟨" ", .symbol document.name⟩,
      Piece.word " " .ofWord, ⟨" ", .string document.problem⟩] := by
    have space : " " ≠ "" := by decide
    exact ⟨⟨isBlank_empty, trivial, rfl⟩, .inl rfl, ⟨isBlank_space, trivial, rfl⟩,
      .inr (.inl space), ⟨isBlank_space, trivial, rfl⟩, .inr (.inl space),
      ⟨isBlank_space, trivial, rfl⟩, .inr (.inl space), trivial⟩
  have types : Spaced false
      (document.operatorTypes.flatMap (OperatorTypeDecl.pieces (margin indent))) := by
    refine spaced_flatMap ?_
    intro declaration member
    have space : " " ≠ "" := by decide
    exact ⟨⟨isBlank_margin indent, trivial, rfl⟩, .inr (.inl nonempty),
      ⟨isBlank_space, trivial, rfl⟩, .inr (.inl space),
      Property.spaced_optionalPieces (printable.operatorTypes declaration member)⟩
  have operations : Spaced false
      (document.operations.flatMap (OperationDecl.pieces (margin indent))) :=
    spaced_flatMap fun operation member =>
      OperationDecl.spaced_pieces (printable.operations operation member) (isBlank_margin indent)
        nonempty
  exact ((((header.append (Property.spaced_optionalPieces printable.properties)).append
    (spaced_single_mark isBlank_space _)).append types).append operations).append
    (spaced_single_mark isBlank_newline _)

theorem checkAllRecords_eq_ok_iff {document : Instance} :
    document.checkAllRecords = .ok () ↔ ∀ operation ∈ document.operations,
      recordFault? operation.operands.length operation.dependences = none :=
  forM_zipIdx_eq_ok_iff fun _ _ => checkRecords_eq_ok_iff

theorem checkAllRecords_of_printable {limit : Nat} {document : Instance}
    (printable : document.Printable limit) : document.checkAllRecords = .ok () :=
  checkAllRecords_eq_ok_iff.mpr fun operation member => (printable.operations operation member).inOrder

/-- The lexer finds the tokens of a spaced layout, and there is no comment among them. -/
theorem loadTokens_layout {pieces : List Piece} {afterMark : Bool} (spaced : Spaced afterMark pieces)
    (settings : ParserSettings) :
    ∃ stream, loadTokens settings (Layout.text pieces ++ "\n") = .ok stream ∧
      stream.kinds = kinds pieces := by
  obtain ⟨stream, read, same⟩ :=
    TokenStream.kinds_ofText_layout (Legible.of_spaced spaced isBlank_newline)
  -- no piece is a comment, so there are none to drop or to refuse
  have noComment : ∀ token ∈ stream.tokens, token.kind.isComment = false := by
    intro token member
    have inside : token.kind ∈ stream.kinds := List.mem_map_of_mem member
    rw [same] at inside
    obtain ⟨piece, written, kind⟩ := List.mem_map.mp inside
    rw [← kind]
    exact (spaced.sound piece written).2.2
  refine ⟨stream, ?_, same⟩
  have none : (stream.tokens.find? fun token =>
      token.kind.isComment && !settings.allowComments) = none := by
    rw [List.find?_eq_none]
    intro token member
    simp [noComment token member]
  have all : (stream.tokens.filter fun token => !token.kind.isComment) = stream.tokens := by
    rw [List.filter_eq_self]
    intro token member
    simp [noComment token member]
  unfold loadTokens
  simp only [read, bind_eq_ok_iff, Except.ok.injEq, exists_eq_left', TokenStream.withoutComments,
    none, all]

theorem loadTokens_text {limit : Nat} {document : Instance} (printable : document.Printable limit)
    (indent : Nat) (settings : ParserSettings) :
    ∃ stream, loadTokens settings (document.text indent) = .ok stream ∧
      stream.kinds = kinds (document.pieces indent) :=
  loadTokens_layout (spaced_pieces printable indent) settings

theorem parse_text {limit : Nat} {document : Instance} (printable : document.Printable limit)
    (indent : Nat) (allowComments : Bool) :
    ((InstanceParser.ofSettings ⟨limit, allowComments⟩).parse (document.text indent)).1 =
      .ok document := by
  obtain ⟨stream, loaded, same⟩ := loadTokens_text printable indent ⟨limit, allowComments⟩
  have read : Instance.read limit stream.kinds = .ok document := by
    rw [same]
    exact read_pieces printable indent
  simp only [InstanceParser.parse, InstanceParser.ofSettings, loaded, read]

/-- A text holds a document if it is parsed as this document and the records in it are in order. -/
theorem ofText_eq_ok_iff {source : String} {settings : ParserSettings} {document : Instance} :
    Instance.ofText source settings = .ok document ↔
      ((InstanceParser.ofSettings settings).parse source).1 = .ok document ∧
        document.checkAllRecords = .ok () := by
  unfold Instance.ofText
  cases ((InstanceParser.ofSettings settings).parse source).1 with
  | error error => exact ⟨nofun, nofun⟩
  | ok parsed =>
    simp only [bind_eq_ok_iff, exists_unit, Except.ok.injEq]
    constructor
    · rintro ⟨checked, rfl⟩
      exact ⟨rfl, checked⟩
    · rintro ⟨rfl, checked⟩
      exact ⟨checked, rfl⟩

/-- Reading undoes writing: the canonical text of a printable document, whatever its indentation,
is read back as this document, whether comments are allowed or not. -/
theorem ofText_text {limit : Nat} {document : Instance} (printable : document.Printable limit)
    (indent : Nat) (allowComments : Bool) :
    Instance.ofText (document.text indent) ⟨limit, allowComments⟩ = .ok document :=
  ofText_eq_ok_iff.mpr
    ⟨parse_text printable indent allowComments, checkAllRecords_of_printable printable⟩

/-- A document that is easily misread: names that need quotes or are reserved words, numbers at the
end of their range, properties in properties, empty lists beside absent ones. -/
def intricate : Instance where
  name := "a \"quoted\" name\n"
  problem := ""
  properties := some [⟨"ssp", "II.x", [.integer (-9223372036854775808), .string "\\",
    .property ⟨"of", "7", [.symbol "instance"]⟩]⟩]
  operatorTypes := [⟨"1st", none⟩, ⟨"operation", some []⟩]
  operations := [
    ⟨["0", "x.y"], some "", ["z", "0", "x.y"],
      [⟨.operand 1, some []⟩, ⟨.named 3 "%0", none⟩, ⟨.named 4 "", some []⟩], none,
      [⟨"of", none⟩, ⟨"key", some (.integer 9223372036854775807)⟩,
        ⟨"_", some (.property ⟨"a", "b", []⟩)⟩]⟩,
    ⟨["z"], none, [], [], some [], []⟩]

theorem ofText_text_intricate :
    intricate.Printable 2 ∧ Instance.ofText (intricate.text 3) ⟨2, false⟩ = .ok intricate := by
  have printable : intricate.Printable 2 := by decide
  exact ⟨printable, ofText_text printable 3 false⟩

end Instance

end StaticScheduling
