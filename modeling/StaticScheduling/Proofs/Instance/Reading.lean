import StaticScheduling.Instance.Layout
import StaticScheduling.Proofs.Instance.Recognition

/-! # The grammar reads layouts back

The layout of each part of a document is a phrase that says this part.  So the
layout of a document is read as this document, as long as nothing in it nests too
deep; only the records of an operation have to be those of an operand list.
-/

namespace StaticScheduling

open Phrase

/-- What the grammar sees of a layout. -/
def Layout.kinds (pieces : List Piece) : List TokenKind := pieces.map Piece.kind

open Layout (kinds)

@[simp] theorem Piece.kind_mark (blank : String) (delimiter : Delimiter) :
    (Piece.mark blank delimiter).kind = .delimiter delimiter := rfl

@[simp] theorem Piece.kind_word (blank : String) (keyword : Keyword) :
    (Piece.word blank keyword).kind = .keyword keyword := rfl

namespace Layout

@[simp] theorem kinds_nil : kinds [] = [] := rfl

@[simp] theorem kinds_cons (piece : Piece) (pieces : List Piece) :
    kinds (piece :: pieces) = piece.kind :: kinds pieces := rfl

@[simp] theorem kinds_append (first second : List Piece) :
    kinds (first ++ second) = kinds first ++ kinds second := List.map_append

/-! ## Lists of items -/

section Items

variable {α : Type} {item : Phrase α} {layout : String → α → List Piece}

theorem commas_cons (layout : String → α → List Piece) (blank : String) (first next : α)
    (more : List α) :
    commas layout blank (first :: next :: more) =
      layout blank first ++ Piece.mark "" .comma :: commas layout " " (next :: more) := rfl

theorem separated_commas {first : α} {more : List α}
    (derives : ∀ value ∈ first :: more, ∀ blank, item (kinds (layout blank value)) value)
    (blank : String) :
    Separated item (kinds (Layout.commas layout blank (first :: more))) (first :: more) := by
  induction more generalizing first blank with
  | nil =>
    rw [Layout.commas, List.flatMap_nil, List.append_nil]
    exact .last (derives first (.head _) blank)
  | cons next more inductionHypothesis =>
    rw [commas_cons, kinds_append, kinds_cons]
    exact .more (derives first (.head _) blank)
      (inductionHypothesis (fun value member => derives value (.tail _ member)) " ")

theorem listed_commas {values : List α}
    (derives : ∀ value ∈ values, ∀ blank, item (kinds (layout blank value)) value)
    (blank closeBlank : String) (close : Delimiter) :
    Listed item close
      (kinds (Layout.commas layout blank values ++ [Piece.mark closeBlank close])) values := by
  rw [kinds_append]
  cases values with
  | nil => exact .empty
  | cons first more => exact .items (separated_commas derives blank)

theorem repeated_flatMap {layout : α → List Piece} {values : List α}
    (derives : ∀ value ∈ values, item (kinds (layout value)) value) :
    Repeated item (kinds (values.flatMap layout)) values := by
  induction values with
  | nil => exact .nil
  | cons value values inductionHypothesis =>
    rw [List.flatMap_cons, kinds_append]
    exact .cons (derives value (.head _))
      (inductionHypothesis fun value member => derives value (.tail _ member))

end Items

end Layout

open Layout

/-! ## Properties -/

theorem Parameter.pieces_more (blank : String) (first : Parameter) (more : List Parameter) :
    first.pieces blank ++ Parameter.morePieces more =
      Layout.commas Parameter.pieces blank (first :: more) := by
  have behind : ∀ more : List Parameter, Parameter.morePieces more =
      more.flatMap fun next => Piece.mark "" .comma :: next.pieces " " := by
    intro more
    induction more with
    | nil => rw [Parameter.morePieces, List.flatMap_nil]
    | cons next more inductionHypothesis =>
      rw [Parameter.morePieces, List.flatMap_cons, inductionHypothesis, List.cons_append]
  rw [behind, Layout.commas]

mutual

theorem Property.derives_pieces (property : Property) (blank : String) :
    Property.Derives (kinds (property.pieces blank)) property := by
  match property with
  | ⟨dialect, mnemonic, []⟩ => exact .plain dialect mnemonic
  | ⟨dialect, mnemonic, first :: more⟩ =>
    have derives : ∀ parameter ∈ first :: more, ∀ blank,
        Parameter.Derives (kinds (parameter.pieces blank)) parameter :=
      fun parameter member => Parameter.derives_pieces parameter
    rw [Property.pieces, Parameter.pieces_more, kinds_cons, kinds_cons, kinds_append]
    exact .applied dialect mnemonic (separated_commas derives "")
termination_by sizeOf property

theorem Parameter.derives_pieces (parameter : Parameter) (blank : String) :
    Parameter.Derives (kinds (parameter.pieces blank)) parameter := by
  match parameter with
  | .integer number => exact .integer number
  | .symbol name => exact .symbol name
  | .string text => exact .string text
  | .property nested =>
    rw [Parameter.pieces]
    exact .property (Property.derives_pieces nested blank)
termination_by sizeOf parameter

end

theorem Property.derives_optionalPieces (properties : Option (List Property)) :
    Property.OptionalListDerives (kinds (Property.optionalPieces properties)) properties := by
  cases properties with
  | none => exact .absent
  | some properties =>
    exact .present (listed_commas (fun property _ => property.derives_pieces) "" "" .rightBracket)

/-! ## Operand lists and dictionaries -/

theorem Entry.derives_pieces (entry : Entry) (blank : String) :
    Entry.Derives (kinds (entry.pieces blank)) entry := by
  cases entry with
  | value name properties => exact .value name (Property.derives_optionalPieces properties)
  | symbol name properties => exact .symbol name (Property.derives_optionalPieces properties)

/-- A key that happens to be a reserved word is written as one. -/
theorem DictionaryEntry.names_ofWord (name : String) : Names (.ofWord name) name := by
  unfold TokenKind.ofWord
  cases found : Keyword.ofSpelling? name with
  | none => exact .identifier name
  | some word =>
    obtain rfl : word.spelling = name := Keyword.spelling_of_ofSpelling? found
    exact .keyword word

theorem DictionaryEntry.derives_pieces (entry : DictionaryEntry) (blank : String) :
    DictionaryEntry.Derives (kinds (entry.pieces blank)) entry := by
  obtain ⟨name, value⟩ := entry
  have names := names_ofWord name
  cases value with
  | none => exact .bare names
  | some value => exact .bound names (value.derives_pieces " ")

namespace OperationDecl

theorem derives_dictionaryPieces (entries : List DictionaryEntry) :
    DictionaryEntry.OptionalListDerives (kinds (dictionaryPieces entries)) entries := by
  -- an empty dictionary is not written
  cases entries with
  | nil => exact .absent
  | cons first more =>
    exact .present (listed_commas (fun entry _ => entry.derives_pieces) "" "" .rightBrace)

/-! ## Declarations -/

theorem exists_resultsDerive (blank : String) (results : List String) :
    ∃ before, kinds (resultPieces blank results) = before ++ [.keyword .operationWord] ∧
      ResultsDerive before results := by
  cases results with
  | nil => exact ⟨[], rfl, .absent⟩
  | cons first more =>
    have derives : ∀ name ∈ first :: more, ∀ blank,
        ResultDerives (kinds [⟨blank, .value name⟩]) name := fun name _ _ => .value name
    refine ⟨_, ?_, .present (separated_commas derives blank)⟩
    simp [resultPieces]

theorem derives_name (name : Option String) :
    NameDerives (kinds (name.toList.map fun name => ⟨" ", .symbol name⟩)) name := by
  cases name with
  | none => exact .absent
  | some name => exact .present name

theorem derives_pieces {operation : OperationDecl}
    (split : Entry.split (Entry.join operation.operands operation.dependences) =
      (operation.operands, operation.dependences)) (blank : String) :
    OperationDecl.Derives (kinds (operation.pieces blank)) operation := by
  obtain ⟨results, name, operands, dependences, properties, dictionary⟩ := operation
  obtain ⟨before, shape, defined⟩ := exists_resultsDerive blank results
  have listed : Listed Entry.Derives .rightParen _ (Entry.join operands dependences) :=
    listed_commas (fun entry _ => entry.derives_pieces) "" "" .rightParen
  have derives := OperationDecl.Derives.declared defined (derives_name name) listed
    (Property.derives_optionalPieces properties) (derives_dictionaryPieces dictionary)
  simp only [split] at derives
  simpa [pieces, Entry.listPieces, shape] using derives

end OperationDecl

theorem OperatorTypeDecl.derives_pieces (declaration : OperatorTypeDecl) (blank : String) :
    OperatorTypeDecl.Derives (kinds (declaration.pieces blank)) declaration :=
  .declared declaration.name (Property.derives_optionalPieces declaration.properties)

namespace Instance

theorem Printable.derives_pieces {limit : Nat} {document : Instance}
    (printable : document.Printable limit) (indent : Nat) :
    Instance.Derives (kinds (document.pieces indent)) document := by
  have types : Repeated OperatorTypeDecl.Derives _ document.operatorTypes :=
    repeated_flatMap fun declaration _ => declaration.derives_pieces (margin indent)
  have operations : Repeated OperationDecl.Derives _ document.operations :=
    repeated_flatMap fun operation member => by
      have here := printable.operations operation member
      exact OperationDecl.derives_pieces (Entry.split_join here.inOrder here.marked)
        (margin indent)
  have derives := Instance.Derives.document document.name document.problem
    (Property.derives_optionalPieces document.properties) types operations
  simpa [pieces] using derives

theorem Printable.fits {limit : Nat} {document : Instance} (printable : document.Printable limit) :
    document.Fits limit := by
  have list {properties : Option (List Property)}
      (printable : Property.ListPrintable limit properties) : Property.ListFits limit properties :=
    fun property member => (printable property member).2
  refine ⟨list printable.properties,
    fun declaration member => list (printable.operatorTypes declaration member), ?_⟩
  intro operation member
  have here := printable.operations operation member
  exact ⟨fun record present => list (here.records record present), list here.properties,
    fun entry present value found => ((here.dictionary entry present).2 value found).2⟩

/-- A document is read back from its layout. -/
theorem read_pieces {limit : Nat} {document : Instance} (printable : document.Printable limit)
    (indent : Nat) : Instance.read limit (kinds (document.pieces indent)) = .ok document :=
  read_eq_ok_iff.mpr ⟨printable.derives_pieces indent, printable.fits⟩

end Instance

end StaticScheduling
