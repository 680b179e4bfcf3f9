import StaticScheduling.Proofs.Instance.Printing
import StaticScheduling.Proofs.Token.Scanning

/-! # Documents in texts can be written

A document that was read from a text is printable, however the text spells it.
Its names come from tokens, so they have a spelling; its properties nest no
deeper than the reader allows; and its dependence records come from an operand
list, in order if they passed the check.
-/

namespace StaticScheduling

open Phrase

/-- Token kinds all of which have a spelling of their own. -/
def AllWritable (kinds : List TokenKind) : Prop := ∀ kind ∈ kinds, kind.Writable

namespace AllWritable

variable {kind : TokenKind} {kinds taken : List TokenKind}

theorem head (writable : AllWritable (kind :: kinds)) : kind.Writable := writable kind (.head _)

theorem tail (writable : AllWritable (kind :: kinds)) : AllWritable kinds :=
  fun kind present => writable kind (.tail _ present)

theorem mono (writable : AllWritable kinds) (within : taken ⊆ kinds) : AllWritable taken :=
  fun kind present => writable kind (within present)

end AllWritable

/-! ## Properties -/

mutual

theorem Property.wellNamed_of_derives (property : Property) {kinds : List TokenKind}
    (derives : Property.Derives kinds property) (writable : AllWritable kinds) :
    property.WellNamed := by
  cases derives with
  | plain dialect mnemonic => exact ⟨writable.head, trivial⟩
  | @applied dialect mnemonic inner parameters inside =>
    refine ⟨writable.head, Parameter.allWellNamed_iff.mpr ?_⟩
    intro parameter member
    obtain ⟨taken, derives, within⟩ := inside.exists_of_mem member
    have insideWritable := writable.tail.tail.mono (List.subset_append_left _ _)
    exact Parameter.wellNamed_of_derives parameter derives (insideWritable.mono within)
termination_by sizeOf property

theorem Parameter.wellNamed_of_derives (parameter : Parameter) {kinds : List TokenKind}
    (derives : Parameter.Derives kinds parameter) (writable : AllWritable kinds) :
    parameter.WellNamed := by
  cases derives with
  | integer number => trivial
  | symbol name => trivial
  | string text => trivial
  | property derives => exact Property.wellNamed_of_derives _ derives writable
termination_by sizeOf parameter

end

theorem Property.OptionalListDerives.listPrintable {limit : Nat} {kinds : List TokenKind}
    {properties : Option (List Property)}
    (derives : Property.OptionalListDerives kinds properties) (writable : AllWritable kinds)
    (fits : Property.ListFits limit properties) : Property.ListPrintable limit properties := by
  intro property member
  refine ⟨?_, fits property member⟩
  cases derives with
  | absent => cases member
  | present listed =>
    obtain ⟨taken, derives, within⟩ := listed.exists_of_mem member
    exact property.wellNamed_of_derives derives (writable.tail.mono within)

/-! ## Operand lists and dictionaries -/

namespace Entry

theorem exists_value_of_mem_operands {entries : List Entry} {name : String}
    (member : name ∈ operands entries) : ∃ properties, .value name properties ∈ entries := by
  induction entries with
  | nil => cases member
  | cons entry entries inductionHypothesis =>
    cases entry with
    | value first properties =>
      rcases List.mem_cons.mp member with rfl | member
      · exact ⟨properties, .head _⟩
      · obtain ⟨properties, present⟩ := inductionHypothesis member
        exact ⟨properties, .tail _ present⟩
    | symbol first properties =>
      obtain ⟨properties, present⟩ := inductionHypothesis member
      exact ⟨properties, .tail _ present⟩

/-- An operand without a property list has no record. -/
theorem marked_of_mem_records {entries : List Entry} {number : Nat} {record : DependenceRecord}
    (member : record ∈ records number entries) :
    record.slot.isNamed ∨ record.properties.isSome := by
  induction entries generalizing number with
  | nil => cases member
  | cons entry entries inductionHypothesis =>
    match entry with
    | .value name none => exact inductionHypothesis member
    | .value name (some properties) =>
      rcases List.mem_cons.mp member with rfl | member
      · exact .inr rfl
      · exact inductionHypothesis member
    | .symbol name properties =>
      rcases List.mem_cons.mp member with rfl | member
      · exact .inl rfl
      · exact inductionHypothesis member

theorem Derives.listPrintable {limit : Nat} {kinds : List TokenKind} {entry : Entry}
    (derives : Entry.Derives kinds entry) (writable : AllWritable kinds)
    (fits : Property.ListFits limit entry.properties) :
    Property.ListPrintable limit entry.properties := by
  cases derives with
  | value name behind => exact behind.listPrintable writable.tail fits
  | symbol name behind => exact behind.listPrintable writable.tail fits

end Entry

namespace DictionaryEntry

theorem Names.isIdentifier {key : TokenKind} {name : String} (names : Names key name)
    (writable : key.Writable) : isIdentifier name := by
  cases names with
  | identifier name => exact writable.1
  | keyword word => cases word <;> decide

theorem Derives.printable {limit : Nat} {kinds : List TokenKind} {entry : DictionaryEntry}
    (derives : DictionaryEntry.Derives kinds entry) (writable : AllWritable kinds)
    (fits : entry.Fits limit) : entry.Printable limit := by
  cases derives with
  | bare names => exact ⟨names.isIdentifier writable.head, nofun⟩
  | bound names derives =>
    refine ⟨names.isIdentifier writable.head, ?_⟩
    rintro _ ⟨⟩
    exact ⟨Parameter.wellNamed_of_derives _ derives writable.tail.tail, fits _ rfl⟩

theorem OptionalListDerives.printable {limit : Nat} {kinds : List TokenKind}
    {entries : List DictionaryEntry} (derives : OptionalListDerives kinds entries)
    (writable : AllWritable kinds) (fits : ∀ entry ∈ entries, DictionaryEntry.Fits limit entry) :
    ∀ entry ∈ entries, DictionaryEntry.Printable limit entry := by
  intro entry member
  cases derives with
  | absent => cases member
  | present listed =>
    obtain ⟨taken, derives, within⟩ := listed.exists_of_mem member
    exact derives.printable (writable.tail.mono within) (fits entry member)

end DictionaryEntry

/-! ## Declarations -/

namespace OperationDecl

theorem ResultsDerive.isNamePart {kinds : List TokenKind} {results : List String}
    (derives : ResultsDerive kinds results) (writable : AllWritable kinds) :
    ∀ name ∈ results, IsNamePart name := by
  intro name member
  cases derives with
  | absent => cases member
  | present separated =>
    obtain ⟨taken, ⟨name⟩, within⟩ := separated.exists_of_mem member
    exact ((writable.mono (List.subset_append_left _ _)).mono within).head

theorem Derives.printable {limit : Nat} {kinds : List TokenKind} {operation : OperationDecl}
    (derives : OperationDecl.Derives kinds operation) (writable : AllWritable kinds)
    (fits : operation.Fits limit)
    (inOrder : recordFault? operation.operands.length operation.dependences = none) :
    operation.Printable limit := by
  cases derives with
  | @declared resultKinds nameKinds entryKinds propertyKinds dictionaryKinds results name entries
      properties dictionary defined named listed behind last =>
    simp only [AllWritable, List.forall_mem_append, List.forall_mem_cons] at writable
    obtain ⟨resultsWritable, _, _, _, entriesWritable, propertiesWritable, dictionaryWritable⟩ :=
      writable
    refine ⟨defined.isNamePart resultsWritable, ?_, inOrder, fun record member =>
      Entry.marked_of_mem_records member, ?_, behind.listPrintable propertiesWritable
        fits.properties, last.printable dictionaryWritable fits.dictionary⟩
    · intro name used
      obtain ⟨properties, member⟩ := Entry.exists_value_of_mem_operands used
      obtain ⟨taken, derives, within⟩ := listed.exists_of_mem member
      cases derives
      exact (AllWritable.mono entriesWritable within).head
    · refine (Entry.forall_records_iff (Property.listPrintable_none limit)).mpr fun entry member => ?_
      obtain ⟨taken, derives, within⟩ := listed.exists_of_mem member
      exact derives.listPrintable (AllWritable.mono entriesWritable within)
        ((Entry.forall_records_iff (Property.listFits_none limit)).mp fits.records entry member)

end OperationDecl

theorem OperatorTypeDecl.Derives.listPrintable {limit : Nat} {kinds : List TokenKind}
    {declaration : OperatorTypeDecl} (derives : OperatorTypeDecl.Derives kinds declaration)
    (writable : AllWritable kinds) (fits : Property.ListFits limit declaration.properties) :
    Property.ListPrintable limit declaration.properties := by
  obtain ⟨name, behind⟩ := derives
  exact behind.listPrintable writable.tail.tail fits

namespace Instance

theorem Derives.printable {limit : Nat} {kinds : List TokenKind} {document : Instance}
    (derives : Instance.Derives kinds document) (writable : AllWritable kinds)
    (fits : document.Fits limit) (checked : document.checkAllRecords = .ok ()) :
    document.Printable limit := by
  have inOrder := checkAllRecords_eq_ok_iff.mp checked
  cases derives with
  | @document name problem propertyKinds typeKinds operationKinds properties operatorTypes
      operations behind types more =>
    simp only [AllWritable, List.forall_mem_append, List.forall_mem_cons] at writable
    obtain ⟨_, _, _, _, propertiesWritable, _, typesWritable, operationsWritable, _⟩ := writable
    refine ⟨behind.listPrintable propertiesWritable fits.properties, ?_, ?_⟩
    · intro declaration member
      obtain ⟨taken, derives, within⟩ := types.exists_of_mem member
      exact derives.listPrintable (AllWritable.mono typesWritable within)
        (fits.operatorTypes declaration member)
    · intro operation member
      obtain ⟨taken, derives, within⟩ := more.exists_of_mem member
      exact derives.printable (AllWritable.mono operationsWritable within)
        (fits.operations operation member) (inOrder operation member)

/-- The tokens of a loaded text have a spelling. -/
theorem allWritable_of_loadTokens {settings : ParserSettings} {source : String}
    {stream : TokenStream} (loads : loadTokens settings source = .ok stream) :
    AllWritable stream.kinds := by
  obtain ⟨whole, lexes, dropped⟩ := bind_eq_ok_iff.mp loads
  rw [TokenStream.kinds_withoutComments dropped]
  intro kind member
  exact TokenStream.writable_of_ofText lexes kind (List.mem_filter.mp member).1

/-- A document that a text holds is printable. -/
theorem printable_of_ofText {settings : ParserSettings} {source : String} {document : Instance}
    (holds : Instance.ofText source settings = .ok document) :
    document.Printable settings.nestingLimit := by
  obtain ⟨parses, checked⟩ := ofText_eq_ok_iff.mp holds
  obtain ⟨stream, loads, read⟩ := InstanceParser.parse_eq_ok_iff.mp parses
  obtain ⟨derives, fits⟩ := read_eq_ok_iff.mp read
  exact derives.printable (allWritable_of_loadTokens loads) fits checked

end Instance

end StaticScheduling
