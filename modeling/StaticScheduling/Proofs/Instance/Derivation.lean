import StaticScheduling.Proofs.Instance.Printable

/-! # The language of instance text

The grammar of documents as a relation between token kinds and what they say,
rule by rule and apart from how it is read.  A rule says nothing about what
stands around a phrase, nor how deep properties may nest.
-/

namespace StaticScheduling

/-- The phrases of a kind: token kinds with what they say. -/
abbrev Phrase (α : Type) := List TokenKind → α → Prop

namespace Phrase

variable {α : Type}

/-- Phrases with a comma between each two, at least one. -/
inductive Separated (item : Phrase α) : Phrase (List α) where
  | last {kinds : List TokenKind} {value : α} (only : item kinds value) :
      Separated item kinds [value]
  | more {kinds rest : List TokenKind} {value : α} {values : List α} (first : item kinds value)
      (others : Separated item rest values) :
      Separated item (kinds ++ .delimiter .comma :: rest) (value :: values)

/-- Phrases with a comma between each two up to a closing mark; there may be none. -/
inductive Listed (item : Phrase α) (close : Delimiter) : Phrase (List α) where
  | empty : Listed item close [.delimiter close] []
  | items {kinds : List TokenKind} {values : List α} (separated : Separated item kinds values) :
      Listed item close (kinds ++ [.delimiter close]) values

/-- Phrases one behind the other. -/
inductive Repeated (item : Phrase α) : Phrase (List α) where
  | nil : Repeated item [] []
  | cons {kinds rest : List TokenKind} {value : α} {values : List α} (first : item kinds value)
      (others : Repeated item rest values) : Repeated item (kinds ++ rest) (value :: values)

variable {item : Phrase α} {kinds : List TokenKind} {values : List α} {value : α}

/-- A list of phrases starts with a phrase. -/
theorem Separated.exists_append (derives : Separated item kinds values) :
    ∃ taken value rest, item taken value ∧ kinds = taken ++ rest := by
  cases derives with
  | last only => exact ⟨_, _, [], only, (List.append_nil _).symm⟩
  | more first others => exact ⟨_, _, _, first, rfl⟩

/-- Each value in a list is what some of the kinds say. -/
theorem Separated.exists_of_mem (derives : Separated item kinds values) (member : value ∈ values) :
    ∃ taken, item taken value ∧ taken ⊆ kinds := by
  induction derives with
  | last only =>
    obtain rfl := List.mem_singleton.mp member
    exact ⟨_, only, List.Subset.refl _⟩
  | more first others inductionHypothesis =>
    rcases List.mem_cons.mp member with rfl | member
    · exact ⟨_, first, List.subset_append_left _ _⟩
    · obtain ⟨taken, here, within⟩ := inductionHypothesis member
      exact ⟨taken, here, fun _ present => List.mem_append_right _ (.tail _ (within present))⟩

theorem Listed.exists_of_mem {close : Delimiter} (derives : Listed item close kinds values)
    (member : value ∈ values) : ∃ taken, item taken value ∧ taken ⊆ kinds := by
  cases derives with
  | empty => cases member
  | items separated =>
    obtain ⟨taken, here, within⟩ := separated.exists_of_mem member
    exact ⟨taken, here, fun _ present => List.mem_append_left _ (within present)⟩

theorem Repeated.exists_of_mem (derives : Repeated item kinds values) (member : value ∈ values) :
    ∃ taken, item taken value ∧ taken ⊆ kinds := by
  induction derives with
  | nil => cases member
  | cons first others inductionHypothesis =>
    rcases List.mem_cons.mp member with rfl | member
    · exact ⟨_, first, List.subset_append_left _ _⟩
    · obtain ⟨taken, here, within⟩ := inductionHypothesis member
      exact ⟨taken, here, fun _ present => List.mem_append_right _ (within present)⟩

end Phrase

open Phrase

/-! ## Properties -/

mutual

/-- `property := #dialect.mnemonic ('<' parameter (',' parameter)* '>')?` -/
inductive Property.Derives : Phrase Property where
  | plain (dialect mnemonic : String) :
      Property.Derives [.attribute dialect mnemonic] ⟨dialect, mnemonic, []⟩
  | applied (dialect mnemonic : String) {inner : List TokenKind} {parameters : List Parameter}
      (inside : Separated Parameter.Derives inner parameters) :
      Property.Derives (.attribute dialect mnemonic :: .delimiter .leftAngle ::
        (inner ++ [.delimiter .rightAngle])) ⟨dialect, mnemonic, parameters⟩

/-- `parameter := integer | @symbol | "string" | property` -/
inductive Parameter.Derives : Phrase Parameter where
  | integer (number : Int64) : Parameter.Derives [.integer number] (.integer number)
  | symbol (name : String) : Parameter.Derives [.symbol name] (.symbol name)
  | string (text : String) : Parameter.Derives [.string text] (.string text)
  | property {kinds : List TokenKind} {nested : Property} (derives : Property.Derives kinds nested) :
      Parameter.Derives kinds (.property nested)

end

/-- `properties? := ('[' (property (',' property)*)? ']')?` -/
inductive Property.OptionalListDerives : Phrase (Option (List Property)) where
  | absent : OptionalListDerives [] none
  | present {kinds : List TokenKind} {properties : List Property}
      (listed : Listed Property.Derives .rightBracket kinds properties) :
      OptionalListDerives (.delimiter .leftBracket :: kinds) (some properties)

/-! ## Operand lists and dictionaries -/

/-- `entry := (%value | @symbol) properties?` -/
inductive Entry.Derives : Phrase Entry where
  | value (name : String) {kinds : List TokenKind} {properties : Option (List Property)}
      (behind : Property.OptionalListDerives kinds properties) :
      Derives (.value name :: kinds) (.value name properties)
  | symbol (name : String) {kinds : List TokenKind} {properties : Option (List Property)}
      (behind : Property.OptionalListDerives kinds properties) :
      Derives (.symbol name :: kinds) (.symbol name properties)

namespace DictionaryEntry

/-- The name that a key of a dictionary stands for; reserved words are names here. -/
inductive Names : TokenKind → String → Prop where
  | identifier (name : String) : Names (.identifier name) name
  | keyword (word : Keyword) : Names (.keyword word) word.spelling

/-- `key ('=' parameter)?` -/
inductive Derives : Phrase DictionaryEntry where
  | bare {key : TokenKind} {name : String} (names : Names key name) : Derives [key] ⟨name, none⟩
  | bound {key : TokenKind} {name : String} {kinds : List TokenKind} {value : Parameter}
      (names : Names key name) (derives : Parameter.Derives kinds value) :
      Derives (key :: .delimiter .equals :: kinds) ⟨name, some value⟩

/-- `dictionary? := ('{' (key ('=' parameter)? (',' key ('=' parameter)?)*)? '}')?` -/
inductive OptionalListDerives : Phrase (List DictionaryEntry) where
  | absent : OptionalListDerives [] []
  | present {kinds : List TokenKind} {entries : List DictionaryEntry}
      (listed : Listed Derives .rightBrace kinds entries) :
      OptionalListDerives (.delimiter .leftBrace :: kinds) entries

end DictionaryEntry

/-! ## Declarations -/

/-- `type := 'operator_type' @name properties?` -/
inductive OperatorTypeDecl.Derives : Phrase OperatorTypeDecl where
  | declared (name : String) {kinds : List TokenKind} {properties : Option (List Property)}
      (behind : Property.OptionalListDerives kinds properties) :
      Derives (.keyword .operatorTypeWord :: .symbol name :: kinds) ⟨name, properties⟩

namespace OperationDecl

/-- `%v` -/
inductive ResultDerives : Phrase String where
  | value (name : String) : ResultDerives [.value name] name

/-- `(%v (',' %v)* '=')?` -/
inductive ResultsDerive : Phrase (List String) where
  | absent : ResultsDerive [] []
  | present {kinds : List TokenKind} {results : List String}
      (separated : Separated ResultDerives kinds results) :
      ResultsDerive (kinds ++ [.delimiter .equals]) results

/-- `@name?` -/
inductive NameDerives : Phrase (Option String) where
  | absent : NameDerives [] none
  | present (name : String) : NameDerives [.symbol name] (some name)

/-- `operation := results? 'operation' @name? '(' entries? ')' properties? dictionary?`, where the
entries give the operands and the records of the operation. -/
inductive Derives : Phrase OperationDecl where
  | declared {resultKinds nameKinds entryKinds propertyKinds dictionaryKinds : List TokenKind}
      {results : List String} {name : Option String} {entries : List Entry}
      {properties : Option (List Property)} {dictionary : List DictionaryEntry}
      (defined : ResultsDerive resultKinds results) (named : NameDerives nameKinds name)
      (listed : Listed Entry.Derives .rightParen entryKinds entries)
      (behind : Property.OptionalListDerives propertyKinds properties)
      (last : DictionaryEntry.OptionalListDerives dictionaryKinds dictionary) :
      Derives
        (resultKinds ++ .keyword .operationWord :: (nameKinds ++ .delimiter .leftParen ::
          (entryKinds ++ (propertyKinds ++ dictionaryKinds))))
        ⟨results, name, (Entry.split entries).1, (Entry.split entries).2, properties, dictionary⟩

end OperationDecl

/-- `instance := 'instance' @name 'of' "problem" properties? '{' type* operation* '}'` -/
inductive Instance.Derives : Phrase Instance where
  | document (name problem : String) {propertyKinds typeKinds operationKinds : List TokenKind}
      {properties : Option (List Property)} {operatorTypes : List OperatorTypeDecl}
      {operations : List OperationDecl}
      (behind : Property.OptionalListDerives propertyKinds properties)
      (types : Repeated OperatorTypeDecl.Derives typeKinds operatorTypes)
      (more : Repeated OperationDecl.Derives operationKinds operations) :
      Derives
        (.keyword .instanceWord :: .symbol name :: .keyword .ofWord :: .string problem ::
          (propertyKinds ++ .delimiter .leftBrace ::
            (typeKinds ++ (operationKinds ++ [.delimiter .rightBrace]))))
        ⟨name, problem, properties, operatorTypes, operations⟩

/-! ## Nesting -/

/-- The properties of a list nest no deeper than a limit. -/
def Property.ListFits (limit : Nat) (properties : Option (List Property)) : Prop :=
  ∀ property ∈ properties.getD [], property.depth ≤ limit

theorem Property.listFits_none (limit : Nat) : Property.ListFits limit none := by
  simp [Property.ListFits]

/-- A dictionary entry whose value nests no deeper than a limit. -/
def DictionaryEntry.Fits (limit : Nat) (entry : DictionaryEntry) : Prop :=
  ∀ value ∈ entry.value, value.depth ≤ limit

/-- An operation in which nothing nests deeper than a limit. -/
structure OperationDecl.Fits (limit : Nat) (operation : OperationDecl) : Prop where
  records : ∀ record ∈ operation.dependences, Property.ListFits limit record.properties
  properties : Property.ListFits limit operation.properties
  dictionary : ∀ entry ∈ operation.dictionary, entry.Fits limit

/-- A document in which nothing nests deeper than a limit. -/
structure Instance.Fits (limit : Nat) (document : Instance) : Prop where
  properties : Property.ListFits limit document.properties
  operatorTypes : ∀ declaration ∈ document.operatorTypes,
    Property.ListFits limit declaration.properties
  operations : ∀ operation ∈ document.operations, operation.Fits limit

/-- The greatest of some depths, zero if there is none. -/
def greatest (depths : List Nat) : Nat := depths.foldr max 0

theorem greatest_le_iff {depths : List Nat} {bound : Nat} :
    greatest depths ≤ bound ↔ ∀ depth ∈ depths, depth ≤ bound := by
  induction depths with
  | nil => simp [greatest]
  | cons first rest inductionHypothesis =>
    rw [List.forall_mem_cons, ← inductionHypothesis]
    exact Nat.max_le

def Property.listDepth (properties : Option (List Property)) : Nat :=
  greatest ((properties.getD []).map Property.depth)

theorem Property.listDepth_le_iff {properties : Option (List Property)} {limit : Nat} :
    Property.listDepth properties ≤ limit ↔ Property.ListFits limit properties := by
  rw [Property.listDepth, greatest_le_iff, List.forall_mem_map]
  rfl

def OperationDecl.depth (operation : OperationDecl) : Nat :=
  greatest (Property.listDepth operation.properties ::
    (operation.dependences.map (fun record => Property.listDepth record.properties) ++
      operation.dictionary.map fun entry => entry.value.elim 0 Parameter.depth))

theorem OperationDecl.depth_le_iff {operation : OperationDecl} {limit : Nat} :
    operation.depth ≤ limit ↔ operation.Fits limit := by
  have value (entry : DictionaryEntry) :
      entry.value.elim 0 Parameter.depth ≤ limit ↔ entry.Fits limit := by
    unfold DictionaryEntry.Fits
    cases entry.value <;> simp
  rw [OperationDecl.depth, greatest_le_iff, List.forall_mem_cons, List.forall_mem_append,
    List.forall_mem_map, List.forall_mem_map]
  simp only [Property.listDepth_le_iff, value]
  exact ⟨fun ⟨properties, records, dictionary⟩ => ⟨records, properties, dictionary⟩,
    fun fits => ⟨fits.properties, fits.records, fits.dictionary⟩⟩

/-- How deep the properties of a document nest. -/
def Instance.depth (document : Instance) : Nat :=
  greatest (Property.listDepth document.properties ::
    (document.operatorTypes.map (fun declaration => Property.listDepth declaration.properties) ++
      document.operations.map OperationDecl.depth))

theorem Instance.depth_le_iff {document : Instance} {limit : Nat} :
    document.depth ≤ limit ↔ document.Fits limit := by
  rw [Instance.depth, greatest_le_iff, List.forall_mem_cons, List.forall_mem_append,
    List.forall_mem_map, List.forall_mem_map]
  simp only [Property.listDepth_le_iff, OperationDecl.depth_le_iff]
  exact ⟨fun ⟨properties, operatorTypes, operations⟩ => ⟨properties, operatorTypes, operations⟩,
    fun fits => ⟨fits.properties, fits.operatorTypes, fits.operations⟩⟩

end StaticScheduling
