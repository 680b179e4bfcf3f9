import StaticScheduling.Instance.Entry
import StaticScheduling.Proofs.Token.Spelling

/-! # Printable documents

A document can be written and read back if its names have a spelling, its
properties do not nest deeper than the reader allows, and its dependence records
are those of an operand list.
-/

namespace StaticScheduling

mutual

/-- How deep a property nests; one without parameters has depth one. -/
def Property.depth : Property → Nat
  | ⟨_, _, parameters⟩ => Parameter.listDepth parameters + 1

/-- How deep the properties in a parameter nest. -/
def Parameter.depth : Parameter → Nat
  | .property nested => nested.depth
  | .integer _ | .symbol _ | .string _ => 0

/-- How deep the properties in a list of parameters nest, neighbours not adding up. -/
def Parameter.listDepth : List Parameter → Nat
  | [] => 0
  | parameter :: rest => max parameter.depth (Parameter.listDepth rest)

end

mutual

/-- A property whose name, and the names of the properties in it, can be written: a dialect is an
identifier without a dot, a mnemonic goes on an identifier. -/
def Property.WellNamed : Property → Prop
  | ⟨dialect, mnemonic, parameters⟩ =>
    (TokenKind.attribute dialect mnemonic).Writable ∧ Parameter.AllWellNamed parameters

/-- A parameter that is no badly named property. -/
def Parameter.WellNamed : Parameter → Prop
  | .property nested => nested.WellNamed
  | .integer _ | .symbol _ | .string _ => True

/-- Parameters none of which is a badly named property. -/
def Parameter.AllWellNamed : List Parameter → Prop
  | [] => True
  | parameter :: rest => parameter.WellNamed ∧ Parameter.AllWellNamed rest

end

theorem Parameter.listDepth_le_iff {parameters : List Parameter} {bound : Nat} :
    Parameter.listDepth parameters ≤ bound ↔
      ∀ parameter ∈ parameters, parameter.depth ≤ bound := by
  induction parameters with
  | nil => simp [Parameter.listDepth]
  | cons first rest inductionHypothesis =>
    rw [Parameter.listDepth, Nat.max_le, inductionHypothesis, List.forall_mem_cons]

theorem Parameter.allWellNamed_iff {parameters : List Parameter} :
    Parameter.AllWellNamed parameters ↔ ∀ parameter ∈ parameters, parameter.WellNamed := by
  induction parameters with
  | nil => simp [Parameter.AllWellNamed]
  | cons first rest inductionHypothesis =>
    rw [Parameter.AllWellNamed, inductionHypothesis, List.forall_mem_cons]

mutual

/-- It is decidable whether a property is well named, by going through the properties in it. -/
def Property.decideWellNamed : (property : Property) → Decidable property.WellNamed
  | ⟨dialect, mnemonic, parameters⟩ =>
    match Parameter.decideAllWellNamed parameters with
    | .isTrue named =>
      if writable : (TokenKind.attribute dialect mnemonic).Writable then
        .isTrue (by rw [Property.WellNamed]; exact ⟨writable, named⟩)
      else
        .isFalse (by rw [Property.WellNamed]; exact fun both => writable both.1)
    | .isFalse unnamed => .isFalse (by rw [Property.WellNamed]; exact fun both => unnamed both.2)

/-- It is decidable whether a parameter is well named. -/
def Parameter.decideWellNamed : (parameter : Parameter) → Decidable parameter.WellNamed
  | .property nested => nested.decideWellNamed
  | .integer _ => .isTrue trivial
  | .symbol _ => .isTrue trivial
  | .string _ => .isTrue trivial

/-- It is decidable whether all parameters of a list are well named. -/
def Parameter.decideAllWellNamed :
    (parameters : List Parameter) → Decidable (Parameter.AllWellNamed parameters)
  | [] => .isTrue trivial
  | parameter :: rest =>
    match parameter.decideWellNamed, Parameter.decideAllWellNamed rest with
    | .isTrue here, .isTrue there => .isTrue ⟨here, there⟩
    | .isFalse here, _ => .isFalse fun both => here both.1
    | _, .isFalse there => .isFalse fun both => there both.2

end

instance : DecidablePred Property.WellNamed := Property.decideWellNamed

instance : DecidablePred Parameter.WellNamed := Parameter.decideWellNamed

/-- A property that can be written and read back under a nesting limit. -/
def Property.Printable (limit : Nat) (property : Property) : Prop :=
  property.WellNamed ∧ property.depth ≤ limit

instance (limit : Nat) : DecidablePred (Property.Printable limit) := fun _ =>
  inferInstanceAs (Decidable (_ ∧ _))

/-- A property list, present or not, that can be written and read back. -/
def Property.ListPrintable (limit : Nat) (properties : Option (List Property)) : Prop :=
  ∀ property ∈ properties.getD [], property.Printable limit

instance (limit : Nat) : DecidablePred (Property.ListPrintable limit) := fun _ =>
  inferInstanceAs (Decidable (∀ property ∈ _, _))

theorem Property.listPrintable_none (limit : Nat) : Property.ListPrintable limit none := by
  simp [Property.ListPrintable]

/-- A dictionary entry that can be written and read back. -/
def DictionaryEntry.Printable (limit : Nat) (entry : DictionaryEntry) : Prop :=
  isIdentifier entry.name ∧ ∀ value ∈ entry.value, value.WellNamed ∧ value.depth ≤ limit

instance (limit : Nat) : DecidablePred (DictionaryEntry.Printable limit) := fun entry =>
  inferInstanceAs (Decidable (_ ∧ ∀ value ∈ entry.value, _))

/-- An operation that can be written and read back. -/
structure OperationDecl.Printable (limit : Nat) (operation : OperationDecl) : Prop where
  results : ∀ name ∈ operation.results, IsNamePart name
  operands : ∀ name ∈ operation.operands, IsNamePart name
  inOrder : recordFault? operation.operands.length operation.dependences = none
  /-- A record of an operand without a property list would be lost. -/
  marked : ∀ record ∈ operation.dependences, record.slot.isNamed ∨ record.properties.isSome
  records : ∀ record ∈ operation.dependences, Property.ListPrintable limit record.properties
  properties : Property.ListPrintable limit operation.properties
  dictionary : ∀ entry ∈ operation.dictionary, entry.Printable limit

instance (limit : Nat) : DecidablePred (OperationDecl.Printable limit) := fun operation =>
  decidable_of_iff
    ((∀ name ∈ operation.results, IsNamePart name) ∧ (∀ name ∈ operation.operands, IsNamePart name) ∧
      recordFault? operation.operands.length operation.dependences = none ∧
      (∀ record ∈ operation.dependences, record.slot.isNamed ∨ record.properties.isSome) ∧
      (∀ record ∈ operation.dependences, Property.ListPrintable limit record.properties) ∧
      Property.ListPrintable limit operation.properties ∧
      ∀ entry ∈ operation.dictionary, entry.Printable limit)
    ⟨fun ⟨results, operands, inOrder, marked, records, properties, dictionary⟩ =>
        ⟨results, operands, inOrder, marked, records, properties, dictionary⟩,
      fun printable => ⟨printable.results, printable.operands, printable.inOrder, printable.marked,
        printable.records, printable.properties, printable.dictionary⟩⟩

/-- A document that can be written and read back. -/
structure Instance.Printable (limit : Nat) (document : Instance) : Prop where
  properties : Property.ListPrintable limit document.properties
  operatorTypes : ∀ declaration ∈ document.operatorTypes,
    Property.ListPrintable limit declaration.properties
  operations : ∀ operation ∈ document.operations, operation.Printable limit

instance (limit : Nat) : DecidablePred (Instance.Printable limit) := fun document =>
  decidable_of_iff
    (Property.ListPrintable limit document.properties ∧
      (∀ declaration ∈ document.operatorTypes,
        Property.ListPrintable limit declaration.properties) ∧
      ∀ operation ∈ document.operations, operation.Printable limit)
    ⟨fun ⟨properties, operatorTypes, operations⟩ => ⟨properties, operatorTypes, operations⟩,
      fun printable => ⟨printable.properties, printable.operatorTypes, printable.operations⟩⟩

end StaticScheduling
