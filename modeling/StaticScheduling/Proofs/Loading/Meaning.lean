import StaticScheduling.Proofs.Instance.Resolution
import StaticScheduling.Proofs.Property.Annotation

/-! # The problem a document means

Loading goes through a document three times and changes a problem as it goes.
Here the problem is written down at once, together with the problems that are
reached on the way: when some operator types are declared, when some operations
are declared, and when some operations are connected.  No property kind occurs
in them; the kinds only decide whether a document is loadable.
-/

namespace StaticScheduling

namespace Instance

variable (document : Instance)

/-! ## Operator types -/

/-- The properties that declarations give an operator type. -/
def propertiesOf (declarations : List OperatorTypeDecl) (operatorType : OperatorType) :
    List Property :=
  (declarations.filter fun declaration => declaration.name = operatorType.name).flatMap
    fun declaration => declaration.properties.getD []

/-- The problem when some operator types are declared. -/
def withOperatorTypes (declared : List OperatorTypeDecl) : Problem :=
  { Problem.empty document.name document.problem with
    initiationInterval :=
      Property.last? (Property.number? "II") (document.properties.getD [])
    operatorTypes := declared.map fun declaration => ⟨declaration.name⟩
    latencies := .ofFunction fun operatorType =>
      Property.last? (Property.number? "latency") (propertiesOf declared operatorType)
    limits := .ofFunction fun operatorType =>
      Property.last? (Property.number? "limit") (propertiesOf declared operatorType) }

/-! ## Operations -/

/-- The node of an operation that has no operands yet. -/
def declaredNode (declaration : OperationDecl) : Operation :=
  ⟨declaration.results.length, [], false, []⟩

/-- The problem when all operator types and some operations are declared. -/
def withOperations (declared : List OperationDecl) : Problem :=
  { document.withOperatorTypes document.operatorTypes with
    operations := declared.map declaredNode
    links := .ofFunction fun operation =>
      declared[operation.index]?.bind fun declaration =>
        Property.last? Property.link? (declaration.properties.getD [])
    startTimes := .ofFunction fun operation =>
      declared[operation.index]?.bind fun declaration =>
        Property.last? (Property.number? "start_time") (declaration.properties.getD []) }

/-! ## Dependences -/

/-- The node of an operation with its operands and the sources that its records name. -/
def connectedNode (declaration : OperationDecl) : Operation where
  results := declaration.results.length
  operands := declaration.operands.filterMap document.resolveValue?
  connected := true
  auxiliarySources := declaration.sources.filterMap document.resolveOperation?

/-- The dependence of an operation that a slot of its operand list stands for. -/
def dependenceAt? (operation : OperationId) (operands : List String) : Slot → Option Dependence
  | .operand index =>
    (operands[index]?.bind document.resolveValue?).map fun operand =>
      .data operand.source operand.result operation index
  | .named _ source =>
    (document.resolveOperation? source).map fun source => .auxiliary source operation

/-- The properties that the records of an operation give a dependence. -/
def propertiesAt (declaration : OperationDecl) (dependence : Dependence) : List Property :=
  (declaration.dependences.filter fun record =>
    document.dependenceAt? dependence.destination declaration.operands record.slot =
      some dependence).flatMap fun record => record.properties.getD []

/-- The problem when everything is declared and the first operations are connected, up to some that
are not. -/
def withDependences (connected rest : List OperationDecl) : Problem :=
  { document.withOperations document.operations with
    operations := connected.map document.connectedNode ++ rest.map declaredNode
    distances := .ofFunction fun dependence =>
      connected[dependence.destination.index]?.bind fun declaration =>
        Property.last? (Property.number? "distance")
          (document.propertiesAt declaration dependence) }

/-- The problem that a document means. -/
def meaning : Problem := document.withDependences document.operations []

/-! ## Loadable documents -/

open PropertyKind (Accepted)

/-- An operation whose operands and sources are defined, whose records are in order and name no
source twice, and whose dependences have properties that mean something. -/
structure Connectable (kinds : ProblemKinds) (declaration : OperationDecl) : Prop where
  operands : ∀ name ∈ declaration.operands, name ∈ document.values
  records : recordFault? declaration.operands.length declaration.dependences = none
  sources : ∀ name ∈ declaration.sources, name ∈ document.names
  distinct : declaration.sources.Nodup
  accepted : ∀ record ∈ declaration.dependences, Accepted kinds.dependence record.properties

instance (kinds : ProblemKinds) : DecidablePred (document.Connectable kinds) := fun declaration =>
  decidable_of_iff
    ((∀ name ∈ declaration.operands, name ∈ document.values) ∧
      recordFault? declaration.operands.length declaration.dependences = none ∧
      (∀ name ∈ declaration.sources, name ∈ document.names) ∧ declaration.sources.Nodup ∧
      ∀ record ∈ declaration.dependences, Accepted kinds.dependence record.properties)
    ⟨fun ⟨operands, records, sources, distinct, accepted⟩ =>
        ⟨operands, records, sources, distinct, accepted⟩,
      fun connectable => ⟨connectable.operands, connectable.records, connectable.sources,
        connectable.distinct, connectable.accepted⟩⟩

/-- A document that describes a problem: names are defined once and used in their meaning, records
are in order, and every property means something to the given kinds. -/
structure Loadable (kinds : ProblemKinds) : Prop where
  properties : Accepted kinds.problem document.properties
  operatorTypes : (document.operatorTypes.map OperatorTypeDecl.name).Nodup
  operatorTypeProperties : ∀ declaration ∈ document.operatorTypes,
    Accepted kinds.operatorType declaration.properties
  names : document.names.Nodup
  apart : ∀ name ∈ document.names, name ∉ document.operatorTypes.map OperatorTypeDecl.name
  values : document.values.Nodup
  operationProperties : ∀ declaration ∈ document.operations,
    Accepted kinds.operation declaration.properties
  connectable : ∀ declaration ∈ document.operations, document.Connectable kinds declaration

instance (kinds : ProblemKinds) : Decidable (document.Loadable kinds) :=
  decidable_of_iff
    (Accepted kinds.problem document.properties ∧
      (document.operatorTypes.map OperatorTypeDecl.name).Nodup ∧
      (∀ declaration ∈ document.operatorTypes,
        Accepted kinds.operatorType declaration.properties) ∧
      document.names.Nodup ∧
      (∀ name ∈ document.names, name ∉ document.operatorTypes.map OperatorTypeDecl.name) ∧
      document.values.Nodup ∧
      (∀ declaration ∈ document.operations, Accepted kinds.operation declaration.properties) ∧
      ∀ declaration ∈ document.operations, document.Connectable kinds declaration)
    ⟨fun ⟨properties, operatorTypes, operatorTypeProperties, names, apart, values,
          operationProperties, connectable⟩ =>
        ⟨properties, operatorTypes, operatorTypeProperties, names, apart, values,
          operationProperties, connectable⟩,
      fun loadable => ⟨loadable.properties, loadable.operatorTypes,
        loadable.operatorTypeProperties, loadable.names, loadable.apart, loadable.values,
        loadable.operationProperties, loadable.connectable⟩⟩

end Instance

end StaticScheduling
