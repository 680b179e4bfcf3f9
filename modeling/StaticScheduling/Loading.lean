import StaticScheduling.Property.Builtin
import StaticScheduling.Verification

/-!
# Loading a document into a problem

Operator types and operations are declared in document order, so that operation
`i` of the problem is the `i`-th one of the document.  Dependences are added when
all operations are declared; they may name operations further down.
-/

namespace StaticScheduling

namespace Instance

def resolveOperation? (document : Instance) (name : String) : Option OperationId :=
  (document.findOperation? name).map fun found => ⟨found.1⟩

/-- The result that a value names. -/
def resolveValue? (document : Instance) (name : String) : Option Operand :=
  document.operations.zipIdx.findSome? fun (operation, position) =>
    (operation.results.idxOf? name).map fun result => ⟨⟨position⟩, result⟩

end Instance

namespace Loading

def declareOperatorTypes (kinds : ProblemKinds) :
    List OperatorTypeDecl → Problem → Except DocumentError Problem
  | [], problem => .ok problem
  | declaration :: rest, problem =>
    match problem.insertOperatorType ⟨declaration.name⟩ with
    | (false, _) => .error (.duplicateSymbol declaration.name)
    | (true, problem) => do
      let problem ← (PropertyKind.decodeOptional kinds.operatorType (⟨declaration.name⟩ : OperatorType)
        declaration.properties problem).toExcept
      declareOperatorTypes kinds rest problem

def checkName (names : List String) (problem : Problem) : Option String → Except DocumentError Unit
  | none => .ok ()
  | some name =>
    -- operator types are declared by now, so their names are taken
    if name ∈ names || problem.hasOperatorType ⟨name⟩ then .error (.duplicateSymbol name)
    else .ok ()

def checkResults (values results : List String) : Except DocumentError Unit :=
  match firstRepeated? values results with
  | some name => .error (.duplicateValue name)
  | none => .ok ()

/-- Declares operations behind others that used the given names and values. -/
def declareOperations (kinds : ProblemKinds) :
    (names values : List String) → List OperationDecl → Problem → Except DocumentError Problem
  | _, _, [], problem => .ok problem
  | names, values, declaration :: rest, problem => do
    checkName names problem declaration.name
    checkResults values declaration.results
    let (operation, problem) := problem.insertOperation declaration.results.length
    let problem ← (PropertyKind.decodeOptional kinds.operation operation declaration.properties
      problem).toExcept
    declareOperations kinds (declaration.name.toList ++ names) (declaration.results ++ values) rest
      problem

/-- The result that an operand of the operation `label` names. -/
def resolveOperand (document : Instance) (label name : String) : Except DocumentError Operand :=
  match document.resolveValue? name with
  | some operand => .ok operand
  | none => .error (.undefinedValue label name)

/-- The operation that a record of the operation `label` names. -/
def resolveSource (document : Instance) (label name : String) :
    Except DocumentError OperationId :=
  match document.resolveOperation? name with
  | some operation => .ok operation
  | none =>
    -- what the name stands for tells the two errors apart
    if (document.findOperatorType? name).isSome then
      .error (.wrongReferenceKind label name .operation .operatorType)
    else
      .error (.unknownReference label name .operation)

/-- The dependence that a record describes. -/
def recordDependence (document : Instance) (label : String) (operation : OperationId)
    (problem : Problem) : Slot → Except DocumentError Dependence
  | .operand index =>
    ProblemError.within (problem.dataDependence operation index) (.dependenceOf index label)
  | .named _ source => do
    let source ← resolveSource document label source
    .ok (.auxiliary source operation)

/-- Adds the dependence of a record, with its properties. -/
def addRecord (document : Instance) (kinds : ProblemKinds) (label : String)
    (operation : OperationId) (problem : Problem) (record : DependenceRecord) :
    Except DocumentError Problem := do
  let dependence ← recordDependence document label operation problem record.slot
  let problem ← ProblemError.within (problem.insertDependence dependence)
    (.dependenceOf record.slot.index label)
  (PropertyKind.decodeOptional kinds.dependence dependence record.properties problem).toExcept

/-- Adds the operands and the dependences of an operation. -/
def connectOperation (document : Instance) (kinds : ProblemKinds) (problem : Problem)
    (declaration : OperationDecl) (position : Nat) : Except DocumentError Problem := do
  let label := declaration.describe position
  let operands ← declaration.operands.mapM (resolveOperand document label)
  let problem ← ProblemError.within (problem.setOperands ⟨position⟩ operands) (.operandsOf label)
  -- operands come first, a record may be about one of them
  checkRecords label declaration.operands.length declaration.dependences
  declaration.dependences.foldlM (addRecord document kinds label ⟨position⟩) problem

end Loading

/-- The problem that a document describes, where the given kinds give properties their meaning. -/
def Instance.load (document : Instance) (kinds : ProblemKinds) : Except DocumentError Problem := do
  let problem := Problem.empty document.name document.problem
  let problem ←
    (PropertyKind.decodeOptional kinds.problem () document.properties problem).toExcept
  let problem ← Loading.declareOperatorTypes kinds document.operatorTypes problem
  let problem ← Loading.declareOperations kinds [] [] document.operations problem
  -- every operation has to be there before one is connected
  document.operations.zipIdx.foldlM
    (fun problem entry => Loading.connectOperation document kinds problem entry.1 entry.2) problem

end StaticScheduling
