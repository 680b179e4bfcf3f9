/-!
# Scheduling problems

A problem is a graph of operations.  Data dependences are implied by the
operands of an operation, auxiliary dependences only order two operations.
Properties are kept in assignments beside the graph.
-/

namespace StaticScheduling

/-- An operation of a problem, by its position. -/
structure OperationId where
  index : Nat
deriving DecidableEq, Repr, Inhabited

def OperationId.text (operation : OperationId) : String := "operation#" ++ toString operation.index

/-- A kind of operator, by its name. -/
structure OperatorType where
  name : String
deriving DecidableEq, Repr, Inhabited

/-- An operator type in messages, always without quotes. -/
def OperatorType.text (operatorType : OperatorType) : String := "@" ++ operatorType.name

/-- A result of an operation, used as an operand. -/
structure Operand where
  source : OperationId
  result : Nat
deriving DecidableEq, Repr, Inhabited

/-- An edge of the graph. -/
inductive Dependence where
  /-- A result of the source is an operand of the destination. -/
  | data (source : OperationId) (result : Nat) (destination : OperationId) (operand : Nat)
  /-- The destination comes after the source. -/
  | auxiliary (source destination : OperationId)
deriving DecidableEq, Repr, Inhabited

namespace Dependence

def source : Dependence → OperationId
  | .data source _ _ _ => source
  | .auxiliary source _ => source

def destination : Dependence → OperationId
  | .data _ _ destination _ => destination
  | .auxiliary _ destination => destination

/-- The operand of the destination that a data edge feeds. -/
def operand? : Dependence → Option Nat
  | .data _ _ _ operand => some operand
  | .auxiliary _ _ => none

def isData : Dependence → Bool
  | .data _ _ _ _ => true
  | .auxiliary _ _ => false

/-- Whether an edge merely orders two operations. -/
def isAuxiliary (dependence : Dependence) : Bool := !dependence.isData

/-- An edge in messages. -/
def text : Dependence → String
  | .data source result destination operand =>
    source.text ++ ":" ++ toString result ++ " -> " ++ destination.text ++ "[" ++ toString operand
      ++ "]"
  | .auxiliary source destination => source.text ++ " -> " ++ destination.text ++ " (aux)"

end Dependence

structure Operation where
  /-- How many values it produces. -/
  results : Nat
  operands : List Operand
  /-- Whether the operands were set. -/
  connected : Bool
  /-- The operations it comes after, in the order they were added. -/
  auxiliarySources : List OperationId
deriving DecidableEq, Repr, Inhabited

/-- Values given to keys. -/
def Assignment (Key Value : Type) : Type := Key → Option Value

namespace Assignment

variable {Key Value : Type}

def empty : Assignment Key Value := fun _ => none

instance : EmptyCollection (Assignment Key Value) := ⟨empty⟩

instance : Inhabited (Assignment Key Value) := ⟨empty⟩

def get? (assignment : Assignment Key Value) (key : Key) : Option Value := assignment key

/-- Gives a key a value, in place of the one it had. -/
def set [DecidableEq Key] (assignment : Assignment Key Value) (key : Key) (value : Value) :
    Assignment Key Value :=
  fun other => if other = key then some value else assignment other

@[simp] theorem get?_empty (key : Key) : (∅ : Assignment Key Value).get? key = none := rfl

theorem get?_set [DecidableEq Key] (assignment : Assignment Key Value) (key other : Key)
    (value : Value) :
    (assignment.set key value).get? other =
      if other = key then some value else assignment.get? other := rfl

@[simp] theorem get?_set_self [DecidableEq Key] (assignment : Assignment Key Value) (key : Key)
    (value : Value) : (assignment.set key value).get? key = some value := by
  simp only [get?_set, if_true]

theorem get?_set_of_ne [DecidableEq Key] (assignment : Assignment Key Value) {key other : Key}
    (value : Value) (different : other ≠ key) :
    (assignment.set key value).get? other = assignment.get? other := by
  simp only [get?_set, if_neg different]

@[ext] theorem ext {first second : Assignment Key Value}
    (same : ∀ key, first.get? key = second.get? key) : first = second := funext same

end Assignment

structure Problem where
  instanceName : String
  problemName : String
  operatorTypes : List OperatorType
  operations : List Operation
  initiationInterval : Option UInt32
  latencies : Assignment OperatorType UInt32
  limits : Assignment OperatorType UInt32
  links : Assignment OperationId OperatorType
  startTimes : Assignment OperationId UInt32
  distances : Assignment Dependence UInt32
deriving Inhabited

/-- Why a problem refuses a change or is not ready. -/
inductive ProblemError where
  | unknownOperation (operation : OperationId)
  | operandOutOfRange (operation : OperationId) (operand operands : Nat)
  | resultOutOfRange (operation : OperationId) (result results : Nat)
  | operandsAlreadySet (operation : OperationId)
  | duplicateDependence (source destination : OperationId)
  | unknownDependence (dependence : Dependence)
  | unlinkedOperation (operation : OperationId)
  | unregisteredOperatorType (operation : OperationId) (operatorType : OperatorType)
  | missingLatency (operatorType : OperatorType)
  | zeroDistanceCycle (operation : OperationId)
deriving DecidableEq, Repr, Inhabited

def ProblemError.message : ProblemError → String
  | .unknownOperation operation => "Unknown operation " ++ operation.text
  | .operandOutOfRange operation operand operands =>
    "Operand " ++ toString operand ++ " of " ++ operation.text ++ " is out of range ("
      ++ toString operands ++ " operands)"
  | .resultOutOfRange operation result results =>
    "Result " ++ toString result ++ " of " ++ operation.text ++ " is out of range ("
      ++ toString results ++ " results)"
  | .operandsAlreadySet operation => "Operands of " ++ operation.text ++ " are already connected"
  | .duplicateDependence source destination =>
    "Duplicate auxiliary dependence from " ++ source.text ++ " to " ++ destination.text
  | .unknownDependence dependence =>
    "Dependence " ++ dependence.text ++ " is not part of the problem"
  | .unlinkedOperation operation =>
    "Operation " ++ operation.text ++ " is not linked to an operator type"
  | .unregisteredOperatorType operation operatorType =>
    "Operation " ++ operation.text ++ " is linked to unregistered operator type "
      ++ operatorType.text
  | .missingLatency operatorType => "Operator type " ++ operatorType.text ++ " has no latency"
  | .zeroDistanceCycle operation =>
    "Dependence cycle without positive distance through " ++ operation.text

namespace Problem

def empty (instanceName problemName : String) : Problem :=
  ⟨instanceName, problemName, [], [], none, ∅, ∅, ∅, ∅, ∅⟩

def hasOperatorType (problem : Problem) (operatorType : OperatorType) : Bool :=
  operatorType ∈ problem.operatorTypes

/-- Registers an operator type, and answers whether it was new. -/
def insertOperatorType (problem : Problem) (operatorType : OperatorType) : Bool × Problem :=
  if problem.hasOperatorType operatorType then
    (false, problem)
  else
    (true, { problem with operatorTypes := problem.operatorTypes ++ [operatorType] })

def hasOperation (problem : Problem) (operation : OperationId) : Bool :=
  operation.index < problem.operations.length

def operationIds (problem : Problem) : List OperationId :=
  (List.range problem.operations.length).map OperationId.mk

/-- Registers an operation with a number of results. -/
def insertOperation (problem : Problem) (results : Nat) : OperationId × Problem :=
  (⟨problem.operations.length⟩,
    { problem with operations := problem.operations ++ [⟨results, [], false, []⟩] })

def operation (problem : Problem) (operation : OperationId) : Except ProblemError Operation :=
  match problem.operations[operation.index]? with
  | some node => .ok node
  | none => .error (.unknownOperation operation)

def setNode (problem : Problem) (operation : OperationId) (node : Operation) : Problem :=
  { problem with operations := problem.operations.set operation.index node }

/-- Checks that an operand is a result of a registered operation. -/
def checkOperand (problem : Problem) (operand : Operand) : Except ProblemError Unit := do
  let source ← problem.operation operand.source
  if operand.result < source.results then
    .ok ()
  else
    .error (.resultOutOfRange operand.source operand.result source.results)

/-- Sets the operands of an operation, once. -/
def setOperands (problem : Problem) (operation : OperationId) (operands : List Operand) :
    Except ProblemError Problem := do
  -- every operand is looked at before the operation itself
  operands.forM problem.checkOperand
  let node ← problem.operation operation
  if node.connected then
    .error (.operandsAlreadySet operation)
  else
    .ok (problem.setNode operation { node with operands, connected := true })

/-- The data dependence that feeds an operand. -/
def dataDependence (problem : Problem) (operation : OperationId) (slot : Nat) :
    Except ProblemError Dependence := do
  let node ← problem.operation operation
  match node.operands[slot]? with
  | some operand => .ok (.data operand.source operand.result operation slot)
  | none => .error (.operandOutOfRange operation slot node.operands.length)

/-- Adds a dependence.  Data dependences exist through operands, so adding one only succeeds if it
is there; an auxiliary one must be new and between registered operations. -/
def insertDependence (problem : Problem) (dependence : Dependence) :
    Except ProblemError Problem :=
  match dependence with
  | .data _ _ destination operand => do
    let existing ← problem.dataDependence destination operand
    if existing = dependence then .ok problem else .error (.unknownDependence dependence)
  | .auxiliary source destination => do
    let _ ← problem.operation source
    let node ← problem.operation destination
    -- parallel auxiliary edges are refused, parallel data edges feed different operands
    if source ∈ node.auxiliarySources then
      .error (.duplicateDependence source destination)
    else
      .ok (problem.setNode destination
        { node with auxiliarySources := node.auxiliarySources ++ [source] })

def containsDependence (problem : Problem) (dependence : Dependence) : Bool :=
  match dependence with
  | .data _ _ destination operand =>
    match problem.dataDependence destination operand with
    | .ok existing => existing = dependence
    | .error _ => false
  | .auxiliary source destination =>
    problem.operations[destination.index]?.any fun node => source ∈ node.auxiliarySources

/-- The dependences that end at an operation: data in operand order, then auxiliary ones in the
order they were added. -/
def dependences (problem : Problem) (operation : OperationId) : List Dependence :=
  match problem.operations[operation.index]? with
  | none => []
  | some node =>
    node.operands.mapIdx (fun slot operand =>
        .data operand.source operand.result operation slot)
      ++ node.auxiliarySources.map fun source => .auxiliary source operation

/-- All dependences, in the order of their destinations. -/
def allDependences (problem : Problem) : List Dependence :=
  problem.operationIds.flatMap problem.dependences

/-- The dependences that start at an operation, in the order of their destinations. -/
def outgoing (problem : Problem) (operation : OperationId) : List Dependence :=
  problem.allDependences.filter fun dependence => dependence.source = operation

def setInitiationInterval (problem : Problem) (value : UInt32) : Problem :=
  { problem with initiationInterval := some value }

def latency (problem : Problem) (operatorType : OperatorType) : Option UInt32 :=
  problem.latencies.get? operatorType

def setLatency (problem : Problem) (operatorType : OperatorType) (value : UInt32) : Problem :=
  { problem with latencies := problem.latencies.set operatorType value }

/-- How many operations may use an operator type at a time. -/
def limit (problem : Problem) (operatorType : OperatorType) : Option UInt32 :=
  problem.limits.get? operatorType

def setLimit (problem : Problem) (operatorType : OperatorType) (value : UInt32) : Problem :=
  { problem with limits := problem.limits.set operatorType value }

def link (problem : Problem) (operation : OperationId) : Option OperatorType :=
  problem.links.get? operation

def setLink (problem : Problem) (operation : OperationId) (operatorType : OperatorType) :
    Except ProblemError Problem := do
  let _ ← problem.operation operation
  .ok { problem with links := problem.links.set operation operatorType }

/-- When an operation starts. -/
def startTime (problem : Problem) (operation : OperationId) : Option UInt32 :=
  problem.startTimes.get? operation

def setStartTime (problem : Problem) (operation : OperationId) (value : UInt32) :
    Except ProblemError Problem := do
  let _ ← problem.operation operation
  .ok { problem with startTimes := problem.startTimes.set operation value }

def distance (problem : Problem) (dependence : Dependence) : Option UInt32 :=
  problem.distances.get? dependence

def setDistance (problem : Problem) (dependence : Dependence) (value : UInt32) :
    Except ProblemError Problem :=
  if problem.containsDependence dependence then
    .ok { problem with distances := problem.distances.set dependence value }
  else
    .error (.unknownDependence dependence)

end Problem

end StaticScheduling
