import StaticScheduling.Naming
import StaticScheduling.Property.Builtin

/-!
# Saving a problem as a document

Operations keep their order.  Their results are the values `%0`, `%1`, ... in
this order, and their names are those of a name table.
-/

namespace StaticScheduling

namespace Saving

/-- The number of the first result of an operation, counted over the whole problem. -/
def firstValue (problem : Problem) (operation : OperationId) : Nat :=
  (problem.operations.take operation.index).foldr (fun node total => node.results + total) 0

def valueName (problem : Problem) (operand : Operand) : String :=
  toString (firstValue problem operand.source + operand.result)

/-- The records of dependences.  A data dependence has one if it has properties, an auxiliary one
always has, numbered from `index` on. -/
def records (problem : Problem) (kinds : ProblemKinds) (names : NameTable) :
    (index : Nat) → List Dependence → Except DocumentError (List DependenceRecord)
  | _, [] => .ok []
  | index, .data source result destination operand :: rest => do
    let more ← records problem kinds names index rest
    match PropertyKind.encode kinds.dependence problem (.data source result destination operand) with
    -- the operand itself says that there is a dependence
    | none => .ok more
    | some properties => .ok (⟨.operand operand, some properties⟩ :: more)
  | index, .auxiliary source destination :: rest =>
    match names.get? source with
    | none => .error (.model (.saving (.auxiliary source destination)) (.unknownOperation source))
    | some name => do
      let more ← records problem kinds names (index + 1) rest
      .ok (⟨.named index name,
        PropertyKind.encode kinds.dependence problem (.auxiliary source destination)⟩ :: more)

def operation (problem : Problem) (kinds : ProblemKinds) (names : NameTable) (node : Operation)
    (position : Nat) : Except DocumentError OperationDecl := do
  let id : OperationId := ⟨position⟩
  -- sources are numbered behind the operands
  let dependences ← records problem kinds names node.operands.length (problem.dependences id)
  .ok {
    results := (List.range node.results).map fun result => valueName problem ⟨id, result⟩
    name := names.get? id
    operands := node.operands.map (valueName problem)
    dependences
    properties := PropertyKind.encode kinds.operation problem id
    dictionary := [] }

end Saving

/-- The document that describes a problem, where the given kinds turn properties into text. -/
def Problem.save (problem : Problem) (instanceName problemName : String)
    (supplied : OperationId → Option String) (kinds : ProblemKinds) (stem : String) :
    Except DocumentError Instance := do
  let names ← NameTable.build problem supplied stem
  let operations ← problem.operations.zipIdx.mapM fun (node, position) =>
    Saving.operation problem kinds names node position
  .ok {
    name := instanceName
    problem := problemName
    properties := PropertyKind.encode kinds.problem problem ()
    operatorTypes := problem.operatorTypes.map fun operatorType =>
      ⟨operatorType.name, PropertyKind.encode kinds.operatorType problem operatorType⟩
    operations }

end StaticScheduling
