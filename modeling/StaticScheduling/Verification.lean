import StaticScheduling.DocumentError

/-!
# Verification of documents

Symbols and values are defined once, operands are defined somewhere, dependence
records are in order, and every reference names something of the right kind.
The first violation is reported.
-/

namespace StaticScheduling

/-- The first element of `elements` that was seen before or comes twice. -/
def firstRepeated? {α : Type} [DecidableEq α] (seen : List α) : List α → Option α
  | [] => none
  | first :: rest => if first ∈ seen then some first else firstRepeated? (first :: seen) rest

/-- Checks the dependence records of the operation that `label` describes. -/
def checkRecords (label : String) (operands : Nat) (records : List DependenceRecord) :
    Except DocumentError Unit :=
  match recordFault? operands records with
  | some fault => .error (.invalidDependence label fault)
  | none => .ok ()

/-- The symbols of a document and what they name.  Operator types and operations share one
namespace. -/
structure SymbolTable where
  symbols : List (String × SymbolKind)
deriving DecidableEq, Repr, Inhabited

namespace SymbolTable

def empty : SymbolTable := ⟨[]⟩

def lookup (table : SymbolTable) (name : String) : Option SymbolKind := table.symbols.lookup name

def size (table : SymbolTable) : Nat := table.symbols.length

/-- Defines a symbol that is not defined yet. -/
def define (table : SymbolTable) (name : String) (kind : SymbolKind) :
    Except DocumentError SymbolTable :=
  match table.lookup name with
  | some _ => .error (.duplicateSymbol name)
  | none => .ok ⟨table.symbols ++ [(name, kind)]⟩

/-- Checks that a symbol used by `referrer` names something of the expected kind. -/
def resolve (table : SymbolTable) (referrer name : String) (expected : SymbolKind) :
    Except DocumentError Unit :=
  match table.lookup name with
  | some found =>
    if found = expected then .ok () else .error (.wrongReferenceKind referrer name expected found)
  | none => .error (.unknownReference referrer name expected)

/-- The symbols that a document defines: its operator types, then its named operations. -/
def definitions (document : Instance) : List (String × SymbolKind) :=
  document.operatorTypes.map (fun declaration => (declaration.name, .operatorType))
    ++ (document.operations.filterMap OperationDecl.name).map fun name => (name, .operation)

def ofInstance (document : Instance) : Except DocumentError SymbolTable :=
  (definitions document).foldlM (fun table definition => table.define definition.1 definition.2)
    empty

end SymbolTable

namespace OperationDecl

/-- The operations that the records of an operation name. -/
def sources (operation : OperationDecl) : List String :=
  operation.dependences.filterMap fun record => record.slot.source?

/-- The symbols in the links of an operation. -/
def linkTargets (operation : OperationDecl) : List String :=
  ((operation.properties.getD []).filter Property.isLink).flatMap fun property =>
    property.parameters.filterMap Parameter.symbol?

end OperationDecl

namespace Instance

def values (document : Instance) : List String := document.operations.flatMap OperationDecl.results

/-- Checks the operands, the records and the references of an operation. -/
def verifyOperation (symbols : SymbolTable) (values : List String) (label : String)
    (operation : OperationDecl) : Except DocumentError Unit := do
  match operation.operands.find? fun name => name ∉ values with
  | some name => .error (.undefinedValue label name)
  | none => .ok ()
  checkRecords label operation.operands.length operation.dependences
  operation.sources.forM fun source => symbols.resolve label source .operation
  operation.linkTargets.forM fun target => symbols.resolve label target .operatorType

def verify (document : Instance) : Except DocumentError Unit := do
  let symbols ← SymbolTable.ofInstance document
  match firstRepeated? [] document.values with
  | some name => .error (.duplicateValue name)
  | none => .ok ()
  -- references are looked at when all definitions are known
  document.operations.zipIdx.forM fun (operation, position) =>
    verifyOperation symbols document.values (operation.describe position) operation

end Instance

end StaticScheduling
