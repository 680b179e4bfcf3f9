import StaticScheduling.Instance.Property

/-!
# Documents

An `Instance` is the document form of a scheduling problem: what a text says,
before any name in it is resolved.
-/

namespace StaticScheduling

/-- What a symbol may name.  Operator types and operations share one namespace. -/
inductive SymbolKind where
  | operatorType
  | operation
deriving DecidableEq, Repr, Inhabited

def SymbolKind.text : SymbolKind → String
  | .operatorType => "operator type"
  | .operation => "operation"

/-- The place in an operand list that a dependence record describes. -/
inductive Slot where
  /-- The operand with this index. -/
  | operand (index : Nat)
  /-- A place behind the operands, which names the operation it depends on. -/
  | named (index : Nat) (source : String)
deriving DecidableEq, Repr, Inhabited

namespace Slot

def index : Slot → Nat
  | .operand index => index
  | .named index _ => index

def source? : Slot → Option String
  | .operand _ => none
  | .named _ source => some source

def isNamed (slot : Slot) : Bool := slot.source?.isSome

end Slot

/-- A slot of an operand list, and the properties written there. -/
structure DependenceRecord where
  slot : Slot
  properties : Option (List Property)
deriving DecidableEq, Inhabited

structure OperatorTypeDecl where
  name : String
  properties : Option (List Property)
deriving DecidableEq, Inhabited

/-- An entry of the dictionary behind an operation. -/
structure DictionaryEntry where
  name : String
  value : Option Parameter
deriving DecidableEq, Inhabited

structure OperationDecl where
  /-- The values it defines, one per result. -/
  results : List String
  name : Option String
  /-- The values it uses, one per operand. -/
  operands : List String
  dependences : List DependenceRecord
  properties : Option (List Property)
  /-- Carried along, without a meaning. -/
  dictionary : List DictionaryEntry
deriving DecidableEq, Inhabited

namespace OperationDecl

/-- An operation in messages: its symbol, or its position if it has no name. -/
def describe (operation : OperationDecl) (position : Nat) : String :=
  match operation.name with
  | some name => symbolText name
  | none => "operation #" ++ toString position

end OperationDecl

structure Instance where
  name : String
  /-- The kind of problem, such as `ModuloProblem`. -/
  problem : String
  properties : Option (List Property)
  operatorTypes : List OperatorTypeDecl
  operations : List OperationDecl
deriving DecidableEq, Inhabited

namespace Instance

/-- The first operation with a name, and its position. -/
def findOperation? (document : Instance) (name : String) : Option (Nat × OperationDecl) :=
  (document.operations.zipIdx.find? fun entry => entry.1.name = some name).map fun entry =>
    (entry.2, entry.1)

def findOperatorType? (document : Instance) (name : String) : Option OperatorTypeDecl :=
  document.operatorTypes.find? fun declaration => declaration.name = name

end Instance

end StaticScheduling
