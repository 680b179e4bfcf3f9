import StaticScheduling.Verification

/-!
# Names for operations

An operation gets a name if the caller supplies one, or if an auxiliary
dependence has to refer to it.  Operations share their names with operator
types, and made-up names keep clear of all others.
-/

namespace StaticScheduling

/-- The first number from `index` on whose label is not taken.  A label that is taken is struck off
the list, so the search ends. -/
def freshIndex (label : Nat → String) (taken : List String) (index : Nat) : Nat :=
  if _ : label index ∈ taken then
    freshIndex label (taken.erase (label index)) (index + 1)
  else
    index
termination_by taken.length
decreasing_by
  have positive := List.length_pos_of_mem ‹_›
  rw [List.length_erase_of_mem ‹_›]
  omega

/-- The names given to operations, in the order they were given. -/
structure NameTable where
  entries : List (OperationId × String)
deriving DecidableEq, Repr, Inhabited

namespace NameTable

def empty : NameTable := ⟨[]⟩

def get? (table : NameTable) (operation : OperationId) : Option String :=
  table.entries.lookup operation

def contains (table : NameTable) (operation : OperationId) : Bool := (table.get? operation).isSome

def size (table : NameTable) : Nat := table.entries.length

/-- Gives a name to an operation that has none. -/
def assign (table : NameTable) (operation : OperationId) (name : String) : NameTable :=
  if table.contains operation then table else ⟨table.entries ++ [(operation, name)]⟩

/-- A name of the given stem and a number that is neither reserved nor given.  Numbers are tried
from the number of names on. -/
def freshName (table : NameTable) (stem : String) (reserved : List String) : String :=
  let label := fun index => stem ++ toString index
  label (freshIndex label (reserved ++ table.entries.map Prod.snd) table.size)

/-- Which names the caller supplies, the stem of made-up ones, and the names these must avoid. -/
structure Policy where
  supplied : OperationId → Option String
  stem : String
  reserved : List String

/-- Gives a name to an operation that a dependence refers to. -/
def nameSource (policy : Policy) (table : NameTable) (source : OperationId) : NameTable :=
  match policy.supplied source with
  | some name => table.assign source name
  -- a source that was named before keeps its name
  | none => table.assign source (table.freshName policy.stem policy.reserved)

def nameSupplied (policy : Policy) (table : NameTable) (operation : OperationId) : NameTable :=
  match policy.supplied operation with
  | some name => table.assign operation name
  | none => table

/-- Names an operation and the sources of its auxiliary dependences. -/
def nameOperation (policy : Policy) (problem : Problem) (table : NameTable)
    (operation : OperationId) : NameTable :=
  (((problem.dependences operation).filter Dependence.isAuxiliary).map Dependence.source).foldl
    (nameSource policy) (nameSupplied policy table operation)

/-- The stem of made-up names where none is asked for. -/
def defaultStem : String := "Op"

/-- Names the operations of a problem.  It is an error to supply a name twice, or the name of an
operator type. -/
def build (problem : Problem) (supplied : OperationId → Option String) (stem : String) :
    Except DocumentError NameTable :=
  -- operations share their names with operator types
  let types := problem.operatorTypes.map OperatorType.name
  let names := problem.operationIds.filterMap supplied
  match firstRepeated? types names with
  | some name => .error (.duplicateName name)
  | none =>
    .ok (problem.operationIds.foldl (nameOperation ⟨supplied, stem, types ++ names⟩ problem) empty)

end NameTable

end StaticScheduling
