import StaticScheduling.Instance.Layout
import StaticScheduling.ParseError
import StaticScheduling.Problem.Basic

/-!
# Why a document is refused

Every cause has a message and belongs to a category.  A cause that wraps another
one names what was being done; `DocumentError.causes` lists the wrapped one.
-/

namespace StaticScheduling

inductive ErrorCategory where
  /-- The text is malformed. -/
  | textual
  /-- Dependence records are out of order. -/
  | structural
  /-- A name is defined twice, or not at all, or names the wrong thing. -/
  | reference
  /-- No property kind accepts a property. -/
  | property
  /-- The problem refuses a change. -/
  | model
deriving DecidableEq, Repr, Inhabited

/-- What was being done when a problem refused a change. -/
inductive ModelContext where
  | linking (operation : OperationId)
  | scheduling (operation : OperationId)
  | settingDistance
  | operandsOf (operation : String)
  | dependenceOf (index : Nat) (operation : String)
  | saving (dependence : Dependence)
deriving DecidableEq, Repr, Inhabited

def ModelContext.text : ModelContext → String
  | .linking operation => "linking " ++ operation.text
  | .scheduling operation => "scheduling " ++ operation.text
  | .settingDistance => "setting distance"
  | .operandsOf operation => "operands of " ++ operation
  | .dependenceOf index operation => "dependence " ++ toString index ++ " of " ++ operation
  | .saving dependence => "saving " ++ dependence.text

/-- Why a document is refused. -/
inductive DocumentError where
  | parse (error : ParseError)
  | invalidDependence (operation : String) (fault : RecordFault)
  | duplicateSymbol (name : String)
  | duplicateValue (name : String)
  | undefinedValue (operation name : String)
  | unknownReference (referrer name : String) (expected : SymbolKind)
  | wrongReferenceKind (referrer name : String) (expected found : SymbolKind)
  | duplicateName (name : String)
  | unrecognizedProperty (attachment : String) (property : Property)
  | model (context : ModelContext) (source : ProblemError)
deriving DecidableEq, Inhabited

namespace DocumentError

def category : DocumentError → ErrorCategory
  | .parse _ => .textual
  | .invalidDependence _ _ => .structural
  | .duplicateSymbol _ => .reference
  | .duplicateValue _ => .reference
  | .undefinedValue _ _ => .reference
  | .unknownReference _ _ _ => .reference
  | .wrongReferenceKind _ _ _ _ => .reference
  | .duplicateName _ => .reference
  | .unrecognizedProperty _ _ => .property
  | .model _ _ => .model

def message : DocumentError → String
  | .parse error => "Parse error: " ++ error.text
  | .invalidDependence operation fault =>
    "Invalid dependence record in " ++ operation ++ ": " ++ fault.text
  | .duplicateSymbol name => "Redefinition of symbol " ++ symbolText name
  | .duplicateValue name => "Redefinition of value %" ++ name
  | .undefinedValue operation name => "Use of undefined value %" ++ name ++ " in " ++ operation
  | .unknownReference referrer name expected =>
    "Unknown referenced " ++ expected.text ++ " " ++ symbolText name ++ " in " ++ referrer
  | .wrongReferenceKind referrer name expected found =>
    "Reference " ++ symbolText name ++ " in " ++ referrer ++ " names an " ++ found.text
      ++ ", expected an " ++ expected.text
  | .duplicateName name => "Name " ++ symbolText name ++ " is assigned to more than one operation"
  | .unrecognizedProperty attachment property =>
    "Unrecognized property " ++ property.text ++ " on " ++ attachment
  | .model context source => context.text ++ ": " ++ source.message

/-- The messages of the causes that a cause wraps, the outermost first. -/
def causes : DocumentError → List String
  | .parse error => [error.text]
  | .model _ source => [source.message]
  | _ => []

end DocumentError

/-- A refusal by a problem, as a cause that says what was being done. -/
def ProblemError.within {α : Type} (result : Except ProblemError α) (context : ModelContext) :
    Except DocumentError α :=
  match result with
  | .ok value => .ok value
  | .error error => .error (.model context error)

end StaticScheduling
