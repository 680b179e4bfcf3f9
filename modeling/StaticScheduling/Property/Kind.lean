import StaticScheduling.DocumentError

/-!
# Property kinds

A property kind gives encoded properties a meaning at one sort of attachment
point.  Lists of kinds are ordered: a property goes to the first kind that
accepts it, and encoding asks every kind in turn.
-/

namespace StaticScheduling

/-- What a property can be attached to. -/
class AttachmentPoint (Point : Type) where
  /-- An attachment point in messages. -/
  describe : Point → String

instance : AttachmentPoint Unit := ⟨fun _ => "instance"⟩

instance : AttachmentPoint OperatorType :=
  ⟨fun operatorType => "operator type " ++ operatorType.text⟩

instance : AttachmentPoint OperationId := ⟨OperationId.text⟩

instance : AttachmentPoint Dependence := ⟨fun dependence => "dependence " ++ dependence.text⟩

/-- What a change of a problem answers: the problem, changed or not, and whether it succeeded. -/
abbrev Edited := Problem × Except DocumentError Unit

namespace Edited

/-- The changed problem where the change succeeds, the unchanged one where it is refused. -/
def ofExcept (problem : Problem) : Except DocumentError Problem → Edited
  | .ok changed => (changed, .ok ())
  | .error error => (problem, .error error)

def toExcept : Edited → Except DocumentError Problem
  | (problem, .ok ()) => .ok problem
  | (_, .error error) => .error error

@[simp] theorem toExcept_ofExcept (problem : Problem) (result : Except DocumentError Problem) :
    (ofExcept problem result).toExcept = result := by
  cases result <;> rfl

end Edited

/-- A meaning of encoded properties at one sort of attachment point. -/
structure PropertyKind (Point : Type) where
  name : String
  /-- Whether the kind gives a property a meaning. -/
  accepts : Property → Bool
  /-- Applies a property to a problem. -/
  install : Problem → Point → Property → Edited
  /-- The property as the problem has it, if it does. -/
  query : Problem → Point → Option Property

namespace PropertyKind

variable {Point : Type}

/-- Applies properties in order, each through the first kind that accepts it.  A property that no
kind accepts is an error; what was applied before stays. -/
def decode [AttachmentPoint Point] (kinds : List (PropertyKind Point)) (point : Point) :
    List Property → Problem → Edited
  | [], problem => (problem, .ok ())
  | property :: rest, problem =>
    match kinds.find? fun kind => kind.accepts property with
    | none =>
      (problem, .error (.unrecognizedProperty (AttachmentPoint.describe point) property))
    | some kind =>
      -- an accepted property may still be refused by the problem
      match kind.install problem point property with
      | (problem, .ok ()) => decode kinds point rest problem
      | (problem, .error error) => (problem, .error error)

def decodeOptional [AttachmentPoint Point] (kinds : List (PropertyKind Point)) (point : Point)
    (properties : Option (List Property)) (problem : Problem) : Edited :=
  decode kinds point (properties.getD []) problem

/-- The properties that a problem has at a point, in the order of the kinds; `none` if there are
none. -/
def encode (kinds : List (PropertyKind Point)) (problem : Problem) (point : Point) :
    Option (List Property) :=
  match kinds.filterMap fun kind => kind.query problem point with
  | [] => none
  | properties@(_ :: _) => some properties

def names (kinds : List (PropertyKind Point)) : List String := kinds.map PropertyKind.name

end PropertyKind

end StaticScheduling
