import StaticScheduling.Token.Basic

/-!
# Encoded property values

A property is written `#dialect.mnemonic`, perhaps with parameters in angle
brackets: integers, symbols, strings, or properties again.  Only property kinds
give it a meaning.
-/

namespace StaticScheduling

mutual

/-- An encoded property value. -/
structure Property where
  dialect : String
  mnemonic : String
  parameters : List Parameter

inductive Parameter where
  | integer (number : Int64)
  | symbol (name : String)
  | string (text : String)
  | property (nested : Property)

end

instance : Inhabited Property := ⟨⟨"", "", []⟩⟩

instance : Inhabited Parameter := ⟨.property default⟩

mutual

/-- Equality of properties is decidable, by comparing part with part. -/
def Property.decEq : (first second : Property) → Decidable (first = second)
  | ⟨dialect, mnemonic, parameters⟩, ⟨dialect', mnemonic', parameters'⟩ =>
    match Parameter.decEqList parameters parameters' with
    | .isTrue same =>
      if names : dialect = dialect' ∧ mnemonic = mnemonic' then
        .isTrue (by rw [names.1, names.2, same])
      else
        .isFalse (by intro equal; cases equal; exact names ⟨rfl, rfl⟩)
    | .isFalse different => .isFalse (by intro equal; cases equal; exact different rfl)

def Parameter.decEq : (first second : Parameter) → Decidable (first = second)
  | .integer number, .integer number' => decidable_of_iff (number = number') (by simp)
  | .symbol name, .symbol name' => decidable_of_iff (name = name') (by simp)
  | .string text, .string text' => decidable_of_iff (text = text') (by simp)
  | .property nested, .property nested' =>
    match Property.decEq nested nested' with
    | .isTrue same => .isTrue (by rw [same])
    | .isFalse different => .isFalse (by intro equal; cases equal; exact different rfl)
  | .integer _, .symbol _ => .isFalse nofun
  | .integer _, .string _ => .isFalse nofun
  | .integer _, .property _ => .isFalse nofun
  | .symbol _, .integer _ => .isFalse nofun
  | .symbol _, .string _ => .isFalse nofun
  | .symbol _, .property _ => .isFalse nofun
  | .string _, .integer _ => .isFalse nofun
  | .string _, .symbol _ => .isFalse nofun
  | .string _, .property _ => .isFalse nofun
  | .property _, .integer _ => .isFalse nofun
  | .property _, .symbol _ => .isFalse nofun
  | .property _, .string _ => .isFalse nofun

def Parameter.decEqList : (first second : List Parameter) → Decidable (first = second)
  | [], [] => .isTrue rfl
  | [], _ :: _ => .isFalse nofun
  | _ :: _, [] => .isFalse nofun
  | parameter :: rest, parameter' :: rest' =>
    match Parameter.decEq parameter parameter', Parameter.decEqList rest rest' with
    | .isTrue sameHead, .isTrue sameTail => .isTrue (by rw [sameHead, sameTail])
    | .isFalse different, _ => .isFalse (by intro equal; cases equal; exact different rfl)
    | _, .isFalse different => .isFalse (by intro equal; cases equal; exact different rfl)

end

instance : DecidableEq Property := Property.decEq

instance : DecidableEq Parameter := Parameter.decEq

/-- The dialect of the properties of scheduling problems. -/
def schedulingDialect : String := "ssp"

namespace Property

def isNamed (property : Property) (dialect mnemonic : String) : Bool :=
  property.dialect = dialect && property.mnemonic = mnemonic

/-- Whether a property links an operation to operator types. -/
def isLink (property : Property) : Bool := property.isNamed schedulingDialect "link"

/-- The parameter of a property that has exactly one. -/
def single? (property : Property) : Option Parameter :=
  match property.parameters with
  | [parameter] => some parameter
  | _ => none

end Property

namespace Parameter

def integer? : Parameter → Option Int64
  | .integer number => some number
  | _ => none

def symbol? : Parameter → Option String
  | .symbol name => some name
  | _ => none

end Parameter

end StaticScheduling
