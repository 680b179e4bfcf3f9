/-!
# JSON values

Only what documents need: numbers are integers, and the members of an object
keep their order.  A value that no document can hold, such as a fraction or a
string with half a surrogate pair, is `foreign`.
-/

namespace StaticScheduling

inductive Json where
  | null
  | boolean (value : Bool)
  | integer (value : Int)
  | string (text : String)
  | array (elements : List Json)
  | object (members : List (String × Json))
  /-- A value that no document can hold. -/
  | foreign

namespace Json

instance : Inhabited Json := ⟨null⟩

def string? : Json → Option String
  | .string text => some text
  | _ => none

def integer? : Json → Option Int
  | .integer value => some value
  | _ => none

def isNull : Json → Bool
  | .null => true
  | _ => false

end Json

end StaticScheduling
