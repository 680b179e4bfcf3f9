import StaticScheduling.Instance.Basic
import StaticScheduling.Json.Reader

/-!
# Documents as JSON

An absent property list is left out, an empty one is kept; other lists are left
out if they are empty.  A parameter or a slot is an object with one member, which
is named for its sort.  When a document is read, an object may also be given as
the array of its fields, a member with an unknown name is ignored, and `null`
stands for an absent value.
-/

namespace StaticScheduling

namespace Json

/-- A member for a list, left out if the list is empty. -/
def listMember (name : String) : List Json → List (String × Json)
  | [] => []
  | elements@(_ :: _) => [(name, .array elements)]

/-- A member for a value, left out if the value is absent. -/
def optionalMember (name : String) : Option Json → List (String × Json)
  | none => []
  | some value => [(name, value)]

/-- The fields of a structure with the given names.  An object may not have two members for one
field.  An array holds the first fields. -/
def fields? (names : List String) : Json → Option (List (Option Json))
  | .object members =>
    if names.all fun name => (members.filter fun entry => entry.1 = name).length ≤ 1 then
      some (names.map fun name => members.lookup name)
    else
      none
  | .array elements =>
    if elements.length ≤ names.length then
      some (elements.map some ++ List.replicate (names.length - elements.length) none)
    else
      none
  | _ => none

theorem sizeOf_lt_of_mem_of_fields? {names : List String} {json value : Json}
    {fields : List (Option Json)} (found : json.fields? names = some fields)
    (present : some value ∈ fields) : sizeOf value < sizeOf json := by
  unfold fields? at found
  split at found
  · rename_i members
    split at found
    · cases found
      obtain ⟨name, _, looked⟩ := List.mem_map.mp present
      obtain ⟨before, after, split, _⟩ := List.lookup_eq_some_iff.mp looked
      have smaller : sizeOf (name, value) < sizeOf members :=
        List.sizeOf_lt_of_mem (split ▸ List.mem_append_right before (List.mem_cons_self ..))
      simp only [Prod.mk.sizeOf_spec] at smaller
      simp only [Json.object.sizeOf_spec]
      omega
    · cases found
  · rename_i elements
    split at found
    · cases found
      rcases List.mem_append.mp present with inside | filler
      · obtain ⟨element, member, same⟩ := List.mem_map.mp inside
        cases same
        have smaller := List.sizeOf_lt_of_mem member
        simp only [Json.array.sizeOf_spec]
        omega
      · exact absurd (List.eq_of_mem_replicate filler) (by simp)
    · cases found
  · cases found

/-- A field that may be absent or `null`. -/
def optionalField? {α : Type} (decode : Json → Option α) : Option Json → Option (Option α)
  | none => some none
  | some .null => some none
  | some json => (decode json).map some

def listField? {α : Type} (decode : Json → Option α) : Option Json → Option (List α)
  | none => some []
  | some (.array elements) => elements.mapM decode
  | some _ => none

def list? {α : Type} (decode : Json → Option α) : Json → Option (List α)
  | .array elements => elements.mapM decode
  | _ => none

/-- A natural number of at most 32 bits. -/
def word32? : Json → Option Nat
  | .integer value => if 0 ≤ value ∧ value < UInt32.size then some value.toNat else none
  | _ => none

/-- An integer of at most 64 bits with its sign. -/
def signed64? : Json → Option Int64
  | .integer value =>
    if Int64.minValue.toInt ≤ value ∧ value ≤ Int64.maxValue.toInt then some (Int64.ofInt value)
    else none
  | _ => none

end Json

mutual

/-- A property as JSON. -/
def Property.toJson : Property → Json
  | ⟨dialect, mnemonic, parameters⟩ =>
    .object ([("dialect", .string dialect), ("mnemonic", .string mnemonic)]
      ++ Json.listMember "params" (Parameter.listToJson parameters))

def Parameter.toJson : Parameter → Json
  | .integer number => .object [("integer", .integer number.toInt)]
  | .symbol name => .object [("symbol", .string name)]
  | .string text => .object [("string", .string text)]
  | .property nested => .object [("attr", nested.toJson)]

def Parameter.listToJson : List Parameter → List Json
  | [] => []
  | first :: rest => first.toJson :: Parameter.listToJson rest

end

mutual

/-- The property that a JSON value is. -/
def Property.ofJson? (json : Json) : Option Property :=
  match _ : json.fields? ["dialect", "mnemonic", "params"] with
  | some [some (.string dialect), some (.string mnemonic), none] => some ⟨dialect, mnemonic, []⟩
  | some [some (.string dialect), some (.string mnemonic), some (.array elements)] =>
    (Parameter.listOfJson? elements).map fun parameters => ⟨dialect, mnemonic, parameters⟩
  | _ => none
termination_by sizeOf json
decreasing_by
  have smaller : sizeOf (Json.array elements) < sizeOf json :=
    Json.sizeOf_lt_of_mem_of_fields? ‹_› (by simp)
  simp only [Json.array.sizeOf_spec] at smaller
  omega

def Parameter.ofJson? (json : Json) : Option Parameter :=
  match json with
  | .object [("integer", value)] => value.signed64?.map .integer
  | .object [("symbol", .string name)] => some (.symbol name)
  | .object [("string", .string text)] => some (.string text)
  | .object [("attr", nested)] => (Property.ofJson? nested).map .property
  | _ => none
termination_by sizeOf json

def Parameter.listOfJson? (elements : List Json) : Option (List Parameter) :=
  match elements with
  | [] => some []
  | first :: rest =>
    match Parameter.ofJson? first, Parameter.listOfJson? rest with
    | some parameter, some parameters => some (parameter :: parameters)
    | _, _ => none
termination_by sizeOf elements

end

/-- A property list that may be absent, as a member. -/
def Property.listMember (properties : Option (List Property)) : List (String × Json) :=
  Json.optionalMember "properties" (properties.map fun list => .array (list.map Property.toJson))

def Property.listField? : Option Json → Option (Option (List Property)) :=
  Json.optionalField? (Json.list? Property.ofJson?)

namespace DictionaryEntry

def toJson (entry : DictionaryEntry) : Json :=
  .object ([("name", .string entry.name)]
    ++ Json.optionalMember "value" (entry.value.map Parameter.toJson))

def ofJson? (json : Json) : Option DictionaryEntry :=
  match json.fields? ["name", "value"] with
  | some [some (.string name), value] => do
    let value ← Json.optionalField? Parameter.ofJson? value
    some ⟨name, value⟩
  | _ => none

end DictionaryEntry

namespace Slot

def toJson : Slot → Json
  | .operand index => .object [("data", .integer index)]
  | .named index source =>
    .object [("named", .object [("index", .integer index), ("source", .string source)])]

def ofJson? : Json → Option Slot
  | .object [("data", value)] => value.word32?.map .operand
  | .object [("named", json)] =>
    match json.fields? ["index", "source"] with
    | some [some index, some (.string source)] => index.word32?.map fun index => .named index source
    | _ => none
  | _ => none

end Slot

namespace DependenceRecord

def toJson (record : DependenceRecord) : Json :=
  .object ([("slot", record.slot.toJson)] ++ Property.listMember record.properties)

def ofJson? (json : Json) : Option DependenceRecord :=
  match json.fields? ["slot", "properties"] with
  | some [some slot, properties] => do
    let slot ← Slot.ofJson? slot
    let properties ← Property.listField? properties
    some ⟨slot, properties⟩
  | _ => none

end DependenceRecord

namespace OperatorTypeDecl

def toJson (declaration : OperatorTypeDecl) : Json :=
  .object ([("name", .string declaration.name)] ++ Property.listMember declaration.properties)

def ofJson? (json : Json) : Option OperatorTypeDecl :=
  match json.fields? ["name", "properties"] with
  | some [some (.string name), properties] => do
    let properties ← Property.listField? properties
    some ⟨name, properties⟩
  | _ => none

end OperatorTypeDecl

namespace OperationDecl

def toJson (operation : OperationDecl) : Json :=
  .object (Json.listMember "results" (operation.results.map Json.string)
    ++ Json.optionalMember "name" (operation.name.map Json.string)
    ++ Json.listMember "operands" (operation.operands.map Json.string)
    ++ Json.listMember "dependences" (operation.dependences.map DependenceRecord.toJson)
    ++ Property.listMember operation.properties
    ++ Json.listMember "attributes" (operation.dictionary.map DictionaryEntry.toJson))

def ofJson? (json : Json) : Option OperationDecl :=
  match json.fields? ["results", "name", "operands", "dependences", "properties", "attributes"] with
  | some [results, name, operands, dependences, properties, dictionary] => do
    let results ← Json.listField? Json.string? results
    let name ← Json.optionalField? Json.string? name
    let operands ← Json.listField? Json.string? operands
    let dependences ← Json.listField? DependenceRecord.ofJson? dependences
    let properties ← Property.listField? properties
    let dictionary ← Json.listField? DictionaryEntry.ofJson? dictionary
    some ⟨results, name, operands, dependences, properties, dictionary⟩
  | _ => none

end OperationDecl

namespace Instance

def toJson (document : Instance) : Json :=
  .object ([("name", .string document.name), ("problem", .string document.problem)]
    ++ Property.listMember document.properties
    ++ [("operator_types", .array (document.operatorTypes.map OperatorTypeDecl.toJson)),
      ("operations", .array (document.operations.map OperationDecl.toJson))])

def ofJson? (json : Json) : Option Instance :=
  match json.fields? ["name", "problem", "properties", "operator_types", "operations"] with
  | some [some (.string name), some (.string problem), properties, some operatorTypes,
      some operations] => do
    let properties ← Property.listField? properties
    let operatorTypes ← Json.list? OperatorTypeDecl.ofJson? operatorTypes
    let operations ← Json.list? OperationDecl.ofJson? operations
    some ⟨name, problem, properties, operatorTypes, operations⟩
  | _ => none

/-- The document that a JSON text holds. -/
def ofJsonText? (text : String) : Option Instance := (Json.ofText? text).bind ofJson?

end Instance

end StaticScheduling
