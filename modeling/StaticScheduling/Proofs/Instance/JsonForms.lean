import Mathlib.Data.List.Nodup
import StaticScheduling.Instance.Json
import StaticScheduling.Proofs.Verification

/-! # Documents read from JSON

A document has several forms in JSON: the members of an object may stand in any
order, what is absent may be left out or `null`, and a list that is empty may be
left out or not.  Where a property list is absent or empty the forms differ.  The
form that is written is one of them, and each of them is read as the document.
-/

namespace StaticScheduling

namespace Json

variable {Value : Type} {form : Value → Json → Prop} {decode : Json → Option Value}

/-! ## Objects -/

/-- The members for some fields: an absent one has none. -/
def membersOf (fields : List (String × Option Json)) : List (String × Json) :=
  fields.flatMap fun field => optionalMember field.1 field.2

/-- An object with the given fields, in any order. -/
def IsObject (json : Json) (fields : List (String × Option Json)) : Prop :=
  ∃ members, json = .object members ∧ members.Perm (membersOf fields)

variable {fields : List (String × Option Json)}

theorem mem_membersOf {name : String} {json : Json} :
    (name, json) ∈ membersOf fields ↔ (name, some json) ∈ fields := by
  rw [membersOf, List.mem_flatMap]
  constructor
  · rintro ⟨⟨other, field⟩, member, here⟩
    cases field with
    | none => cases here
    | some value =>
      cases List.mem_singleton.mp here
      exact member
  · intro member
    exact ⟨_, member, .head _⟩

theorem nodup_names_membersOf (distinct : (fields.map Prod.fst).Nodup) :
    ((membersOf fields).map Prod.fst).Nodup := by
  have sublist : ((membersOf fields).map Prod.fst).Sublist (fields.map Prod.fst) := by
    induction fields with
    | nil => exact .slnil
    | cons field fields inductionHypothesis =>
      have rest := inductionHypothesis (List.nodup_cons.mp distinct).2
      obtain ⟨name, value⟩ := field
      cases value with
      | none => exact rest.cons name
      | some json => exact rest.cons_cons name
  exact distinct.sublist sublist

/-- The fields of an object are found by their names. -/
theorem IsObject.fields?_eq {json : Json} (object : json.IsObject fields)
    (distinct : (fields.map Prod.fst).Nodup) :
    json.fields? (fields.map Prod.fst) = some (fields.map Prod.snd) := by
  obtain ⟨members, rfl, perm⟩ := object
  have names : (members.map Prod.fst).Nodup :=
    (perm.map Prod.fst).nodup_iff.mpr (nodup_names_membersOf distinct)
  have single : (fields.map Prod.fst).all
      (fun name => (members.filter fun entry => entry.1 = name).length ≤ 1) = true := by
    rw [List.all_eq_true]
    intro name _
    have once := List.nodup_iff_count_le_one.mp names name
    rw [List.count, List.countP_map, List.countP_eq_length_filter] at once
    exact decide_eq_true once
  have found : ∀ field ∈ fields, members.lookup field.1 = field.2 := by
    rintro ⟨name, value⟩ member
    ext json
    rw [lookup_eq_some_iff_mem names, perm.mem_iff, mem_membersOf]
    constructor
    · intro here
      exact congrArg Prod.snd (List.inj_on_of_nodup_map distinct member here rfl)
    · rintro rfl
      exact member
  rw [fields?, if_pos single, List.map_map]
  exact congrArg some (List.map_congr_left found)

/-! ## Fields -/

/-- An array of forms of the values. -/
def IsList (form : Value → Json → Prop) (values : List Value) (json : Json) : Prop :=
  ∃ elements, json = .array elements ∧ List.Forall₂ form values elements

/-- A field for a value that may be absent. -/
inductive OptionalField (form : Value → Json → Prop) : Option Value → Option Json → Prop where
  | absent : OptionalField form none none
  | null : OptionalField form none (some .null)
  | present {value : Value} {json : Json} :
    form value json → OptionalField form (some value) (some json)

/-- A field for a list that may be left out where it is empty. -/
inductive ListField (form : Value → Json → Prop) : List Value → Option Json → Prop where
  | absent : ListField form [] none
  | array {values : List Value} {elements : List Json} :
    List.Forall₂ form values elements → ListField form values (some (.array elements))

theorem mapM_eq_some_of_forall₂ {values : List Value} {elements : List Json}
    (forms : List.Forall₂ form values elements)
    (reads : ∀ value ∈ values, ∀ json, form value json → decode json = some value) :
    elements.mapM decode = some values := by
  induction forms with
  | nil => rfl
  | cons here _ inductionHypothesis =>
    obtain ⟨first, rest⟩ := List.forall_mem_cons.mp reads
    rw [List.mapM_cons, first _ here, inductionHypothesis rest]
    rfl

theorem IsList.read {values : List Value} {json : Json} (list : IsList form values json)
    (reads : ∀ value ∈ values, ∀ json, form value json → decode json = some value) :
    list? decode json = some values := by
  obtain ⟨elements, rfl, forms⟩ := list
  exact mapM_eq_some_of_forall₂ forms reads

theorem ListField.read {values : List Value} {field : Option Json}
    (written : ListField form values field)
    (reads : ∀ value ∈ values, ∀ json, form value json → decode json = some value) :
    listField? decode field = some values := by
  cases written with
  | absent => rfl
  | array forms => exact mapM_eq_some_of_forall₂ forms reads

/-- A value that is no `null` is read from its field. -/
theorem OptionalField.read {value : Option Value} {field : Option Json}
    (written : OptionalField form value field)
    (reads : ∀ value json, form value json → decode json = some value)
    (notNull : decode .null = none) : optionalField? decode field = some value := by
  cases written with
  | absent => rfl
  | null => rfl
  | @present value json here =>
    have read := reads value json here
    cases json with
    | null => cases notNull.symm.trans read
    | _ => exact congrArg (Option.map some) read

/-! ## What is written -/

theorem isObject_of_eq {members : List (String × Json)} (same : members = membersOf fields) :
    (object members).IsObject fields := ⟨members, rfl, same ▸ .refl _⟩

variable {toJson : Value → Json}

theorem forall₂_map (values : List Value) (writes : ∀ value, form value (toJson value)) :
    List.Forall₂ form values (values.map toJson) := by
  rw [List.forall₂_map_right_iff, List.forall₂_same]
  exact fun value _ => writes value

theorem isList_map (values : List Value) (writes : ∀ value, form value (toJson value)) :
    IsList form values (.array (values.map toJson)) := ⟨_, rfl, forall₂_map values writes⟩

theorem optionalField_map (value : Option Value) (writes : ∀ value, form value (toJson value)) :
    OptionalField form value (value.map toJson) := by
  cases value with
  | none => exact .absent
  | some value => exact .present (writes value)

/-- The field of a list that is left out where it is empty. -/
def fieldOfList : List Json → Option Json
  | [] => none
  | elements@(_ :: _) => some (.array elements)

theorem listMember_eq (name : String) (elements : List Json) :
    listMember name elements = optionalMember name (fieldOfList elements) := by
  cases elements <;> rfl

theorem listField_fieldOfList {values : List Value} {elements : List Json}
    (forms : List.Forall₂ form values elements) : ListField form values (fieldOfList elements) := by
  cases forms with
  | nil => exact .absent
  | cons here others => exact .array (.cons here others)

theorem listField_map (values : List Value) (writes : ∀ value, form value (toJson value)) :
    ListField form values (fieldOfList (values.map toJson)) :=
  listField_fieldOfList (forall₂_map values writes)

/-! ## Texts and numbers -/

/-- The form of a text. -/
def IsText (text : String) (json : Json) : Prop := json = .string text

theorem string?_of_isText (text : String) (json : Json) (isText : IsText text json) :
    json.string? = some text := by
  rw [isText]
  rfl

theorem signed64?_toInt (number : Int64) :
    (integer number.toInt).signed64? = some number := by
  have bounds := And.intro number.minValue_le_toInt number.toInt_le
  simp only [signed64?]
  rw [if_pos bounds, Int64.ofInt_toInt]

theorem word32?_natCast {number : Nat} (small : number < UInt32.size) :
    (integer number).word32? = some number := by
  simp only [word32?]
  rw [if_pos (by omega), Int.toNat_natCast]

end Json

/-! ## Properties -/

mutual

/-- The forms of a property. -/
inductive Property.Written : Property → Json → Prop where
  | object {dialect mnemonic : String} {parameters : List Parameter} {field : Option Json}
    {json : Json} :
    json.IsObject [("dialect", some (.string dialect)), ("mnemonic", some (.string mnemonic)),
      ("params", field)] →
    Json.ListField Parameter.Written parameters field →
    Property.Written ⟨dialect, mnemonic, parameters⟩ json

/-- The forms of a parameter. -/
inductive Parameter.Written : Parameter → Json → Prop where
  | integer (number : Int64) :
    Parameter.Written (.integer number) (.object [("integer", .integer number.toInt)])
  | symbol (name : String) :
    Parameter.Written (.symbol name) (.object [("symbol", .string name)])
  | string (text : String) :
    Parameter.Written (.string text) (.object [("string", .string text)])
  | property {nested : Property} {json : Json} :
    Property.Written nested json →
    Parameter.Written (.property nested) (.object [("attr", json)])

end

/-- A property is read from its fields, where no parameters are as good as an empty list of them. -/
theorem Property.ofJson?_of_fields {json : Json} {dialect mnemonic : String}
    {field : Option Json} {parameters : List Parameter}
    (fields : json.fields? ["dialect", "mnemonic", "params"] =
      some [some (.string dialect), some (.string mnemonic), field])
    (list : field = none ∧ parameters = [] ∨ ∃ elements, field = some (.array elements) ∧
      Parameter.listOfJson? elements = some parameters) :
    Property.ofJson? json = some ⟨dialect, mnemonic, parameters⟩ := by
  rw [Property.ofJson?]
  rcases list with ⟨rfl, rfl⟩ | ⟨elements, rfl, read⟩
  · split
    · rename_i found
      cases fields.symm.trans found
      rfl
    · rename_i found
      cases fields.symm.trans found
    · rename_i other _
      exact absurd fields (other _ _)
  · split
    · rename_i found
      cases fields.symm.trans found
    · rename_i found
      cases fields.symm.trans found
      rw [read, Option.map_some]
    · rename_i other
      exact absurd fields (other _ _ _)

mutual

theorem Property.ofJson?_of_written : (property : Property) → {json : Json} →
    property.Written json → Property.ofJson? json = some property
  | ⟨_, _, parameters⟩, _, .object object list => by
    have fields := object.fields?_eq (by simp)
    cases list with
    | absent => exact Property.ofJson?_of_fields fields (.inl ⟨rfl, rfl⟩)
    | array forms =>
      have read := Parameter.listOfJson?_of_written parameters forms
      exact Property.ofJson?_of_fields fields (.inr ⟨_, rfl, read⟩)

theorem Parameter.ofJson?_of_written : (parameter : Parameter) → {json : Json} →
    parameter.Written json → Parameter.ofJson? json = some parameter
  | .integer number, _, .integer _ => by
    rw [Parameter.ofJson?, Json.signed64?_toInt, Option.map_some]
  | .symbol name, _, .symbol _ => by rw [Parameter.ofJson?]
  | .string text, _, .string _ => by rw [Parameter.ofJson?]
  | .property nested, _, .property written => by
    rw [Parameter.ofJson?, Property.ofJson?_of_written nested written, Option.map_some]

theorem Parameter.listOfJson?_of_written : (parameters : List Parameter) → {elements : List Json} →
    List.Forall₂ Parameter.Written parameters elements →
      Parameter.listOfJson? elements = some parameters
  | [], _, .nil => by rw [Parameter.listOfJson?]
  | first :: rest, _, .cons here others => by
    rw [Parameter.listOfJson?, Parameter.ofJson?_of_written first here,
      Parameter.listOfJson?_of_written rest others]

end

mutual

theorem Property.written_toJson : (property : Property) → property.Written property.toJson
  | ⟨dialect, mnemonic, parameters⟩ => by
    have forms := Json.listField_fieldOfList (Parameter.written_listToJson parameters)
    refine .object ?_ forms
    rw [Property.toJson, Json.listMember_eq]
    exact Json.isObject_of_eq (by simp [Json.membersOf, Json.optionalMember])

theorem Parameter.written_toJson : (parameter : Parameter) → parameter.Written parameter.toJson
  | .integer number => .integer number
  | .symbol name => .symbol name
  | .string text => .string text
  | .property nested => .property nested.written_toJson

theorem Parameter.written_listToJson : (parameters : List Parameter) →
    List.Forall₂ Parameter.Written parameters (Parameter.listToJson parameters)
  | [] => .nil
  | first :: rest => .cons first.written_toJson (Parameter.written_listToJson rest)

end

theorem Parameter.ofJson?_null : Parameter.ofJson? .null = none := by simp [Parameter.ofJson?]

/-- A field for a property list that may be absent. -/
def Property.ListField : Option (List Property) → Option Json → Prop :=
  Json.OptionalField (Json.IsList Property.Written)

theorem Property.ListField.read {properties : Option (List Property)} {field : Option Json}
    (written : Property.ListField properties field) :
    Property.listField? field = some properties := by
  refine Json.OptionalField.read written ?_ rfl
  intro list json forms
  exact forms.read fun property _ _ => property.ofJson?_of_written

theorem Property.listField_toJson (properties : Option (List Property)) :
    Property.ListField properties
      (properties.map fun list => .array (list.map Property.toJson)) :=
  Json.optionalField_map properties fun list => Json.isList_map list Property.written_toJson

/-! ## Declarations -/

namespace DictionaryEntry

/-- The forms of a dictionary entry. -/
def Written (entry : DictionaryEntry) (json : Json) : Prop :=
  ∃ value, json.IsObject [("name", some (.string entry.name)), ("value", value)] ∧
    Json.OptionalField Parameter.Written entry.value value

theorem ofJson?_of_written {entry : DictionaryEntry} {json : Json} (written : entry.Written json) :
    ofJson? json = some entry := by
  obtain ⟨value, object, optional⟩ := written
  have fields : json.fields? ["name", "value"] = some [some (.string entry.name), value] :=
    object.fields?_eq (by simp)
  have read := optional.read (fun parameter _ => parameter.ofJson?_of_written)
    Parameter.ofJson?_null
  simp only [ofJson?, fields, read]
  rfl

theorem written_toJson (entry : DictionaryEntry) : entry.Written entry.toJson := by
  refine ⟨_, ?_, Json.optionalField_map entry.value Parameter.written_toJson⟩
  exact Json.isObject_of_eq (by simp [Json.membersOf, Json.optionalMember])

end DictionaryEntry

namespace Slot

/-- The forms of a slot. -/
def Written : Slot → Json → Prop
  | .operand index, json => json = .object [("data", .integer index)]
  | .named index source, json => ∃ content, json = .object [("named", content)] ∧
    content.IsObject [("index", some (.integer index)), ("source", some (.string source))]

theorem ofJson?_of_written {slot : Slot} {json : Json} (written : slot.Written json)
    (small : slot.index < UInt32.size) : ofJson? json = some slot := by
  cases slot with
  | operand index =>
    cases written
    have read : (Json.integer index).word32? = some index := Json.word32?_natCast small
    rw [ofJson?, read, Option.map_some]
  | named index source =>
    obtain ⟨content, rfl, object⟩ := written
    have fields : content.fields? ["index", "source"] =
        some [some (.integer index), some (.string source)] := object.fields?_eq (by simp)
    have read : (Json.integer index).word32? = some index := Json.word32?_natCast small
    simp only [ofJson?, fields, read, Option.map_some]

theorem written_toJson (slot : Slot) : slot.Written slot.toJson := by
  cases slot with
  | operand index => rfl
  | named index source => exact ⟨_, rfl, Json.isObject_of_eq rfl⟩

end Slot

namespace DependenceRecord

/-- The forms of a dependence record. -/
def Written (record : DependenceRecord) (json : Json) : Prop :=
  ∃ slot properties, json.IsObject [("slot", some slot), ("properties", properties)] ∧
    record.slot.Written slot ∧ Property.ListField record.properties properties

theorem ofJson?_of_written {record : DependenceRecord} {json : Json}
    (written : record.Written json) (small : record.slot.index < UInt32.size) :
    ofJson? json = some record := by
  obtain ⟨slot, properties, object, slotWritten, list⟩ := written
  have fields : json.fields? ["slot", "properties"] = some [some slot, properties] :=
    object.fields?_eq (by simp)
  have read := Slot.ofJson?_of_written slotWritten small
  simp only [ofJson?, fields, read, list.read]
  rfl

theorem written_toJson (record : DependenceRecord) : record.Written record.toJson := by
  refine ⟨_, _, ?_, record.slot.written_toJson, Property.listField_toJson record.properties⟩
  exact Json.isObject_of_eq (by simp [Json.membersOf, Json.optionalMember, Property.listMember])

end DependenceRecord

namespace OperatorTypeDecl

/-- The forms of an operator type declaration. -/
def Written (declaration : OperatorTypeDecl) (json : Json) : Prop :=
  ∃ properties,
    json.IsObject [("name", some (.string declaration.name)), ("properties", properties)] ∧
    Property.ListField declaration.properties properties

theorem ofJson?_of_written {declaration : OperatorTypeDecl} {json : Json}
    (written : declaration.Written json) : ofJson? json = some declaration := by
  obtain ⟨properties, object, list⟩ := written
  have fields : json.fields? ["name", "properties"] =
      some [some (.string declaration.name), properties] := object.fields?_eq (by simp)
  simp only [ofJson?, fields, list.read]
  rfl

theorem written_toJson (declaration : OperatorTypeDecl) :
    declaration.Written declaration.toJson := by
  refine ⟨_, ?_, Property.listField_toJson declaration.properties⟩
  exact Json.isObject_of_eq (by simp [Json.membersOf, Json.optionalMember, Property.listMember])

end OperatorTypeDecl

namespace OperationDecl

/-- The forms of an operation declaration. -/
def Written (operation : OperationDecl) (json : Json) : Prop :=
  ∃ results name operands dependences properties dictionary,
    json.IsObject [("results", results), ("name", name), ("operands", operands),
      ("dependences", dependences), ("properties", properties), ("attributes", dictionary)] ∧
    Json.ListField Json.IsText operation.results results ∧
    Json.OptionalField Json.IsText operation.name name ∧
    Json.ListField Json.IsText operation.operands operands ∧
    Json.ListField DependenceRecord.Written operation.dependences dependences ∧
    Property.ListField operation.properties properties ∧
    Json.ListField DictionaryEntry.Written operation.dictionary dictionary

/-- The indices of all records are numbers of 32 bits. -/
def HasWords (operation : OperationDecl) : Prop :=
  ∀ record ∈ operation.dependences, record.slot.index < UInt32.size

theorem ofJson?_of_written {operation : OperationDecl} {json : Json}
    (written : operation.Written json) (words : operation.HasWords) :
    ofJson? json = some operation := by
  obtain ⟨results, name, operands, dependences, properties, dictionary, object, resultsWritten,
    nameWritten, operandsWritten, dependencesWritten, list, dictionaryWritten⟩ := written
  have fields : json.fields? ["results", "name", "operands", "dependences", "properties",
      "attributes"] = some [results, name, operands, dependences, properties, dictionary] :=
    object.fields?_eq (by simp)
  have readResults := resultsWritten.read fun text _ => Json.string?_of_isText text
  have readName := nameWritten.read Json.string?_of_isText rfl
  have readOperands := operandsWritten.read fun text _ => Json.string?_of_isText text
  have readDependences := dependencesWritten.read fun record member _ recordWritten =>
    DependenceRecord.ofJson?_of_written recordWritten (words record member)
  have readDictionary := dictionaryWritten.read fun _ _ _ => DictionaryEntry.ofJson?_of_written
  simp only [ofJson?, fields, readResults, readName, readOperands, readDependences, list.read,
    readDictionary]
  rfl

theorem written_toJson (operation : OperationDecl) : operation.Written operation.toJson := by
  refine ⟨_, _, _, _, _, _, ?_, Json.listField_map operation.results fun _ => rfl,
    Json.optionalField_map operation.name fun _ => rfl,
    Json.listField_map operation.operands fun _ => rfl,
    Json.listField_map operation.dependences DependenceRecord.written_toJson,
    Property.listField_toJson operation.properties,
    Json.listField_map operation.dictionary DictionaryEntry.written_toJson⟩
  exact Json.isObject_of_eq (by simp [Json.membersOf, Json.listMember_eq, Property.listMember])

end OperationDecl

/-! ## Documents -/

namespace Instance

/-- The forms of a document. -/
def Written (document : Instance) (json : Json) : Prop :=
  ∃ properties operatorTypes operations,
    json.IsObject [("name", some (.string document.name)),
      ("problem", some (.string document.problem)), ("properties", properties),
      ("operator_types", some operatorTypes), ("operations", some operations)] ∧
    Property.ListField document.properties properties ∧
    Json.IsList OperatorTypeDecl.Written document.operatorTypes operatorTypes ∧
    Json.IsList OperationDecl.Written document.operations operations

theorem ofJson?_of_written {document : Instance} {json : Json} (written : document.Written json)
    (words : ∀ operation ∈ document.operations, operation.HasWords) :
    ofJson? json = some document := by
  obtain ⟨properties, operatorTypes, operations, object, list, typesWritten, operationsWritten⟩ :=
    written
  have fields : json.fields? ["name", "problem", "properties", "operator_types", "operations"] =
      some [some (.string document.name), some (.string document.problem), properties,
        some operatorTypes, some operations] := object.fields?_eq (by simp)
  have readTypes := typesWritten.read fun _ _ _ => OperatorTypeDecl.ofJson?_of_written
  have readOperations := operationsWritten.read fun operation member _ operationWritten =>
    OperationDecl.ofJson?_of_written operationWritten (words operation member)
  simp only [ofJson?, fields, list.read, readTypes, readOperations]
  rfl

theorem written_toJson (document : Instance) : document.Written document.toJson := by
  refine ⟨_, _, _, ?_, Property.listField_toJson document.properties,
    Json.isList_map document.operatorTypes OperatorTypeDecl.written_toJson,
    Json.isList_map document.operations OperationDecl.written_toJson⟩
  exact Json.isObject_of_eq (by simp [Json.membersOf, Json.optionalMember, Property.listMember])

/-- What a document is written as is read as this document, and so is each of its forms: whether what
is absent is left out or `null`, and whether a list that is empty is left out or not. -/
theorem ofJson?_toJson {document : Instance}
    (words : ∀ operation ∈ document.operations, operation.HasWords) :
    ofJson? document.toJson = some document ∧
      ∀ json, document.Written json → ofJson? json = some document :=
  ⟨ofJson?_of_written document.written_toJson words,
    fun _ written => ofJson?_of_written written words⟩

/-- An operation without a name and results, whose records and properties are absent, empty and
nested. -/
def sparseOperation : OperationDecl where
  results := []
  name := none
  operands := ["x"]
  dependences := [⟨.operand 0, some []⟩, ⟨.named 1 "a", none⟩]
  properties := some [⟨"test", "pair", [.integer (-1), .property ⟨"test", "unit", []⟩]⟩]
  dictionary := [⟨"key", none⟩]

/-- A form of this operation in which nothing is left out. -/
def sparseOperationForm : Json :=
  .object [("results", .array []), ("name", .null), ("operands", .array [.string "x"]),
    ("dependences", .array [
      .object [("slot", .object [("data", .integer 0)]), ("properties", .array [])],
      .object [("slot", .object [("named",
        .object [("index", .integer 1), ("source", .string "a")])]), ("properties", .null)]]),
    ("properties", .array [.object [("dialect", .string "test"), ("mnemonic", .string "pair"),
      ("params", .array [.object [("integer", .integer (-1))],
        .object [("attr", .object [("dialect", .string "test"), ("mnemonic", .string "unit"),
          ("params", .array [])])]])]]),
    ("attributes", .array [.object [("name", .string "key"), ("value", .null)]])]

theorem written_sparseOperationForm : sparseOperation.Written sparseOperationForm := by
  have records : Json.ListField DependenceRecord.Written sparseOperation.dependences _ :=
    .array (.cons ⟨_, _, Json.isObject_of_eq rfl, rfl, .present ⟨_, rfl, .nil⟩⟩
      (.cons ⟨_, _, Json.isObject_of_eq rfl, ⟨_, rfl, Json.isObject_of_eq rfl⟩, .null⟩ .nil))
  have unit : Property.Written ⟨"test", "unit", []⟩ _ := .object (Json.isObject_of_eq rfl) (.array .nil)
  have pair : Property.Written ⟨"test", "pair", [.integer (-1), .property ⟨"test", "unit", []⟩]⟩ _ :=
    .object (Json.isObject_of_eq rfl) (.array (.cons (.integer (-1)) (.cons (.property unit) .nil)))
  have entries : Json.ListField DictionaryEntry.Written sparseOperation.dictionary _ :=
    .array (.cons ⟨_, Json.isObject_of_eq rfl, .null⟩ .nil)
  exact ⟨_, _, _, _, _, _, Json.isObject_of_eq rfl, .array .nil, .null, .array (.cons rfl .nil),
    records, .present ⟨_, rfl, .cons pair .nil⟩, entries⟩

/-- A document with an operator type that has no property list, and with an empty one itself. -/
def sparse : Instance := ⟨"a b", "Problem", some [], [⟨"alu", none⟩], [sparseOperation]⟩

/-- A form of this document with its members in another order. -/
def sparseForm : Json :=
  .object [("problem", .string "Problem"), ("name", .string "a b"), ("properties", .array []),
    ("operator_types", .array [.object [("name", .string "alu"), ("properties", .null)]]),
    ("operations", .array [sparseOperationForm])]

theorem written_sparseForm : sparse.Written sparseForm := by
  have types : Json.IsList OperatorTypeDecl.Written sparse.operatorTypes _ :=
    ⟨_, rfl, .cons ⟨_, Json.isObject_of_eq rfl, .null⟩ .nil⟩
  exact ⟨_, _, _, ⟨_, rfl, .swap ..⟩, .present ⟨_, rfl, .nil⟩, types,
    ⟨_, rfl, .cons written_sparseOperationForm .nil⟩⟩

theorem ofJson?_toJson_sparse :
    (∀ operation ∈ sparse.operations, operation.HasWords) ∧
      ofJson? sparse.toJson = some sparse ∧ sparse.Written sparseForm ∧
      ofJson? sparseForm = some sparse := by
  have words : ∀ operation ∈ sparse.operations, operation.HasWords := by
    unfold OperationDecl.HasWords
    decide
  obtain ⟨back, forms⟩ := ofJson?_toJson words
  exact ⟨words, back, written_sparseForm, forms sparseForm written_sparseForm⟩

end Instance

end StaticScheduling
