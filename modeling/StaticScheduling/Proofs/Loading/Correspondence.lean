import Mathlib.Data.List.Nodup
import Mathlib.Data.Option.Basic
import Mathlib.Logic.Equiv.Defs
import StaticScheduling.Proofs.Loading.Loaded

/-! # Corresponding documents

Two documents correspond if one comes from the other by moving operations to
other places, and by giving operations and values other names, different ones to
different ones.  Names matter to loading only in so far as they are equal, and
places only in so far as they say which operation is meant; so one document is
loadable if the other one is, and the problems differ in the places alone.
-/

namespace StaticScheduling

/-! ## Problems with operations in other places -/

/-- The operations at the places that operations are moved to. -/
def OperationId.moved (places : Equiv.Perm Nat) : Equiv.Perm OperationId where
  toFun operation := ⟨places operation.index⟩
  invFun operation := ⟨places.symm operation.index⟩
  left_inv operation := by simp
  right_inv operation := by simp

/-- The operands with their sources moved. -/
def Operand.moved (places : Equiv.Perm Nat) : Equiv.Perm Operand where
  toFun operand := { operand with source := OperationId.moved places operand.source }
  invFun operand := { operand with source := (OperationId.moved places).symm operand.source }
  left_inv operand := by simp
  right_inv operand := by simp

namespace Dependence

/-- The dependence between the images of the ends. -/
def mapEnds (image : OperationId → OperationId) : Dependence → Dependence
  | .data source result destination operand =>
    .data (image source) result (image destination) operand
  | .auxiliary source destination => .auxiliary (image source) (image destination)

theorem mapEnds_mapEnds {first second : OperationId → OperationId}
    (undone : ∀ operation, second (first operation) = operation) (dependence : Dependence) :
    (dependence.mapEnds first).mapEnds second = dependence := by
  cases dependence <;> simp [mapEnds, undone]

/-- The dependences with both ends moved. -/
def moved (places : Equiv.Perm Nat) : Equiv.Perm Dependence where
  toFun := mapEnds (OperationId.moved places)
  invFun := mapEnds (OperationId.moved places).symm
  left_inv := mapEnds_mapEnds (OperationId.moved places).symm_apply_apply
  right_inv := mapEnds_mapEnds (OperationId.moved places).apply_symm_apply

theorem destination_moved (places : Equiv.Perm Nat) (dependence : Dependence) :
    (moved places dependence).destination = OperationId.moved places dependence.destination := by
  cases dependence <;> rfl

end Dependence

/-- The same operation, where the operations that it names are moved. -/
def Operation.moved (places : Equiv.Perm Nat) (node : Operation) : Operation :=
  { node with
    operands := node.operands.map (Operand.moved places)
    auxiliarySources := node.auxiliarySources.map (OperationId.moved places) }

/-- The values of keys, given to the keys that these are moved to. -/
def Assignment.moved {Key Value : Type} (move : Equiv.Perm Key) (assignment : Assignment Key Value) :
    Assignment Key Value :=
  .ofFunction fun key => assignment.get? (move.symm key)

@[simp] theorem Assignment.get?_moved {Key Value : Type} (move : Equiv.Perm Key)
    (assignment : Assignment Key Value) (key : Key) :
    (assignment.moved move).get? (move key) = assignment.get? key := by
  rw [moved, get?_ofFunction, Equiv.symm_apply_apply]

/-- The same problem with its operations moved to other places, wherever they occur.  All places
together stay the same. -/
def Problem.moved (places : Equiv.Perm Nat) (problem : Problem) : Problem :=
  { problem with
    operations := (List.range problem.operations.length).filterMap fun place =>
      (problem.operations[places.symm place]?).map (Operation.moved places)
    links := problem.links.moved (OperationId.moved places)
    startTimes := problem.startTimes.moved (OperationId.moved places)
    distances := problem.distances.moved (Dependence.moved places) }

/-- Every operation of a problem is found where it was moved to. -/
theorem Problem.getElem?_moved {places : Equiv.Perm Nat} {problem : Problem}
    (within : ∀ place, places place < problem.operations.length ↔ place < problem.operations.length)
    (place : Nat) :
    (problem.moved places).operations[places place]? =
      problem.operations[place]?.map (Operation.moved places) := by
  have total : ∀ place ∈ List.range problem.operations.length,
      ((problem.operations[places.symm place]?).map (Operation.moved places)).isSome := by
    intro place member
    have inside := (within (places.symm place)).mp (by simpa using member)
    simp [inside]
  rw [Problem.moved, getElem?_filterMap_of_isSome total]
  by_cases inside : place < problem.operations.length
  · simp [List.getElem?_range ((within place).mpr inside)]
  · have outside := mt (within place).mp inside
    simp [inside, outside]

/-! ## Documents with other names -/

def Slot.renamed (symbols : String → String) : Slot → Slot
  | .operand index => .operand index
  | .named index source => .named index (symbols source)

/-- The record that names its source by another symbol. -/
def DependenceRecord.renamed (symbols : String → String) (record : DependenceRecord) :
    DependenceRecord :=
  { record with slot := record.slot.renamed symbols }

/-- Names do not matter to the order of records. -/
theorem recordFault?_map_renamed (symbols : String → String) (operands : Nat)
    (records : List DependenceRecord) :
    recordFault? operands (records.map (DependenceRecord.renamed symbols)) = none ↔
      recordFault? operands records = none := by
  unfold recordFault?
  generalize (none : Option Nat) = last
  induction records generalizing last with
  | nil => exact Iff.rfl
  | cons record rest inductionHypothesis =>
    have index : (record.slot.renamed symbols).index = record.slot.index := by
      cases record.slot <;> rfl
    have here : (record.renamed symbols).fault? operands last = none ↔
        record.fault? operands last = none := by
      obtain ⟨slot, properties⟩ := record
      cases slot with
      | operand index => exact Iff.rfl
      | named index source =>
        simp only [DependenceRecord.renamed, Slot.renamed, DependenceRecord.fault?]
        split
        · simp
        · split <;> simp
    rw [List.map_cons, DependenceRecord.firstFault?_cons_eq_none_iff,
      DependenceRecord.firstFault?_cons_eq_none_iff, here]
    simp only [DependenceRecord.renamed, index] at inductionHypothesis ⊢
    rw [inductionHypothesis]

/-- A declaration with other names for its values and for operations.  It may have any dictionary. -/
structure OperationDecl.RenamedTo (values symbols : String → String)
    (declaration renamed : OperationDecl) : Prop where
  results : renamed.results = declaration.results.map values
  name : renamed.name = declaration.name.map symbols
  operands : renamed.operands = declaration.operands.map values
  dependences : renamed.dependences = declaration.dependences.map (.renamed symbols)
  properties : renamed.properties = declaration.properties

theorem OperationDecl.RenamedTo.sources {values symbols : String → String}
    {declaration renamed : OperationDecl} (related : declaration.RenamedTo values symbols renamed) :
    renamed.sources = declaration.sources.map symbols := by
  rw [OperationDecl.sources, OperationDecl.sources, related.dependences, List.filterMap_map,
    List.map_filterMap]
  congr 1
  funext record
  obtain ⟨slot, properties⟩ := record
  cases slot <;> rfl

/-- Documents that differ in the places of operations, in the names of operations and values, and in
dictionaries. -/
structure Instance.Corresponds (places : Equiv.Perm Nat) (values symbols : String → String)
    (document changed : Instance) : Prop where
  name : changed.name = document.name
  problem : changed.problem = document.problem
  properties : changed.properties = document.properties
  operatorTypes : changed.operatorTypes = document.operatorTypes
  length : changed.operations.length = document.operations.length
  operations : ∀ place, Option.Rel (OperationDecl.RenamedTo values symbols)
    document.operations[place]? changed.operations[places place]?
  valuesInjective : Function.Injective values
  symbolsInjective : Function.Injective symbols
  /-- Operator types keep their names. -/
  fixed : ∀ declaration ∈ document.operatorTypes, symbols declaration.name = declaration.name

/-! ## Labels -/

section Labels

variable {Key : Type} {label relabelled : Key → Option String}

/-- Keys that have a label have different ones. -/
def Distinct (label : Key → Option String) : Prop :=
  ∀ first second name, label first = some name → label second = some name → first = second

variable {move : Equiv.Perm Key} {rename : String → String} (injective : Function.Injective rename)
  (moves : ∀ key, relabelled (move key) = (label key).map rename)

include injective moves

theorem relabelled_eq_some_iff {key : Key} {name : String} :
    relabelled (move key) = some (rename name) ↔ label key = some name := by
  rw [moves, ← Option.map_some]
  exact (Option.map_injective injective).eq_iff

theorem exists_relabelled_iff {name : String} :
    (∃ key, relabelled key = some (rename name)) ↔ ∃ key, label key = some name := by
  rw [move.surjective.exists]
  exact exists_congr fun _ => relabelled_eq_some_iff injective moves

theorem distinct_relabelled_iff : Distinct relabelled ↔ Distinct label := by
  constructor
  · intro distinct first second name firstLabel secondLabel
    exact move.injective (distinct _ _ (rename name)
      ((relabelled_eq_some_iff injective moves).mpr firstLabel)
      ((relabelled_eq_some_iff injective moves).mpr secondLabel))
  · intro distinct
    refine move.surjective.forall₂.mpr fun first second name firstLabel secondLabel => ?_
    -- a label of a moved key is a new name, and both keys had the old one
    rw [moves] at firstLabel
    obtain ⟨old, here, rfl⟩ := Option.map_eq_some_iff.mp firstLabel
    exact congrArg move (distinct first second old here
      ((relabelled_eq_some_iff injective moves).mp secondLabel))

/-- Where a label is looked up, the moved key is found. -/
theorem find_relabelled {find findRelabelled : String → Option Key}
    (finds : ∀ name key, find name = some key ↔ label key = some name)
    (findsRelabelled : ∀ name key, findRelabelled name = some key ↔ relabelled key = some name)
    (name : String) : findRelabelled (rename name) = (find name).map move := by
  ext1 key
  obtain ⟨key, rfl⟩ := move.surjective key
  rw [findsRelabelled, relabelled_eq_some_iff injective moves, ← finds, ← Option.map_some,
    (Option.map_injective move.injective).eq_iff]

end Labels

namespace Instance

/-! ## Names and places -/

section Places

variable {document : Instance} {name : String}

theorem mem_names_iff :
    name ∈ document.names ↔ ∃ operation, document.nameOf? operation = some name := by
  constructor
  · intro member
    obtain ⟨declaration, present, named⟩ := List.mem_filterMap.mp member
    obtain ⟨place, inside⟩ := List.getElem?_of_mem present
    exact ⟨⟨place⟩, Option.bind_eq_some_iff.mpr ⟨declaration, inside, named⟩⟩
  · rintro ⟨operation, named⟩
    obtain ⟨declaration, inside, named⟩ := Option.bind_eq_some_iff.mp named
    exact List.mem_filterMap.mpr ⟨declaration, List.mem_of_getElem? inside, named⟩

theorem mem_values_iff :
    name ∈ document.values ↔ ∃ operand, document.valueAt? operand = some name := by
  constructor
  · intro member
    obtain ⟨declaration, present, defined⟩ := List.mem_flatMap.mp member
    obtain ⟨place, inside⟩ := List.getElem?_of_mem present
    obtain ⟨result, bears⟩ := List.getElem?_of_mem defined
    exact ⟨⟨⟨place⟩, result⟩, Option.bind_eq_some_iff.mpr ⟨declaration, inside, bears⟩⟩
  · rintro ⟨operand, bears⟩
    obtain ⟨declaration, inside, bears⟩ := Option.bind_eq_some_iff.mp bears
    exact List.mem_flatMap.mpr
      ⟨declaration, List.mem_of_getElem? inside, List.mem_of_getElem? bears⟩

theorem nodup_names_iff : document.names.Nodup ↔ Distinct document.nameOf? := by
  constructor
  · intro distinct first second name firstNamed secondNamed
    exact congrArg OperationId.mk (index_eq_of_nodup_filterMap distinct firstNamed secondNamed)
  · intro apart
    refine List.pairwise_filterMap.mpr (List.pairwise_iff_getElem.mpr ?_)
    rintro first second firstInside secondInside before name firstNamed _ secondNamed rfl
    have same := apart ⟨first⟩ ⟨second⟩ name
      (Option.bind_eq_some_iff.mpr ⟨_, List.getElem?_eq_getElem firstInside, firstNamed⟩)
      (Option.bind_eq_some_iff.mpr ⟨_, List.getElem?_eq_getElem secondInside, secondNamed⟩)
    exact absurd (OperationId.mk.inj same) (Nat.ne_of_lt before)

theorem nodup_values_iff : document.values.Nodup ↔ Distinct document.valueAt? := by
  constructor
  · intro distinct first second name
    exact operand_eq_of_valueAt? distinct
  · intro apart
    have bears {source result : Nat} (sourceInside : source < document.operations.length)
        (resultInside : result < document.operations[source].results.length) :
        document.valueAt? ⟨⟨source⟩, result⟩ =
          some document.operations[source].results[result] := by
      simp [valueAt?, sourceInside, resultInside]
    -- two results with one name would be in one operation or in two
    refine List.pairwise_flatMap.mpr ⟨?_, List.pairwise_iff_getElem.mpr ?_⟩
    · intro declaration present
      obtain ⟨place, inside, rfl⟩ := List.getElem_of_mem present
      refine List.pairwise_iff_getElem.mpr fun first second firstInside secondInside before same => ?_
      have secondBears := bears inside secondInside
      rw [← same] at secondBears
      have both := apart _ _ _ (bears inside firstInside) secondBears
      exact absurd (Operand.mk.inj both).2 (Nat.ne_of_lt before)
    · rintro first second firstInside secondInside before name firstMember _ secondMember rfl
      obtain ⟨firstResult, firstBelow, rfl⟩ := List.getElem_of_mem firstMember
      obtain ⟨secondResult, secondBelow, same⟩ := List.getElem_of_mem secondMember
      have secondBears := bears secondInside secondBelow
      rw [same] at secondBears
      have both := apart _ _ _ (bears firstInside firstBelow) secondBears
      exact absurd (OperationId.mk.inj (Operand.mk.inj both).1) (Nat.ne_of_lt before)

end Places

/-! ## What correspondence keeps -/

namespace Corresponds

variable {places : Equiv.Perm Nat} {values symbols : String → String} {document changed : Instance}
  {kinds : ProblemKinds} (corresponds : document.Corresponds places values symbols changed)

include corresponds

/-- What declarations say that become each other, if there are any. -/
theorem bind_eq {Value : Type} {before after : OperationDecl → Option Value}
    (same : ∀ declaration renamed, declaration.RenamedTo values symbols renamed →
      after renamed = before declaration) (place : Nat) :
    changed.operations[places place]?.bind after = document.operations[place]?.bind before := by
  have related := corresponds.operations place
  generalize document.operations[place]? = declaration at related ⊢
  generalize changed.operations[places place]? = renamed at related ⊢
  cases related with
  | none => rfl
  | some related => exact same _ _ related

/-- What holds of all declarations. -/
theorem forall_mem_iff {before after : OperationDecl → Prop}
    (same : ∀ declaration renamed, declaration.RenamedTo values symbols renamed →
      (after renamed ↔ before declaration)) :
    (∀ renamed ∈ changed.operations, after renamed) ↔
      ∀ declaration ∈ document.operations, before declaration := by
  constructor
  · intro all declaration present
    obtain ⟨place, inside⟩ := List.getElem?_of_mem present
    have related := corresponds.operations place
    generalize moved : changed.operations[places place]? = renamed at related
    rw [inside] at related
    cases related with
    | some related => exact (same _ _ related).mp (all _ (List.mem_of_getElem? moved))
  · intro all renamed present
    obtain ⟨place, moved⟩ := List.getElem?_of_mem present
    obtain ⟨place, rfl⟩ := places.surjective place
    have related := corresponds.operations place
    generalize inside : document.operations[place]? = declaration at related
    rw [moved] at related
    cases related with
    | some related => exact (same _ _ related).mpr (all _ (List.mem_of_getElem? inside))

theorem nameOf?_moved (operation : OperationId) :
    changed.nameOf? (OperationId.moved places operation) =
      (document.nameOf? operation).map symbols := by
  rw [nameOf?, nameOf?, Option.map_bind]
  exact corresponds.bind_eq (fun _ _ related => related.name) operation.index

theorem valueAt?_moved (operand : Operand) :
    changed.valueAt? (Operand.moved places operand) = (document.valueAt? operand).map values := by
  rw [valueAt?, valueAt?, Option.map_bind]
  refine corresponds.bind_eq (fun declaration renamed related => ?_) operand.source.index
  rw [related.results]
  exact List.getElem?_map

theorem mem_names_iff {name : String} : symbols name ∈ changed.names ↔ name ∈ document.names := by
  rw [Instance.mem_names_iff, Instance.mem_names_iff]
  exact exists_relabelled_iff corresponds.symbolsInjective corresponds.nameOf?_moved

theorem mem_values_iff {name : String} :
    values name ∈ changed.values ↔ name ∈ document.values := by
  rw [Instance.mem_values_iff, Instance.mem_values_iff]
  exact exists_relabelled_iff corresponds.valuesInjective corresponds.valueAt?_moved

theorem nodup_names_iff : changed.names.Nodup ↔ document.names.Nodup := by
  rw [Instance.nodup_names_iff, Instance.nodup_names_iff]
  exact distinct_relabelled_iff corresponds.symbolsInjective corresponds.nameOf?_moved

theorem nodup_values_iff : changed.values.Nodup ↔ document.values.Nodup := by
  rw [Instance.nodup_values_iff, Instance.nodup_values_iff]
  exact distinct_relabelled_iff corresponds.valuesInjective corresponds.valueAt?_moved

/-! ### Loadable documents -/

theorem connectable_iff {declaration renamed : OperationDecl}
    (related : declaration.RenamedTo values symbols renamed) :
    changed.Connectable kinds renamed ↔ document.Connectable kinds declaration := by
  have operands : (∀ name ∈ renamed.operands, name ∈ changed.values) ↔
      ∀ name ∈ declaration.operands, name ∈ document.values := by
    simp only [related.operands, List.forall_mem_map, corresponds.mem_values_iff]
  have records : recordFault? renamed.operands.length renamed.dependences = none ↔
      recordFault? declaration.operands.length declaration.dependences = none := by
    rw [related.operands, List.length_map, related.dependences, recordFault?_map_renamed]
  have sources : (∀ name ∈ renamed.sources, name ∈ changed.names) ↔
      ∀ name ∈ declaration.sources, name ∈ document.names := by
    simp only [related.sources, List.forall_mem_map, corresponds.mem_names_iff]
  have distinct : renamed.sources.Nodup ↔ declaration.sources.Nodup := by
    rw [related.sources, List.nodup_map_iff corresponds.symbolsInjective]
  have accepted : (∀ record ∈ renamed.dependences,
        PropertyKind.Accepted kinds.dependence record.properties) ↔
      ∀ record ∈ declaration.dependences,
        PropertyKind.Accepted kinds.dependence record.properties := by
    simp only [related.dependences, List.forall_mem_map, DependenceRecord.renamed]
  constructor
  · intro connectable
    exact ⟨operands.mp connectable.operands, records.mp connectable.records,
      sources.mp connectable.sources, distinct.mp connectable.distinct,
      accepted.mp connectable.accepted⟩
  · intro connectable
    exact ⟨operands.mpr connectable.operands, records.mpr connectable.records,
      sources.mpr connectable.sources, distinct.mpr connectable.distinct,
      accepted.mpr connectable.accepted⟩

theorem apart_iff :
    (∀ name ∈ changed.names, name ∉ changed.operatorTypes.map OperatorTypeDecl.name) ↔
      ∀ name ∈ document.names, name ∉ document.operatorTypes.map OperatorTypeDecl.name := by
  have kept : ∀ name ∈ document.operatorTypes.map OperatorTypeDecl.name, symbols name = name :=
    List.forall_mem_map.mpr corresponds.fixed
  rw [corresponds.operatorTypes]
  constructor
  · intro apart name named isType
    refine apart name ?_ isType
    rw [← kept name isType]
    exact corresponds.mem_names_iff.mpr named
  · intro apart name named isType
    -- the name is new for something, and operator types have only new names that are their old ones
    obtain ⟨moved, here⟩ := Instance.mem_names_iff.mp named
    obtain ⟨operation, rfl⟩ := (OperationId.moved places).surjective moved
    rw [corresponds.nameOf?_moved] at here
    obtain ⟨old, before, rfl⟩ := Option.map_eq_some_iff.mp here
    have same := corresponds.symbolsInjective (kept _ isType)
    exact apart old (Instance.mem_names_iff.mpr ⟨operation, before⟩) (same ▸ isType)

/-- A document is loadable if the other one is. -/
theorem loadable_iff : changed.Loadable kinds ↔ document.Loadable kinds := by
  have operationProperties :
      (∀ declaration ∈ changed.operations,
        PropertyKind.Accepted kinds.operation declaration.properties) ↔
        ∀ declaration ∈ document.operations,
          PropertyKind.Accepted kinds.operation declaration.properties :=
    corresponds.forall_mem_iff fun _ _ related => by rw [related.properties]
  have connectable :
      (∀ declaration ∈ changed.operations, changed.Connectable kinds declaration) ↔
        ∀ declaration ∈ document.operations, document.Connectable kinds declaration :=
    corresponds.forall_mem_iff fun _ _ related => corresponds.connectable_iff related
  constructor
  · rintro ⟨properties, operatorTypes, operatorTypeProperties, names, apart, distinct, accepted,
      connected⟩
    rw [corresponds.properties] at properties
    rw [corresponds.operatorTypes] at operatorTypes operatorTypeProperties
    exact ⟨properties, operatorTypes, operatorTypeProperties, corresponds.nodup_names_iff.mp names,
      corresponds.apart_iff.mp apart, corresponds.nodup_values_iff.mp distinct,
      operationProperties.mp accepted, connectable.mp connected⟩
  · rintro ⟨properties, operatorTypes, operatorTypeProperties, names, apart, distinct, accepted,
      connected⟩
    rw [← corresponds.properties] at properties
    rw [← corresponds.operatorTypes] at operatorTypes operatorTypeProperties
    exact ⟨properties, operatorTypes, operatorTypeProperties, corresponds.nodup_names_iff.mpr names,
      corresponds.apart_iff.mpr apart, corresponds.nodup_values_iff.mpr distinct,
      operationProperties.mpr accepted, connectable.mpr connected⟩

/-! ### The problems -/

section Meaning

variable (names : document.names.Nodup) (distinct : document.values.Nodup)

include names in
theorem resolveOperation?_eq (name : String) : changed.resolveOperation? (symbols name) =
    (document.resolveOperation? name).map (OperationId.moved places) :=
  find_relabelled corresponds.symbolsInjective corresponds.nameOf?_moved
    (fun _ _ => resolveOperation?_eq_some_iff names)
    (fun _ _ => resolveOperation?_eq_some_iff (corresponds.nodup_names_iff.mpr names)) name

include distinct in
theorem resolveValue?_eq (name : String) : changed.resolveValue? (values name) =
    (document.resolveValue? name).map (Operand.moved places) :=
  find_relabelled corresponds.valuesInjective corresponds.valueAt?_moved
    (fun _ _ => resolveValue?_eq_some_iff distinct)
    (fun _ _ => resolveValue?_eq_some_iff (corresponds.nodup_values_iff.mpr distinct)) name

include names distinct

theorem connectedNode_eq {declaration renamed : OperationDecl}
    (related : declaration.RenamedTo values symbols renamed) :
    changed.connectedNode renamed = (document.connectedNode declaration).moved places := by
  have operands : renamed.operands.filterMap changed.resolveValue? =
      (declaration.operands.filterMap document.resolveValue?).map (Operand.moved places) := by
    rw [related.operands, List.filterMap_map, List.map_filterMap]
    exact congrArg (declaration.operands.filterMap ·)
      (funext (corresponds.resolveValue?_eq distinct))
  have sources : renamed.sources.filterMap changed.resolveOperation? =
      (declaration.sources.filterMap document.resolveOperation?).map
        (OperationId.moved places) := by
    rw [related.sources, List.filterMap_map, List.map_filterMap]
    exact congrArg (declaration.sources.filterMap ·)
      (funext (corresponds.resolveOperation?_eq names))
  simp only [connectedNode, Operation.moved, operands, sources, related.results, List.length_map]

theorem dependenceAt?_eq (operation : OperationId) (operands : List String) (slot : Slot) :
    changed.dependenceAt? (OperationId.moved places operation) (operands.map values)
        (slot.renamed symbols) =
      (document.dependenceAt? operation operands slot).map (Dependence.moved places) := by
  cases slot with
  | operand index =>
    simp only [dependenceAt?, Slot.renamed, List.getElem?_map]
    cases operands[index]? with
    | none => rfl
    | some name =>
      simp only [Option.map_some, Option.bind_some, corresponds.resolveValue?_eq distinct]
      cases document.resolveValue? name <;> rfl
  | named index source =>
    simp only [dependenceAt?, Slot.renamed, corresponds.resolveOperation?_eq names]
    cases document.resolveOperation? source <;> rfl

theorem propertiesAt_eq {declaration renamed : OperationDecl}
    (related : declaration.RenamedTo values symbols renamed) (dependence : Dependence) :
    changed.propertiesAt renamed (Dependence.moved places dependence) =
      document.propertiesAt declaration dependence := by
  have describes (record : DependenceRecord) :
      changed.dependenceAt? (Dependence.moved places dependence).destination renamed.operands
          (record.renamed symbols).slot = some (Dependence.moved places dependence) ↔
        document.dependenceAt? dependence.destination declaration.operands record.slot =
          some dependence := by
    rw [Dependence.destination_moved, related.operands, DependenceRecord.renamed,
      corresponds.dependenceAt?_eq names distinct, ← Option.map_some,
      (Option.map_injective (Dependence.moved places).injective).eq_iff]
  simp only [propertiesAt, related.dependences, List.filter_map, List.flatMap_map,
    Function.comp_def, describes]
  rfl

omit names distinct in
/-- Moved operations take the places that operations had before. -/
theorem lt_length_iff (place : Nat) :
    places place < document.meaning.operations.length ↔
      place < document.meaning.operations.length := by
  have counted : document.meaning.operations.length = document.operations.length := by
    simp [meaning, withDependences]
  have outside : changed.operations[places place]? = none ↔ document.operations[place]? = none := by
    have related := corresponds.operations place
    generalize document.operations[place]? = declaration at related ⊢
    generalize changed.operations[places place]? = renamed at related ⊢
    cases related <;> simp
  rw [List.getElem?_eq_none_iff, List.getElem?_eq_none_iff, corresponds.length] at outside
  rw [counted]
  omega

/-- The problem is the same, up to the places of the operations. -/
theorem meaning_eq : changed.meaning = document.meaning.moved places := by
  ext1
  · exact corresponds.name
  · exact corresponds.problem
  · exact congrArg (List.map fun declaration => (⟨declaration.name⟩ : OperatorType))
      corresponds.operatorTypes
  · refine List.ext_getElem? fun moved => ?_
    obtain ⟨place, rfl⟩ := places.surjective moved
    rw [Problem.getElem?_moved corresponds.lt_length_iff, getElem?_meaning, getElem?_meaning,
      Option.map_map, Option.map_eq_bind, Option.map_eq_bind]
    exact corresponds.bind_eq
      (fun _ _ related => congrArg some (corresponds.connectedNode_eq names distinct related)) place
  · exact congrArg (fun properties : Option (List Property) =>
      Property.last? (Property.number? "II") (properties.getD [])) corresponds.properties
  · ext1 operatorType
    exact congrArg (fun declarations => Property.last? (Property.number? "latency")
      (propertiesOf declarations operatorType)) corresponds.operatorTypes
  · ext1 operatorType
    exact congrArg (fun declarations => Property.last? (Property.number? "limit")
      (propertiesOf declarations operatorType)) corresponds.operatorTypes
  · ext1 moved
    obtain ⟨operation, rfl⟩ := (OperationId.moved places).surjective moved
    rw [Problem.moved, Assignment.get?_moved]
    exact corresponds.bind_eq (fun _ _ related => by rw [related.properties]) operation.index
  · ext1 moved
    obtain ⟨operation, rfl⟩ := (OperationId.moved places).surjective moved
    rw [Problem.moved, Assignment.get?_moved]
    exact corresponds.bind_eq (fun _ _ related => by rw [related.properties]) operation.index
  · ext1 moved
    obtain ⟨dependence, rfl⟩ := (Dependence.moved places).surjective moved
    rw [Problem.moved, Assignment.get?_moved]
    have place : (Dependence.moved places dependence).destination.index =
        places dependence.destination.index := by
      rw [Dependence.destination_moved]
      rfl
    show (changed.operations[(Dependence.moved places dependence).destination.index]?.bind _) = _
    rw [place]
    exact corresponds.bind_eq (fun _ _ related => by
      rw [corresponds.propertiesAt_eq names distinct related]) dependence.destination.index

end Meaning

/-- A document loads if the other one does, and the problems are the same up to the places of the
operations. -/
theorem load_moved_eq_ok_iff (builtIn : kinds.BuiltIn) {moved : Problem} :
    changed.load kinds = .ok moved ↔
      ∃ problem, document.load kinds = .ok problem ∧ moved = problem.moved places := by
  simp only [load_eq_ok_iff _ builtIn, corresponds.loadable_iff]
  constructor
  · rintro ⟨loadable, rfl⟩
    exact ⟨_, ⟨loadable, rfl⟩, corresponds.meaning_eq loadable.names loadable.values⟩
  · rintro ⟨_, ⟨loadable, rfl⟩, rfl⟩
    exact ⟨loadable, (corresponds.meaning_eq loadable.names loadable.values).symm⟩

end Corresponds

end Instance

end StaticScheduling
