import Mathlib.Data.List.Sort
import StaticScheduling.Proofs.Saving.Document

/-! # The normal form of a document

Loading a document and saving its problem under the names it came with rewrites
the document: values are numbered through, of the properties the last of each
kind stay, and records of operands without properties are left out.  Everything
else comes back as it was.
-/

namespace StaticScheduling

open PropertyKind (encode Accepted Carries)

/-- The last property of each kind, in the order of the kinds; `none` if there are none. -/
def PropertyKind.lastOfEach {Point : Type} (kinds : List (PropertyKind Point))
    (properties : Option (List Property)) : Option (List Property) :=
  match kinds.filterMap fun kind => ((properties.getD []).filter kind.accepts).getLast? with
  | [] => none
  | last@(_ :: _) => some last

open PropertyKind (lastOfEach)

/-- A record in its normal form.  A record of an operand has none if it is without properties. -/
def DependenceRecord.normal? (kinds : ProblemKinds) (record : DependenceRecord) :
    Option DependenceRecord :=
  if record.slot.isNamed ∨ record.properties.getD [] ≠ [] then
    some { record with properties := lastOfEach kinds.dependence record.properties }
  else
    none

namespace DependenceRecord

theorem slot_of_normal? {kinds : ProblemKinds} {record normal : DependenceRecord}
    (found : record.normal? kinds = some normal) : normal.slot = record.slot := by
  unfold normal? at found
  split at found
  · cases found
    rfl
  · cases found

/-- Records with increasing indices are determined by which they are. -/
theorem eq_of_increasing {first second : List DependenceRecord}
    (firstIncreasing : first.Pairwise fun one other => one.slot.index < other.slot.index)
    (secondIncreasing : second.Pairwise fun one other => one.slot.index < other.slot.index)
    (same : ∀ record, record ∈ first ↔ record ∈ second) : first = second := by
  have : Std.Irrefl fun one other : DependenceRecord => one.slot.index < other.slot.index :=
    ⟨fun record => Nat.lt_irrefl record.slot.index⟩
  have : Std.Antisymm fun one other : DependenceRecord => one.slot.index < other.slot.index :=
    ⟨fun _ _ before behind => absurd before (Nat.lt_asymm behind)⟩
  exact firstIncreasing.eq_of_mem_iff secondIncreasing same

/-- A record of a named source has a normal form. -/
theorem ofSources_normal (kinds : ProblemKinds) (number : Nat)
    (sources : List (String × Option (List Property))) :
    ofSources number (sources.map fun entry => (entry.1, lastOfEach kinds.dependence entry.2)) =
      (ofSources number sources).filterMap (normal? kinds) := by
  induction sources generalizing number with
  | nil => rfl
  | cons first sources inductionHypothesis =>
    rw [List.map_cons, ofSources, inductionHypothesis (number + 1)]
    rfl

end DependenceRecord

namespace Instance

/-- The number that a value gets when the values of a document are numbered in their order. -/
def renumbered (document : Instance) (name : String) : String :=
  toString (document.values.idxOf name)

/-- An operation in its normal form. -/
def normalOperation (document : Instance) (kinds : ProblemKinds) (declaration : OperationDecl) :
    OperationDecl where
  results := declaration.results.map document.renumbered
  name := declaration.name
  operands := declaration.operands.map document.renumbered
  dependences := declaration.dependences.filterMap (DependenceRecord.normal? kinds)
  properties := lastOfEach kinds.operation declaration.properties
  dictionary := []

/-- A document in its normal form. -/
def normalForm (document : Instance) (kinds : ProblemKinds) : Instance where
  name := document.name
  problem := document.problem
  properties := lastOfEach kinds.problem document.properties
  operatorTypes := document.operatorTypes.map fun declaration =>
    ⟨declaration.name, lastOfEach kinds.operatorType declaration.properties⟩
  operations := document.operations.map (document.normalOperation kinds)

end Instance

/-! ## Properties -/

namespace PropertyKind

variable {Point Value : Type} {kind : PropertyKind Point} {kinds : List (PropertyKind Point)}
  {read : Property → Option Value} {write : Value → Property}
  {get : Problem → Point → Option Value} {problem : Problem} {point : Point}
  {properties : Option (List Property)}

/-- Where a problem has the last value in some properties, it answers with the property that holds
it. -/
theorem Carries.query_eq_getLast? (carries : kind.Carries read write get)
    (value : get problem point = Property.last? read (properties.getD [])) :
    kind.query problem point = ((properties.getD []).filter kind.accepts).getLast? := by
  rw [carries.query, value]
  exact Property.map_last? carries.accepts carries.writes _

theorem encode_eq_lastOfEach
    (same : ∀ kind ∈ kinds,
      kind.query problem point = ((properties.getD []).filter kind.accepts).getLast?) :
    encode kinds problem point = lastOfEach kinds properties := by
  rw [encode, List.filterMap_congr same]
  rfl

theorem lastOfEach_of_empty (empty : properties.getD [] = []) :
    lastOfEach kinds properties = none := by
  have nothing : (kinds.filterMap fun kind =>
      ((properties.getD []).filter kind.accepts).getLast?) = [] := by
    rw [empty]
    exact List.filterMap_eq_nil_iff.mpr fun _ _ => rfl
  simp only [lastOfEach, nothing]

/-- Of accepted properties something is left. -/
theorem exists_lastOfEach (accepted : Accepted kinds properties) (some : properties.getD [] ≠ []) :
    ∃ last, lastOfEach kinds properties = .some last := by
  obtain ⟨property, member⟩ := List.exists_mem_of_ne_nil _ some
  obtain ⟨kind, present, accepts⟩ := accepted property member
  have kept : (properties.getD []).filter kind.accepts ≠ [] :=
    List.ne_nil_of_mem (List.mem_filter.mpr ⟨member, accepts⟩)
  have last : (List.getLast _ kept) ∈ kinds.filterMap fun kind =>
      ((properties.getD []).filter kind.accepts).getLast? :=
    List.mem_filterMap.mpr ⟨kind, present, List.getLast?_eq_some_getLast kept⟩
  unfold lastOfEach
  split
  · rename_i nothing
    rw [nothing] at last
    cases last
  · exact ⟨_, rfl⟩

end PropertyKind

namespace ProblemKinds.BuiltIn

variable {kinds : ProblemKinds} (builtIn : kinds.BuiltIn) {problem : Problem}
  {properties : Option (List Property)}

include builtIn

theorem encode_problem_eq (interval : problem.initiationInterval =
      Property.last? (Property.number? "II") (properties.getD [])) :
    encode kinds.problem problem () = lastOfEach kinds.problem properties := by
  apply PropertyKind.encode_eq_lastOfEach
  intro kind member
  cases builtIn.problem kind member
  exact PropertyKind.initiationInterval_carries.query_eq_getLast? interval

theorem encode_operatorType_eq {operatorType : OperatorType}
    (latency : problem.latency operatorType =
      Property.last? (Property.number? "latency") (properties.getD []))
    (limit : problem.limit operatorType =
      Property.last? (Property.number? "limit") (properties.getD [])) :
    encode kinds.operatorType problem operatorType = lastOfEach kinds.operatorType properties := by
  apply PropertyKind.encode_eq_lastOfEach
  intro kind member
  rcases builtIn.operatorType kind member with rfl | rfl
  · exact PropertyKind.latency_carries.query_eq_getLast? latency
  · exact PropertyKind.limit_carries.query_eq_getLast? limit

theorem encode_operation_eq {operation : OperationId}
    (link : problem.link operation = Property.last? Property.link? (properties.getD []))
    (startTime : problem.startTime operation =
      Property.last? (Property.number? "start_time") (properties.getD [])) :
    encode kinds.operation problem operation = lastOfEach kinds.operation properties := by
  apply PropertyKind.encode_eq_lastOfEach
  intro kind member
  rcases builtIn.operation kind member with rfl | rfl
  · exact PropertyKind.link_carries.query_eq_getLast? link
  · exact PropertyKind.startTime_carries.query_eq_getLast? startTime

theorem encode_dependence_eq {dependence : Dependence}
    (distance : problem.distance dependence =
      Property.last? (Property.number? "distance") (properties.getD [])) :
    encode kinds.dependence problem dependence = lastOfEach kinds.dependence properties := by
  apply PropertyKind.encode_eq_lastOfEach
  intro kind member
  cases builtIn.dependence kind member
  exact PropertyKind.distance_carries.query_eq_getLast? distance

end ProblemKinds.BuiltIn

/-! ## Values -/

/-- An element of a block stands behind all blocks that come before. -/
theorem getElem?_flatMap_block {Element Block : Type} {parts : Block → List Element}
    {blocks : List Block} {index offset : Nat} {block : Block} {element : Element}
    (inside : blocks[index]? = some block) (here : (parts block)[offset]? = some element) :
    (blocks.flatMap parts)[((blocks.map fun block => (parts block).length).take index).foldr
      (· + ·) 0 + offset]? = some element := by
  -- the index counts down along the blocks, the offset stays
  induction blocks generalizing index with
  | nil => cases inside
  | cons first rest inductionHypothesis =>
    cases index with
    | zero =>
      cases inside
      have below := (List.getElem?_eq_some_iff.mp here).1
      rw [List.take_zero, List.foldr_nil, Nat.zero_add, List.flatMap_cons,
        List.getElem?_append_left below]
      exact here
    | succ index =>
      rw [List.map_cons, List.take_succ_cons, List.foldr_cons, Nat.add_assoc, List.flatMap_cons,
        List.getElem?_append_right (Nat.le_add_right _ _), Nat.add_sub_cancel_left]
      exact inductionHypothesis inside

namespace Instance

variable {document : Instance}

/-- Saving names a result by its number. -/
theorem valueName_meaning (distinct : document.values.Nodup) {operand : Operand} {name : String}
    (named : document.valueAt? operand = some name) :
    Saving.valueName document.meaning operand = document.renumbered name := by
  obtain ⟨declaration, inside, here⟩ := Option.bind_eq_some_iff.mp named
  have place := getElem?_flatMap_block inside here
  -- as no value comes twice, the place where it is found is this one
  obtain ⟨below, same⟩ := List.getElem?_eq_some_iff.mp place
  have number : document.values.idxOf name =
      ((document.operations.map fun declaration => declaration.results.length).take
        operand.source.index).foldr (· + ·) 0 + operand.result := by
    rw [← same]
    exact distinct.idxOf_getElem _ below
  rw [Saving.valueName, Problem.firstValue_eq_foldr, resultCounts_meaning, renumbered, number]

theorem map_valueName_results (distinct : document.values.Nodup) {position : Nat}
    {declaration : OperationDecl} (inside : document.operations[position]? = some declaration) :
    ((List.range declaration.results.length).map fun result =>
        Saving.valueName document.meaning ⟨⟨position⟩, result⟩) =
      declaration.results.map document.renumbered := by
  apply List.ext_getElem
  · rw [List.length_map, List.length_map, List.length_range]
  · intro result _ below
    rw [List.length_map] at below
    rw [List.getElem_map, List.getElem_map, List.getElem_range]
    apply valueName_meaning distinct
    rw [valueAt?, inside, Option.bind_some, List.getElem?_eq_getElem below]

theorem Connectable.map_valueName_operands {kinds : ProblemKinds} {declaration : OperationDecl}
    (connectable : document.Connectable kinds declaration) (distinct : document.values.Nodup) :
    (declaration.operands.filterMap document.resolveValue?).map
        (Saving.valueName document.meaning) = declaration.operands.map document.renumbered := by
  rw [List.map_filterMap, ← List.filterMap_eq_map]
  refine List.filterMap_congr ?_
  intro name used
  obtain ⟨operand, found⟩ :=
    Option.isSome_iff_exists.mp (connectable.isSome_resolveValue? name used)
  rw [found, Option.map_some, valueName_meaning distinct (valueAt?_of_resolveValue? found)]
  rfl

/-- The values of the normal form are numbered from zero on. -/
theorem values_normalForm (distinct : document.values.Nodup) (kinds : ProblemKinds) :
    (document.normalForm kinds).values = (List.range document.values.length).map toString := by
  have renamed : (document.normalForm kinds).values = document.values.map document.renumbered := by
    simp only [values, normalForm, List.flatMap_map, List.map_flatMap]
    rfl
  rw [renamed]
  apply List.ext_getElem
  · rw [List.length_map, List.length_map, List.length_range]
  · intro index inside _
    rw [List.length_map] at inside
    rw [List.getElem_map, List.getElem_map, List.getElem_range, renumbered,
      distinct.idxOf_getElem index inside]

/-! ## Names -/

/-- The names in a document can be used for its problem. -/
theorem Loadable.fresh_suppliedNames {kinds : ProblemKinds}
    (loadable : document.Loadable kinds) :
    Fresh (document.meaning.operatorTypes.map OperatorType.name)
      (NameTable.suppliedNames document.meaning document.nameOf?) := by
  have names : NameTable.suppliedNames document.meaning document.nameOf? = document.names := by
    have count : document.meaning.operations.length = document.operations.length := by
      simp [meaning, withDependences]
    have ids : document.operations.map some =
        (List.range document.operations.length).map fun index => document.operations[index]? := by
      apply List.ext_getElem
      · simp
      · intro index inside _
        rw [List.length_map] at inside
        rw [List.getElem_map, List.getElem_map, List.getElem_range, List.getElem?_eq_getElem inside]
    rw [NameTable.suppliedNames, Problem.operationIds, count, List.filterMap_map]
    calc (List.range document.operations.length).filterMap (document.nameOf? ∘ OperationId.mk)
        = ((List.range document.operations.length).map fun index =>
            document.operations[index]?).filterMap fun found => found.bind OperationDecl.name := by
          rw [List.filterMap_map]
          rfl
      _ = document.names := by
          rw [← ids, List.filterMap_map]
          rfl
  have types : document.meaning.operatorTypes.map OperatorType.name =
      document.operatorTypes.map OperatorTypeDecl.name := by
    simp only [meaning, withDependences, withOperations, withOperatorTypes, List.map_map]
    rfl
  rw [names, types]
  exact ⟨loadable.names, loadable.apart⟩

/-- No name is made up: a source has a name that the document refers to it by. -/
theorem get?_names {names : NameTable}
    (named : names.Names document.meaning document.nameOf?) (operation : OperationId) :
    names.get? operation = document.nameOf? operation := by
  cases supplied : document.nameOf? operation with
  | some name =>
    obtain ⟨declaration, inside, _⟩ := Option.bind_eq_some_iff.mp supplied
    have known : document.meaning.operations[operation.index]? =
        some (document.connectedNode declaration) := by
      rw [getElem?_meaning, inside, Option.map_some]
    exact named.keeps operation (Problem.hasOperation_iff.mpr ⟨_, known⟩) name supplied
  | none =>
    cases found : names.get? operation with
    | none => rfl
    | some name =>
      obtain ⟨_, given | ⟨_, destination, registered, source⟩⟩ := named.origin operation name found
      · cases supplied.symm.trans given
      · -- the document could only refer to the source by its name
        obtain ⟨node, known⟩ := Problem.hasOperation_iff.mp registered
        rw [Problem.sourcesOf_eq known] at source
        rw [getElem?_meaning] at known
        obtain ⟨declaration, _, rfl⟩ := Option.map_eq_some_iff.mp known
        obtain ⟨reference, _, resolved⟩ := List.mem_filterMap.mp source
        cases supplied.symm.trans (nameOf?_of_resolveOperation? resolved)

/-! ## Records -/

section Records

variable {kinds : ProblemKinds} {declaration : OperationDecl} {operation : OperationId}
  {dependence : Dependence} (builtIn : kinds.BuiltIn)
  (inside : document.operations[operation.index]? = some declaration)

include builtIn inside

/-- What a record says about a dependence is what is saved for it. -/
theorem Connectable.encode_dependence (connectable : document.Connectable kinds declaration)
    {record : DependenceRecord} (member : record ∈ declaration.dependences)
    (describes : document.dependenceAt? operation declaration.operands record.slot =
      some dependence) :
    encode kinds.dependence document.meaning dependence =
      lastOfEach kinds.dependence record.properties := by
  apply builtIn.encode_dependence_eq
  rw [← destination_of_dependenceAt? describes] at inside
  rw [distance_meaning inside, connectable.propertiesAt_of_mem member describes]

/-- Properties are saved for a dependence only if a record has some for it. -/
theorem exists_record_of_encode (ends : dependence.destination = operation)
    {last : List Property}
    (written : encode kinds.dependence document.meaning dependence = some last) :
    ∃ record ∈ declaration.dependences,
      document.dependenceAt? operation declaration.operands record.slot = some dependence := by
  by_cases described : ∃ record ∈ declaration.dependences,
      document.dependenceAt? operation declaration.operands record.slot = some dependence
  · exact described
  · have nothing : document.propertiesAt declaration dependence = [] := by
      apply propertiesAt_of_forall
      intro record member describes
      rw [ends] at describes
      exact described ⟨record, member, describes⟩
    rw [← ends] at inside
    have silent : encode kinds.dependence document.meaning dependence =
        lastOfEach kinds.dependence none := by
      apply builtIn.encode_dependence_eq
      rw [distance_meaning inside, nothing]
      rfl
    rw [PropertyKind.lastOfEach_of_empty rfl, written] at silent
    cases silent

/-- What is written for an operand comes from a record that says something about it. -/
theorem Connectable.exists_record_of_mem_operandMarks
    (connectable : document.Connectable kinds declaration) {index : Nat}
    {written : Option (List Property)}
    (marked : (index, written) ∈ Problem.operandMarks document.meaning kinds operation
      (declaration.operands.filterMap document.resolveValue?).zipIdx) :
    ∃ properties, (⟨.operand index, properties⟩ : DependenceRecord) ∈ declaration.dependences ∧
      properties.getD [] ≠ [] ∧ written = lastOfEach kinds.dependence properties := by
  obtain ⟨operand, last, here, encoded, rfl⟩ := Problem.mem_operandMarks.mp marked
  obtain ⟨⟨slot, properties⟩, present, describes⟩ :=
    exists_record_of_encode builtIn inside rfl encoded
  rw [connectable.encode_dependence builtIn inside present describes] at encoded
  cases slot with
  | named place source =>
    obtain ⟨_, _, same⟩ := Option.map_eq_some_iff.mp describes
    cases same
  | operand place =>
    obtain ⟨_, _, same⟩ := Option.map_eq_some_iff.mp describes
    cases (Dependence.data.inj same).2.2.2
    refine ⟨properties, present, ?_, encoded.symm⟩
    intro empty
    rw [PropertyKind.lastOfEach_of_empty empty] at encoded
    cases encoded

/-- What a record says about an operand is written. -/
theorem Connectable.mem_operandMarks_of_mem (connectable : document.Connectable kinds declaration)
    {index : Nat} {properties : Option (List Property)}
    (present : (⟨.operand index, properties⟩ : DependenceRecord) ∈ declaration.dependences)
    (some : properties.getD [] ≠ []) :
    (index, lastOfEach kinds.dependence properties) ∈ Problem.operandMarks document.meaning kinds
      operation (declaration.operands.filterMap document.resolveValue?).zipIdx := by
  have below := operand_lt_of_recordFault? connectable.records _ present index rfl
  obtain ⟨operand, found⟩ := Option.isSome_iff_exists.mp
    (connectable.isSome_resolveValue? _ (List.getElem_mem below))
  have here : declaration.operands[index]?.bind document.resolveValue? = .some operand := by
    rw [List.getElem?_eq_getElem below]
    exact found
  have describes : document.dependenceAt? operation declaration.operands (.operand index) =
      .some (.data operand.source operand.result operation index) := by
    rw [dependenceAt?, here, Option.map_some]
  have accepted := connectable.accepted _ present
  obtain ⟨last, kept⟩ := PropertyKind.exists_lastOfEach accepted some
  refine Problem.mem_operandMarks.mpr ⟨operand, last, ?_, ?_, kept⟩
  · exact (getElem?_filterMap_of_isSome connectable.isSome_resolveValue? index).trans here
  · exact (connectable.encode_dependence builtIn inside present describes).trans kept

/-- The records written for the operands of an operation are those it has for them, in their normal
form. -/
theorem Connectable.ofOperands_operandMarks (connectable : document.Connectable kinds declaration)
    {marks : List (Nat × Option (List Property))}
    {sources : List (String × Option (List Property))}
    (records : declaration.dependences = DependenceRecord.ofOperands marks ++
      DependenceRecord.ofSources declaration.operands.length sources)
    (increasing : (marks.map Prod.fst).Pairwise (· < ·)) :
    DependenceRecord.ofOperands (Problem.operandMarks document.meaning kinds operation
        (declaration.operands.filterMap document.resolveValue?).zipIdx) =
      (DependenceRecord.ofOperands marks).filterMap (DependenceRecord.normal? kinds) := by
  -- both lists are in the order of the operands, so it is enough that they have the same members
  refine DependenceRecord.eq_of_increasing ?_ ?_ ?_
  · rw [DependenceRecord.ofOperands, List.pairwise_map]
    exact List.pairwise_map.mp (Problem.increasing_operandMarks operation _)
  · refine List.pairwise_filterMap.mpr (List.pairwise_map.mpr
      ((List.pairwise_map.mp increasing).imp ?_))
    intro first second before one firstNormal other secondNormal
    rw [DependenceRecord.slot_of_normal? firstNormal, DependenceRecord.slot_of_normal? secondNormal]
    exact before
  · intro record
    constructor
    · intro member
      obtain ⟨⟨index, written⟩, marked, rfl⟩ := List.mem_map.mp member
      obtain ⟨properties, present, some, rfl⟩ :=
        connectable.exists_record_of_mem_operandMarks builtIn inside marked
      rw [records] at present
      rcases List.mem_append.mp present with present | present
      · refine List.mem_filterMap.mpr ⟨_, present, ?_⟩
        rw [DependenceRecord.normal?, if_pos (.inr some)]
      · cases DependenceRecord.isNamed_of_mem_ofSources present
    · intro member
      obtain ⟨original, present, normal⟩ := List.mem_filterMap.mp member
      obtain ⟨⟨index, properties⟩, marked, rfl⟩ := List.mem_map.mp present
      by_cases empty : properties.getD [] = []
      · simp [DependenceRecord.normal?, empty, Slot.isNamed, Slot.source?] at normal
      · rw [DependenceRecord.normal?, if_pos (.inr empty)] at normal
        cases normal
        have stated : (⟨.operand index, properties⟩ : DependenceRecord) ∈
            declaration.dependences := by
          rw [records]
          exact List.mem_append_left _ present
        exact List.mem_map.mpr
          ⟨_, connectable.mem_operandMarks_of_mem builtIn inside stated empty, rfl⟩

/-- The records written for the sources of an operation are those it has for them, in their normal
form. -/
theorem Connectable.ofSources_sourceMarks (connectable : document.Connectable kinds declaration)
    {names : NameTable} (named : names.Names document.meaning document.nameOf?)
    {marks : List (Nat × Option (List Property))}
    {sources : List (String × Option (List Property))}
    (records : declaration.dependences = DependenceRecord.ofOperands marks ++
      DependenceRecord.ofSources declaration.operands.length sources) :
    Problem.sourceMarks document.meaning kinds names operation
        ((sources.map Prod.fst).filterMap document.resolveOperation?) =
      sources.map fun entry => (entry.1, lastOfEach kinds.dependence entry.2) := by
  rw [Problem.sourceMarks, List.map_filterMap, List.filterMap_map, ← List.filterMap_eq_map]
  refine List.filterMap_congr ?_
  intro entry present
  obtain ⟨index, written⟩ :=
    Problem.exists_mem_ofSources present declaration.operands.length
  have member : (⟨.named index entry.1, entry.2⟩ : DependenceRecord) ∈ declaration.dependences := by
    rw [records]
    exact List.mem_append_right _ written
  have defined : entry.1 ∈ document.names :=
    connectable.sources _ (List.mem_filterMap.mpr ⟨_, member, rfl⟩)
  obtain ⟨source, found⟩ := Option.isSome_iff_exists.mp (resolveOperation?_isSome_iff.mpr defined)
  have describes : document.dependenceAt? operation declaration.operands (.named index entry.1) =
      some (.auxiliary source operation) := by
    rw [dependenceAt?, found, Option.map_some]
  simp only [Function.comp_apply, found, Option.map_some, get?_names named,
    nameOf?_of_resolveOperation? found, Option.getD_some,
    connectable.encode_dependence builtIn inside member describes]

end Records

/-! ## The document -/

section Document

variable {kinds : ProblemKinds} (builtIn : kinds.BuiltIn) (loadable : document.Loadable kinds)
  {names : NameTable} (named : names.Names document.meaning document.nameOf?)

include builtIn loadable named

theorem declarationOf_meaning {position : Nat} {declaration : OperationDecl}
    (inside : document.operations[position]? = some declaration) :
    Problem.declarationOf document.meaning kinds names position
        (document.connectedNode declaration) = document.normalOperation kinds declaration := by
  have connectable := loadable.connectable declaration (List.mem_of_getElem? inside)
  obtain ⟨marks, sources, increasing, _, records⟩ :=
    recordFault?_eq_none_iff.mp connectable.records
  have results := map_valueName_results loadable.values inside
  have operands := connectable.map_valueName_operands loadable.values
  have count : (declaration.operands.filterMap document.resolveValue?).length =
      declaration.operands.length := by
    simpa only [List.length_map] using congrArg List.length operands
  have name : names.get? ⟨position⟩ = declaration.name := by
    rw [get?_names named, nameOf?, inside, Option.bind_some]
  have properties : encode kinds.operation document.meaning ⟨position⟩ =
      lastOfEach kinds.operation declaration.properties :=
    builtIn.encode_operation_eq (link_meaning inside) (startTime_meaning inside)
  have sourceNames : declaration.sources = sources.map Prod.fst := by
    rw [OperationDecl.sources, records, List.filterMap_append, Problem.sources_ofOperands,
      Problem.sources_ofSources, List.nil_append]
  have dependences : DependenceRecord.ofOperands (Problem.operandMarks document.meaning kinds
        ⟨position⟩ (declaration.operands.filterMap document.resolveValue?).zipIdx) ++
      DependenceRecord.ofSources (declaration.operands.filterMap document.resolveValue?).length
        (Problem.sourceMarks document.meaning kinds names ⟨position⟩
          (declaration.sources.filterMap document.resolveOperation?)) =
        declaration.dependences.filterMap (DependenceRecord.normal? kinds) := by
    rw [connectable.ofOperands_operandMarks builtIn inside records increasing, sourceNames,
      connectable.ofSources_sourceMarks builtIn inside named records, count,
      DependenceRecord.ofSources_normal, ← List.filterMap_append, ← records]
  simp only [Problem.declarationOf, connectedNode, normalOperation, results, operands, name,
    properties, dependences]

/-- A document's problem is saved as the document's normal form. -/
theorem document_meaning :
    Problem.document document.meaning kinds names document.name document.problem =
      document.normalForm kinds := by
  have properties : encode kinds.problem document.meaning () =
      lastOfEach kinds.problem document.properties := builtIn.encode_problem_eq rfl
  have operatorTypes : (document.meaning.operatorTypes.map fun operatorType =>
      OperatorTypeDecl.mk operatorType.name
        (encode kinds.operatorType document.meaning operatorType)) =
        (document.normalForm kinds).operatorTypes := by
    refine (List.map_map ..).trans (List.map_congr_left ?_)
    intro declaration member
    have stated := propertiesOf_of_mem loadable.operatorTypes member
    have encoded : encode kinds.operatorType document.meaning ⟨declaration.name⟩ =
        lastOfEach kinds.operatorType declaration.properties :=
      builtIn.encode_operatorType_eq
        (congrArg (Property.last? (Property.number? "latency")) stated)
        (congrArg (Property.last? (Property.number? "limit")) stated)
    exact congrArg (OperatorTypeDecl.mk declaration.name) encoded
  have operations : document.meaning.operations.mapIdx
      (Problem.declarationOf document.meaning kinds names) =
        document.operations.map (document.normalOperation kinds) := by
    apply List.ext_getElem?
    intro position
    rw [List.getElem?_mapIdx, getElem?_meaning, List.getElem?_map]
    cases inside : document.operations[position]? with
    | none => rfl
    | some declaration =>
      exact congrArg some (declarationOf_meaning builtIn loadable named inside)
  simp only [Problem.document, properties, operatorTypes, operations]
  rfl

end Document

/-- Saving a loaded problem under the names of its document gives the document's normal form:
whatever the document, nothing is refused and no name is made up. -/
theorem save_load {document : Instance} {kinds : ProblemKinds} (builtIn : kinds.BuiltIn)
    {problem : Problem} (loads : document.load kinds = .ok problem) (stem : String) :
    problem.save document.name document.problem document.nameOf? kinds stem =
        .ok (document.normalForm kinds) ∧
      (document.normalForm kinds).values =
        (List.range document.values.length).map toString := by
  obtain ⟨loadable, rfl⟩ := (load_eq_ok_iff document builtIn).mp loads
  have wellFormed := loadable.wellFormed_meaning
  have built := NameTable.build_eq_ok_iff.mpr
    ⟨loadable.fresh_suppliedNames, Eq.refl (document.meaning.operationIds.foldl
      (NameTable.nameOperation (NameTable.policyOf document.meaning document.nameOf? stem)
        document.meaning) NameTable.empty)⟩
  have named := NameTable.names_of_build wellFormed built
  refine ⟨(Problem.save_eq_ok_iff wellFormed).mpr ⟨_, built, ?_⟩,
    values_normalForm loadable.values kinds⟩
  exact (document_meaning builtIn loadable named).symm

/-- A document that is far from its normal form: values with names of their own, a reference to an
operation further down, empty property lists, and properties given more than once and out of
order. -/
def foreign : Instance where
  name := "foreign"
  problem := "ModuloProblem"
  properties := some []
  operatorTypes := [⟨"unit", some [.ofNumber "limit" 3, .ofNumber "latency" 1,
    .ofNumber "latency" 2, .ofNumber "limit" 4]⟩]
  operations := [
    ⟨["sum"], some "Op1", ["y", "sum", "x"],
      [⟨.operand 0, some []⟩, ⟨.operand 1, some [.ofNumber "distance" 2, .ofNumber "distance" 1]⟩,
        ⟨.named 3 "last", some []⟩], some [.ofLink ⟨"missing"⟩, .ofLink ⟨"unit"⟩], []⟩,
    ⟨["x", "y"], none, [], [], none, [⟨"key", none⟩]⟩,
    ⟨[], some "last", [], [⟨.named 0 "Op1", some [.ofNumber "distance" 5]⟩],
      some [.ofNumber "start_time" 1, .ofLink ⟨"unit"⟩, .ofNumber "start_time" 0], []⟩]

theorem save_load_foreign :
    ∃ problem, foreign.load .modulo = .ok problem ∧
      problem.save foreign.name foreign.problem foreign.nameOf? .modulo "Op" =
        .ok (foreign.normalForm .modulo) ∧
      (foreign.normalForm .modulo).values = (List.range foreign.values.length).map toString := by
  have known : ProblemKinds.ofProblemName? "ModuloProblem" = some .modulo := rfl
  have builtIn := ProblemKinds.builtIn_of_ofProblemName? known
  have loadable : foreign.Loadable .modulo := by decide
  have loads := (load_eq_ok_iff foreign builtIn).mpr ⟨loadable, rfl⟩
  exact ⟨_, loads, save_load builtIn loads "Op"⟩

end Instance

end StaticScheduling
