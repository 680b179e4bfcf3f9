import StaticScheduling.Proofs.Loading.Loaded
import StaticScheduling.Proofs.Naming
import StaticScheduling.Saving

/-! # The document that is saved

Saving names the operations and writes one declaration after the other.  Once
the names are there nothing can fail, and the document is written down here at
once.  It is loadable.
-/

namespace StaticScheduling

open PropertyKind (encode Accepted)

namespace Problem

section Declarations

variable (problem : Problem) (kinds : ProblemKinds) (names : NameTable)

/-- The properties of the data dependences that an operation's operands stand for, where there are
any. -/
def operandMarks (operation : OperationId) (entries : List (Operand × Nat)) :
    List (Nat × Option (List Property)) :=
  entries.filterMap fun entry =>
    (encode kinds.dependence problem
      (.data entry.1.source entry.1.result operation entry.2)).map fun properties =>
        (entry.2, some properties)

/-- The names of the sources of an operation, and the properties of the dependences on them. -/
def sourceMarks (operation : OperationId) (sources : List OperationId) :
    List (String × Option (List Property)) :=
  sources.map fun source =>
    ((names.get? source).getD "",
      encode kinds.dependence problem (.auxiliary source operation))

/-- The declaration that an operation is saved as. -/
def declarationOf (position : Nat) (node : Operation) : OperationDecl where
  results := (List.range node.results).map fun result =>
    Saving.valueName problem ⟨⟨position⟩, result⟩
  name := names.get? ⟨position⟩
  operands := node.operands.map (Saving.valueName problem)
  dependences :=
    DependenceRecord.ofOperands (operandMarks problem kinds ⟨position⟩ node.operands.zipIdx) ++
      DependenceRecord.ofSources node.operands.length
        (sourceMarks problem kinds names ⟨position⟩ node.auxiliarySources)
  properties := encode kinds.operation problem ⟨position⟩
  dictionary := []

/-- The document that a problem is saved as, once its operations are named. -/
def document (instanceName problemName : String) : Instance where
  name := instanceName
  problem := problemName
  properties := encode kinds.problem problem ()
  operatorTypes := problem.operatorTypes.map fun operatorType =>
    ⟨operatorType.name, encode kinds.operatorType problem operatorType⟩
  operations := problem.operations.mapIdx (declarationOf problem kinds names)

end Declarations

variable {problem : Problem} {kinds : ProblemKinds} {names : NameTable}

/-! ## Writing declarations -/

theorem records_auxiliary {operation : OperationId} (sources : List OperationId)
    (named : ∀ source ∈ sources, (names.get? source).isSome) (index : Nat) :
    Saving.records problem kinds names index (sources.map fun source => .auxiliary source operation) =
      .ok (DependenceRecord.ofSources index
        (sourceMarks problem kinds names operation sources)) := by
  -- the records are numbered on from `index`, which moves with the sources
  induction sources generalizing index with
  | nil => rfl
  | cons source sources inductionHypothesis =>
    obtain ⟨namedHere, named⟩ := List.forall_mem_cons.mp named
    obtain ⟨name, found⟩ := Option.isSome_iff_exists.mp namedHere
    have marks : sourceMarks problem kinds names operation (source :: sources) =
        (name, encode kinds.dependence problem (.auxiliary source operation)) ::
          sourceMarks problem kinds names operation sources := by
      rw [sourceMarks, List.map_cons, found, Option.getD_some]
      rfl
    simp only [List.map_cons, Saving.records, found, inductionHypothesis named, marks]
    rfl

theorem records_data {operation : OperationId} (entries : List (Operand × Nat)) {index : Nat}
    {rest : List Dependence} {more : List DependenceRecord}
    (written : Saving.records problem kinds names index rest = .ok more) :
    Saving.records problem kinds names index
        (entries.map (fun entry => .data entry.1.source entry.1.result operation entry.2) ++
          rest) =
      .ok (DependenceRecord.ofOperands (operandMarks problem kinds operation entries) ++ more) := by
  induction entries with
  | nil => exact written
  | cons entry entries inductionHypothesis =>
    rw [List.map_cons, List.cons_append, Saving.records, inductionHypothesis]
    cases found : encode kinds.dependence problem
        (.data entry.1.source entry.1.result operation entry.2) with
    -- an operand without properties leaves no record
    | none =>
      have marks : operandMarks problem kinds operation (entry :: entries) =
          operandMarks problem kinds operation entries := by
        simp [operandMarks, found]
      rw [marks]
      rfl
    | some properties =>
      have marks : operandMarks problem kinds operation (entry :: entries) =
          (entry.2, some properties) :: operandMarks problem kinds operation entries := by
        simp [operandMarks, found]
      rw [marks]
      rfl

theorem operation_eq_ok {position : Nat} {node : Operation}
    (known : problem.operations[position]? = some node)
    (named : ∀ source ∈ node.auxiliarySources, (names.get? source).isSome) :
    Saving.operation problem kinds names node position =
      .ok (declarationOf problem kinds names position node) := by
  have written : Saving.records problem kinds names node.operands.length
      (problem.dependences ⟨position⟩) =
        .ok (declarationOf problem kinds names position node).dependences := by
    simp only [dependences, known]
    rw [List.mapIdx_eq_zipIdx_map]
    exact records_data node.operands.zipIdx (records_auxiliary _ named _)
  simp only [Saving.operation, written, bind_eq_ok_iff, Except.ok.injEq, exists_eq_left']
  rfl

/-- Saving fails only if the operations cannot be named. -/
theorem save_eq_ok_iff (wellFormed : problem.WellFormed) {instanceName problemName stem : String}
    {supplied : OperationId → Option String} {saved : Instance} :
    problem.save instanceName problemName supplied kinds stem = .ok saved ↔
      ∃ names, NameTable.build problem supplied stem = .ok names ∧
        saved = document problem kinds names instanceName problemName := by
  rw [save, bind_eq_ok_iff]
  refine exists_congr fun names => and_congr_right fun built => ?_
  have named := (NameTable.names_of_build wellFormed built).sources
  have written : problem.operations.zipIdx.mapM
      (fun entry => Saving.operation problem kinds names entry.1 entry.2) =
        .ok (problem.operations.mapIdx (declarationOf problem kinds names)) := by
    rw [mapM_eq_ok_iff, List.mapIdx_eq_zipIdx_map, List.map_map]
    refine List.map_congr_left ?_
    intro entry member
    have known := List.mem_zipIdx_iff_getElem?.mp member
    refine operation_eq_ok known ?_
    intro source used
    refine named ⟨entry.2⟩ (hasOperation_iff.mpr ⟨_, known⟩) source ?_
    rw [sourcesOf_eq known]
    exact used
  simp only [written, bind_eq_ok_iff, Except.ok.injEq, exists_eq_left']
  exact eq_comm

/-- Saving fails where naming does. -/
theorem save_eq_error_iff (wellFormed : problem.WellFormed) {instanceName problemName stem : String}
    {supplied : OperationId → Option String} {error : DocumentError} :
    problem.save instanceName problemName supplied kinds stem = .error error ↔
      NameTable.build problem supplied stem = .error error := by
  constructor
  · intro fails
    rcases bind_eq_error_iff.mp fails with refused | ⟨names, built, _⟩
    · exact refused
    · rw [(save_eq_ok_iff wellFormed).mpr ⟨names, built, rfl⟩] at fails
      cases fails
  · intro refused
    exact bind_eq_error_iff.mpr (.inl refused)

/-! ## Values -/

theorem firstValue_eq_foldr (problem : Problem) (operation : OperationId) :
    Saving.firstValue problem operation = (problem.resultCounts.take operation.index).foldr (· + ·) 0 := by
  rw [Saving.firstValue, resultCounts, ← List.map_take]
  induction problem.operations.take operation.index with
  | nil => rfl
  | cons node rest inductionHypothesis =>
    rw [List.foldr_cons, List.map_cons, List.foldr_cons, inductionHypothesis]

/-- Blocks of numbers, each starting where the one before ends. -/
theorem flatten_mapIdx_range (counts : List Nat) (start : Nat) :
    (counts.mapIdx fun index count =>
        (List.range count).map fun number => start + (counts.take index).foldr (· + ·) 0 + number).flatten =
      List.range' start (counts.foldr (· + ·) 0) := by
  induction counts generalizing start with
  | nil => rfl
  | cons count counts inductionHypothesis =>
    -- behind the first block every block starts `count` later
    have shifted : (fun index other => (List.range other).map fun number =>
        start + ((count :: counts).take (index + 1)).foldr (· + ·) 0 + number) =
          fun index other => (List.range other).map fun number =>
            start + count + (counts.take index).foldr (· + ·) 0 + number := by
      funext index other
      rw [List.take_succ_cons, List.foldr_cons, Nat.add_assoc start count]
    have first : (List.range count).map (fun number => start + 0 + number) =
        List.range' start count := by
      rw [List.range'_eq_map_range, Nat.add_zero]
    rw [List.mapIdx_cons, List.flatten_cons, List.take_zero, List.foldr_nil, first, shifted,
      inductionHypothesis, List.foldr_cons, List.range'_append_1]

variable {instanceName problemName : String}

theorem getElem?_document (index : Nat) :
    (document problem kinds names instanceName problemName).operations[index]? =
      problem.operations[index]?.map (declarationOf problem kinds names index) :=
  List.getElem?_mapIdx

/-- The results of a saved document, read in order, are numbered from zero on. -/
theorem values_document (problem : Problem) (kinds : ProblemKinds) (names : NameTable)
    (instanceName problemName : String) :
    (document problem kinds names instanceName problemName).values =
      (List.range (problem.resultCounts.foldr (· + ·) 0)).map toString := by
  -- operation by operation, the results are one block of numbers
  have blocks : (document problem kinds names instanceName problemName).operations.map
      OperationDecl.results =
        (problem.resultCounts.mapIdx fun index count => (List.range count).map fun number =>
          0 + (problem.resultCounts.take index).foldr (· + ·) 0 + number).map (List.map toString) := by
    apply List.ext_getElem?
    intro index
    rw [List.getElem?_map, getElem?_document, List.getElem?_map, List.getElem?_mapIdx]
    have count : problem.resultCounts[index]? =
        problem.operations[index]?.map Operation.results := List.getElem?_map
    rw [count]
    cases problem.operations[index]? with
    | none => rfl
    | some node =>
      simp only [Option.map_some, declarationOf, Saving.valueName, firstValue_eq_foldr,
        Nat.zero_add, List.map_map]
      rfl
  rw [Instance.values, List.flatMap_def, blocks, ← List.map_flatten,
    flatten_mapIdx_range, List.range_eq_range']

theorem nodup_values_document :
    (document problem kinds names instanceName problemName).values.Nodup := by
  rw [values_document]
  refine List.pairwise_map.mpr (List.nodup_range.imp ?_)
  intro first second different same
  exact different (toString_injective same)

theorem valueAt?_document {operand : Operand} {node : Operation}
    (known : problem.operations[operand.source.index]? = some node)
    (below : operand.result < node.results) :
    (document problem kinds names instanceName problemName).valueAt? operand =
      some (Saving.valueName problem operand) := by
  rw [Instance.valueAt?, getElem?_document, known, Option.map_some, Option.bind_some, declarationOf,
    List.getElem?_map, List.getElem?_range below, Option.map_some]

/-- The name of an existing result stands for this result. -/
theorem resolveValue?_document {operand : Operand}
    (exist : ∃ count, problem.resultCounts[operand.source.index]? = some count ∧
      operand.result < count) :
    (document problem kinds names instanceName problemName).resolveValue?
      (Saving.valueName problem operand) = some operand := by
  obtain ⟨count, found, below⟩ := exist
  rw [resultCounts, List.getElem?_map] at found
  obtain ⟨node, known, rfl⟩ := Option.map_eq_some_iff.mp found
  exact (Instance.resolveValue?_eq_some_iff nodup_values_document).mpr
    (valueAt?_document known below)

/-! ## Names -/

section Named

variable {supplied : OperationId → Option String} (named : names.Names problem supplied)

include named

theorem nameOf?_document (operation : OperationId) :
    (document problem kinds names instanceName problemName).nameOf? operation =
      names.get? operation := by
  rw [Instance.nameOf?, getElem?_document]
  cases known : problem.operations[operation.index]? with
  | some node => rfl
  | none =>
    cases found : names.get? operation with
    | none => rfl
    | some name =>
      obtain ⟨node, inside⟩ := hasOperation_iff.mp (named.origin operation name found).1
      rw [known] at inside
      cases inside

theorem nodup_names_document :
    (document problem kinds names instanceName problemName).names.Nodup := by
  refine List.pairwise_filterMap.mpr (List.pairwise_iff_getElem.mpr ?_)
  intro first second firstInside secondInside before name firstNamed _ secondNamed same
  -- two operations of one name would be the same, and so at the same place
  subst same
  have nameAt (index : Nat)
      (inside : index < (document problem kinds names instanceName problemName).operations.length)
      (bears : (document problem kinds names instanceName problemName).operations[index].name =
        some name) : names.get? ⟨index⟩ = some name := by
    rw [← nameOf?_document named, Instance.nameOf?, List.getElem?_eq_getElem inside]
    exact bears
  have same := named.distinct _ _ name (nameAt first firstInside firstNamed)
    (nameAt second secondInside secondNamed)
  cases same
  exact Nat.lt_irrefl _ before

theorem apart_document : ∀ name ∈ (document problem kinds names instanceName problemName).names,
    name ∉ problem.operatorTypes.map OperatorType.name := by
  intro name member
  obtain ⟨declaration, present, bears⟩ := List.mem_filterMap.mp member
  obtain ⟨index, inside⟩ := List.getElem?_of_mem present
  have found : names.get? ⟨index⟩ = some name := by
    rw [← nameOf?_document named, Instance.nameOf?, inside, Option.bind_some, bears]
  exact named.apart ⟨index⟩ name found

/-- The name of a source stands for this source. -/
theorem resolveOperation?_document {source : OperationId} {name : String}
    (found : names.get? source = some name) :
    (document problem kinds names instanceName problemName).resolveOperation? name =
      some source := by
  rw [Instance.resolveOperation?_eq_some_iff (nodup_names_document named), nameOf?_document named]
  exact found

/-- The source of a dependence has a name. -/
theorem exists_name {position : Nat} {node : Operation}
    (known : problem.operations[position]? = some node) {source : OperationId}
    (member : source ∈ node.auxiliarySources) : ∃ name, names.get? source = some name := by
  refine Option.isSome_iff_exists.mp (named.sources ⟨position⟩ ?_ source ?_)
  · exact hasOperation_iff.mpr ⟨node, known⟩
  · rw [sourcesOf_eq known]
    exact member

end Named

/-! ## Records -/

theorem sources_ofOperands (marks : List (Nat × Option (List Property))) :
    (DependenceRecord.ofOperands marks).filterMap (fun record => record.slot.source?) = [] := by
  rw [List.filterMap_eq_nil_iff]
  intro record member
  obtain ⟨mark, _, rfl⟩ := List.mem_map.mp member
  rfl

theorem sources_ofSources (number : Nat) (sources : List (String × Option (List Property))) :
    (DependenceRecord.ofSources number sources).filterMap (fun record => record.slot.source?) =
      sources.map Prod.fst := by
  induction sources generalizing number with
  | nil => rfl
  | cons first sources inductionHypothesis =>
    exact congrArg (first.1 :: ·) (inductionHypothesis (number + 1))

/-- The sources that a saved operation names. -/
theorem sources_declarationOf (position : Nat) (node : Operation) :
    (declarationOf problem kinds names position node).sources =
      node.auxiliarySources.map fun source => (names.get? source).getD "" := by
  rw [OperationDecl.sources, declarationOf, List.filterMap_append, sources_ofOperands,
    sources_ofSources, List.nil_append, sourceMarks, List.map_map]
  rfl

theorem mem_operandMarks {operation : OperationId} {operands : List Operand}
    {mark : Nat × Option (List Property)} :
    mark ∈ operandMarks problem kinds operation operands.zipIdx ↔
      ∃ operand properties, operands[mark.1]? = some operand ∧
        encode kinds.dependence problem (.data operand.source operand.result operation mark.1) =
          some properties ∧ mark.2 = some properties := by
  rw [operandMarks, List.mem_filterMap]
  constructor
  · rintro ⟨entry, member, marked⟩
    obtain ⟨properties, found, rfl⟩ := Option.map_eq_some_iff.mp marked
    exact ⟨entry.1, properties, List.mem_zipIdx_iff_getElem?.mp member, found, rfl⟩
  · rintro ⟨operand, properties, here, found, same⟩
    refine ⟨(operand, mark.1), List.mem_zipIdx_iff_getElem?.mpr here, ?_⟩
    rw [found, Option.map_some, ← same]

theorem increasing_operandMarks (operation : OperationId) (operands : List Operand) :
    ((operandMarks problem kinds operation operands.zipIdx).map Prod.fst).Pairwise (· < ·) := by
  have positions : operands.zipIdx.Pairwise fun first second => first.2 < second.2 := by
    have increasing : (operands.zipIdx.map Prod.snd).Pairwise (· < ·) := by
      rw [List.zipIdx_map_snd]
      exact List.pairwise_lt_range'
    exact List.pairwise_map.mp increasing
  refine List.pairwise_map.mpr (List.pairwise_filterMap.mpr (positions.imp ?_))
  intro first second before firstMark firstMarked secondMark secondMarked
  obtain ⟨_, _, rfl⟩ := Option.map_eq_some_iff.mp firstMarked
  obtain ⟨_, _, rfl⟩ := Option.map_eq_some_iff.mp secondMarked
  exact before

/-- The records of a saved operation are in order. -/
theorem recordFault?_declarationOf (position : Nat) (node : Operation) :
    recordFault? (declarationOf problem kinds names position node).operands.length
      (declarationOf problem kinds names position node).dependences = none := by
  refine recordFault?_eq_none_iff.mpr ⟨_, _, increasing_operandMarks _ _, ?_,
    by rw [declarationOf, List.length_map]⟩
  intro mark member
  obtain ⟨operand, _, here, _⟩ := mem_operandMarks.mp member
  rw [declarationOf, List.length_map]
  exact (List.getElem?_eq_some_iff.mp here).1

theorem mem_ofSources {record : DependenceRecord} {number : Nat}
    {sources : List (String × Option (List Property))}
    (member : record ∈ DependenceRecord.ofSources number sources) :
    ∃ entry ∈ sources, ∃ index, record = ⟨.named index entry.1, entry.2⟩ := by
  induction sources generalizing number with
  | nil => cases member
  | cons first sources inductionHypothesis =>
    rcases List.mem_cons.mp member with rfl | member
    · exact ⟨first, .head _, number, rfl⟩
    · obtain ⟨entry, present, index, same⟩ := inductionHypothesis member
      exact ⟨entry, .tail _ present, index, same⟩

theorem exists_mem_ofSources {entry : String × Option (List Property)}
    {sources : List (String × Option (List Property))} (member : entry ∈ sources) (number : Nat) :
    ∃ index, (⟨.named index entry.1, entry.2⟩ : DependenceRecord) ∈
      DependenceRecord.ofSources number sources := by
  induction sources generalizing number with
  | nil => cases member
  | cons first sources inductionHypothesis =>
    rcases List.mem_cons.mp member with rfl | member
    · exact ⟨number, .head _⟩
    · obtain ⟨index, present⟩ := inductionHypothesis member (number + 1)
      exact ⟨index, .tail _ present⟩

/-- A record of a saved operation is about a dependence, and holds its properties. -/
theorem properties_of_mem_dependences {position : Nat} {node : Operation}
    {record : DependenceRecord}
    (member : record ∈ (declarationOf problem kinds names position node).dependences) :
    ∃ dependence, record.properties = encode kinds.dependence problem dependence := by
  rcases List.mem_append.mp member with member | member
  · obtain ⟨mark, marked, rfl⟩ := List.mem_map.mp member
    obtain ⟨operand, properties, _, found, same⟩ := mem_operandMarks.mp marked
    exact ⟨_, same.trans found.symm⟩
  · obtain ⟨entry, present, index, rfl⟩ := mem_ofSources member
    obtain ⟨source, _, rfl⟩ := List.mem_map.mp present
    exact ⟨_, rfl⟩

/-! ## Saved documents are loadable -/

section Loadable

variable {supplied : OperationId → Option String} (wellFormed : problem.WellFormed)
  (named : names.Names problem supplied) (builtIn : kinds.BuiltIn)

include wellFormed named builtIn

theorem connectable_declarationOf {position : Nat} {node : Operation}
    (known : problem.operations[position]? = some node) :
    (document problem kinds names instanceName problemName).Connectable kinds
      (declarationOf problem kinds names position node) := by
  have consistent := wellFormed.nodes node (List.mem_of_getElem? known)
  refine ⟨?_, recordFault?_declarationOf position node, ?_, ?_, ?_⟩
  · intro name member
    obtain ⟨operand, used, rfl⟩ := List.mem_map.mp member
    rw [← Instance.resolveValue?_isSome_iff,
      resolveValue?_document (consistent.operands operand used)]
    rfl
  · intro name member
    rw [sources_declarationOf] at member
    obtain ⟨source, used, rfl⟩ := List.mem_map.mp member
    obtain ⟨name, found⟩ := exists_name named known used
    rw [← Instance.resolveOperation?_isSome_iff, found, Option.getD_some,
      resolveOperation?_document named found]
    rfl
  · rw [sources_declarationOf]
    refine List.pairwise_map.mpr (consistent.distinct.imp_of_mem ?_)
    intro first second firstUsed secondUsed different same
    obtain ⟨firstName, firstFound⟩ := exists_name named known firstUsed
    obtain ⟨secondName, secondFound⟩ := exists_name named known secondUsed
    rw [firstFound, secondFound, Option.getD_some, Option.getD_some] at same
    subst same
    exact different (named.distinct first second firstName firstFound secondFound)
  · intro record member
    obtain ⟨dependence, same⟩ := properties_of_mem_dependences member
    rw [same]
    exact builtIn.accepted_encode_dependence problem dependence

theorem loadable_document :
    (document problem kinds names instanceName problemName).Loadable kinds := by
  have types : (document problem kinds names instanceName problemName).operatorTypes.map
      OperatorTypeDecl.name = problem.operatorTypes.map OperatorType.name := by
    simp only [document, List.map_map]
    rfl
  have saved {declaration : OperationDecl}
      (member : declaration ∈ (document problem kinds names instanceName problemName).operations) :
      ∃ position node, problem.operations[position]? = some node ∧
        declaration = declarationOf problem kinds names position node := by
    obtain ⟨position, inside, rfl⟩ := List.mem_mapIdx.mp member
    exact ⟨position, _, List.getElem?_eq_getElem inside, rfl⟩
  refine ⟨builtIn.accepted_encode_problem problem, ?_, ?_, nodup_names_document named, ?_,
    nodup_values_document, ?_, ?_⟩
  · rw [types]
    refine List.pairwise_map.mpr (wellFormed.operatorTypes.imp ?_)
    intro first second different same
    exact different (congrArg OperatorType.mk same)
  · intro declaration member
    obtain ⟨operatorType, _, rfl⟩ := List.mem_map.mp member
    exact builtIn.accepted_encode_operatorType problem operatorType
  · rw [types]
    exact apart_document named
  · intro declaration member
    obtain ⟨position, node, _, rfl⟩ := saved member
    exact builtIn.accepted_encode_operation problem ⟨position⟩
  · intro declaration member
    obtain ⟨position, node, known, rfl⟩ := saved member
    exact connectable_declarationOf wellFormed named builtIn known

end Loadable

end Problem

end StaticScheduling
