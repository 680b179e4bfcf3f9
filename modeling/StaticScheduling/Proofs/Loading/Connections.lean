import StaticScheduling.Proofs.Instance.RecordOrder
import StaticScheduling.Proofs.Loading.Declarations
import StaticScheduling.Proofs.Problem.Reachable
import StaticScheduling.Proofs.Verification

/-! # Connecting operations

Operations are connected one after the other, and each record by record.  A
problem on the way is that of an operation with the records added so far, so
adding a record is a step from one such problem to the next.
-/

namespace StaticScheduling

open PropertyKind (Accepted decodeOptional)

theorem getElem?_filterMap_of_isSome {Element Image : Type} {image : Element → Option Image}
    {elements : List Element} (total : ∀ element ∈ elements, (image element).isSome)
    (index : Nat) : (elements.filterMap image)[index]? = elements[index]?.bind image := by
  induction elements generalizing index with
  | nil => rfl
  | cons first rest inductionHypothesis =>
    obtain ⟨here, there⟩ := List.forall_mem_cons.mp total
    obtain ⟨value, found⟩ := Option.isSome_iff_exists.mp here
    rw [List.filterMap_cons, found]
    cases index with
    | zero => exact found.symm
    | succ index => exact inductionHypothesis there index

namespace OperationDecl

/-- The declaration with other dependence records. -/
def withRecords (declaration : OperationDecl) (records : List DependenceRecord) : OperationDecl :=
  { declaration with dependences := records }

theorem sources_withRecords (declaration : OperationDecl)
    (records : List DependenceRecord) : (declaration.withRecords records).sources =
      records.filterMap fun record => record.slot.source? := rfl

theorem sources_withRecords_cons (declaration : OperationDecl) (record : DependenceRecord)
    (records : List DependenceRecord) : (declaration.withRecords (record :: records)).sources =
      (declaration.withRecords [record]).sources ++ (declaration.withRecords records).sources :=
  List.filterMap_append (l := [record])

end OperationDecl

namespace Instance

variable (document : Instance)

/-! ## Operands -/

theorem resolveOperand_eq_ok_iff {label name : String} {operand : Operand} :
    Loading.resolveOperand document label name = .ok operand ↔
      document.resolveValue? name = some operand := by
  unfold Loading.resolveOperand
  cases document.resolveValue? name <;> simp

theorem mapM_resolveOperand_eq_ok_iff {label : String} {names : List String}
    {operands : List Operand} :
    names.mapM (Loading.resolveOperand document label) = .ok operands ↔
      (∀ name ∈ names, name ∈ document.values) ∧
        operands = names.filterMap document.resolveValue? := by
  rw [mapM_eq_ok_iff]
  induction names generalizing operands with
  | nil => simp [eq_comm]
  | cons name names inductionHypothesis =>
    rw [List.map_cons, List.forall_mem_cons, ← resolveValue?_isSome_iff, List.filterMap_cons]
    cases found : document.resolveValue? name with
    | none =>
      constructor
      · intro same
        cases operands with
        | nil => cases same
        | cons operand operands =>
          have resolved := document.resolveOperand_eq_ok_iff.mp (List.cons.inj same).1
          rw [found] at resolved
          cases resolved
      · rintro ⟨⟨defined, _⟩, _⟩
        cases defined
    | some operand =>
      have resolved : Loading.resolveOperand document label name = .ok operand :=
        document.resolveOperand_eq_ok_iff.mpr found
      cases operands with
      | nil => simp
      | cons first operands =>
        rw [resolved, List.map_cons, List.cons.injEq, inductionHypothesis]
        simp only [Except.ok.injEq, Option.isSome_some, true_and, List.cons.injEq]
        exact ⟨fun ⟨same, defined, others⟩ => ⟨defined, same.symm, others⟩,
          fun ⟨defined, same, others⟩ => ⟨same.symm, defined, others⟩⟩

/-- Which operation has how many results is known from the start. -/
theorem exists_node_withDependences {connected rest : List OperationDecl}
    (whole : document.operations = connected ++ rest) {index : Nat} {declaration : OperationDecl}
    (inside : document.operations[index]? = some declaration) :
    ∃ node, (document.withDependences connected rest).operations[index]? = some node ∧
      node.results = declaration.results.length := by
  have results : (document.withDependences connected rest).operations.map Operation.results =
      document.operations.map fun declaration => declaration.results.length := by
    rw [whole, withDependences, List.map_append, List.map_append, List.map_map, List.map_map]
    rfl
  have here := congrArg (fun counts => counts[index]?) results
  simp only [List.getElem?_map, inside, Option.map_some] at here
  exact Option.map_eq_some_iff.mp here

theorem checkOperand_withDependences {connected rest : List OperationDecl}
    (whole : document.operations = connected ++ rest) {name : String} {operand : Operand}
    (found : document.resolveValue? name = some operand) :
    (document.withDependences connected rest).checkOperand operand = .ok () := by
  obtain ⟨declaration, inside, bears⟩ :=
    Option.bind_eq_some_iff.mp (valueAt?_of_resolveValue? found)
  obtain ⟨node, known, results⟩ := document.exists_node_withDependences whole inside
  have below : operand.result < node.results := by
    rw [results]
    exact (List.getElem?_eq_some_iff.mp bears).1
  simp only [Problem.checkOperand, Problem.operation, known, bind_eq_ok_iff]
  exact ⟨node, rfl, if_pos below⟩

/-- A name stands for one operation, so an operation depends on what it names and nothing else. -/
theorem mem_auxiliarySources_connectedNode {declaration : OperationDecl} {name : String}
    {source : OperationId} (found : document.resolveOperation? name = some source) :
    source ∈ (document.connectedNode declaration).auxiliarySources ↔
      name ∈ declaration.sources := by
  constructor
  · intro member
    obtain ⟨other, present, same⟩ := List.mem_filterMap.mp member
    have named := nameOf?_of_resolveOperation? found
    rw [nameOf?_of_resolveOperation? same] at named
    cases named
    exact present
  · intro member
    exact List.mem_filterMap.mpr ⟨name, member, found⟩

/-- The node of the operation that is connected next, or was connected last. -/
theorem getElem?_withDependences (connected rest : List OperationDecl)
    (declaration : OperationDecl) :
    (document.withDependences connected (declaration :: rest)).operations[connected.length]? =
        some (declaredNode declaration) ∧
      (document.withDependences (connected ++ [declaration]) rest).operations[connected.length]? =
        some (document.connectedNode declaration) := by
  simp [withDependences]

/-- Distances, when one more operation is connected and none of its records is added yet. -/
theorem distances_withRecords_nil (connected : List OperationDecl) (declaration : OperationDecl) :
    (Assignment.ofFunction fun dependence : Dependence =>
        (connected ++ [declaration.withRecords []])[dependence.destination.index]?.bind
          fun declaration => Property.last? (Property.number? "distance")
            (document.propertiesAt declaration dependence)) =
      .ofFunction fun dependence =>
        connected[dependence.destination.index]?.bind fun declaration =>
          Property.last? (Property.number? "distance")
            (document.propertiesAt declaration dependence) := by
  ext1 dependence
  simp only [Assignment.get?_ofFunction]
  -- only the dependences of the new operation could differ, and it has no records
  by_cases last : dependence.destination.index = connected.length
  · rw [last, List.getElem?_concat_length, List.getElem?_eq_none (Nat.le_refl _)]
    rfl
  · rw [getElem?_append_singleton_of_ne _ _ last]

theorem setOperands_withDependences {connected rest : List OperationDecl}
    {declaration : OperationDecl}
    (whole : document.operations = connected ++ declaration :: rest) :
    (document.withDependences connected (declaration :: rest)).setOperands ⟨connected.length⟩
        (declaration.operands.filterMap document.resolveValue?) =
      .ok (document.withDependences (connected ++ [declaration.withRecords []]) rest) := by
  have checked : (declaration.operands.filterMap document.resolveValue?).forM
      (document.withDependences connected (declaration :: rest)).checkOperand = .ok () := by
    rw [forM_eq_ok_iff]
    intro operand member
    obtain ⟨name, _, found⟩ := List.mem_filterMap.mp member
    exact document.checkOperand_withDependences whole found
  have known := (document.getElem?_withDependences connected rest declaration).1
  simp only [Problem.setOperands, Problem.operation, known, checked, bind_eq_ok_iff, exists_unit,
    true_and, Except.ok.injEq, exists_eq_left', declaredNode, Bool.false_eq_true, if_false]
  simp only [Problem.setNode, withDependences, distances_withRecords_nil, List.map_cons,
    List.map_append, List.map_nil, List.append_assoc, List.singleton_append]
  congr 1
  rw [List.set_append_right _ _ (Nat.le_of_eq (List.length_map _)), List.length_map,
    Nat.sub_self, List.set_cons_zero]
  rfl

/-! ## Records -/

/-- Distances, when one more record of the operation that is connected last is added. -/
theorem record_distances (connected : List OperationDecl) (declaration : OperationDecl)
    (before : List DependenceRecord) (record : DependenceRecord) {dependence : Dependence}
    (describes : document.dependenceAt? ⟨connected.length⟩ declaration.operands record.slot =
      some dependence) (ends : dependence.destination = ⟨connected.length⟩) :
    (Assignment.ofFunction fun dependence : Dependence =>
        (connected ++ [declaration.withRecords before])[dependence.destination.index]?.bind
          fun declaration => Property.last? (Property.number? "distance")
            (document.propertiesAt declaration dependence)).record dependence
              (Property.last? (Property.number? "distance") (record.properties.getD [])) =
      .ofFunction fun dependence =>
        (connected ++ [declaration.withRecords (before ++ [record])])[
            dependence.destination.index]?.bind fun declaration =>
          Property.last? (Property.number? "distance")
            (document.propertiesAt declaration dependence) := by
  ext1 other
  rw [Assignment.get?_record]
  simp only [Assignment.get?_ofFunction]
  -- the record is about a dependence of the operation connected last, so others stay as they are
  by_cases last : other.destination.index = connected.length
  · have destination : other.destination = ⟨connected.length⟩ := congrArg OperationId.mk last
    rw [last, List.getElem?_concat_length, List.getElem?_concat_length, Option.bind_some,
      Option.bind_some]
    simp only [propertiesAt, OperationDecl.withRecords, List.filter_append, List.flatMap_append,
      Property.last?_append, destination]
    by_cases same : other = dependence
    · subst same
      simp [describes]
    · simp [describes, same, Ne.symm same]
  · have different : other ≠ dependence := by
      rintro rfl
      exact last (congrArg OperationId.index ends)
    rw [if_neg different, getElem?_append_singleton_of_ne _ _ last,
      getElem?_append_singleton_of_ne _ _ last]

/-- A record of an operand only gives properties to the dependence that is there already. -/
theorem annotateDependence_operand (connected rest : List OperationDecl)
    (declaration : OperationDecl) (before : List DependenceRecord) {record : DependenceRecord}
    {index : Nat} (slot : record.slot = .operand index) {dependence : Dependence}
    (describes : document.dependenceAt? ⟨connected.length⟩ declaration.operands record.slot =
      some dependence) (ends : dependence.destination = ⟨connected.length⟩) :
    (document.withDependences (connected ++ [declaration.withRecords before])
        rest).annotateDependence dependence (record.properties.getD []) =
      document.withDependences (connected ++ [declaration.withRecords (before ++ [record])])
        rest := by
  have node : document.connectedNode (declaration.withRecords (before ++ [record])) =
      document.connectedNode (declaration.withRecords before) := by
    simp [connectedNode, OperationDecl.withRecords, OperationDecl.sources, slot, Slot.source?]
  simp only [Problem.annotateDependence, withDependences,
    document.record_distances connected declaration before record describes ends,
    List.map_append, List.map_cons, List.map_nil, node]

/-- A record of a named source adds a dependence and gives it properties. -/
theorem annotateDependence_named (connected rest : List OperationDecl)
    (declaration : OperationDecl) (before : List DependenceRecord) {record : DependenceRecord}
    {index : Nat} {name : String} (slot : record.slot = .named index name) {source : OperationId}
    (found : document.resolveOperation? name = some source) :
    ((document.withDependences (connected ++ [declaration.withRecords before]) rest).setNode
          ⟨connected.length⟩
          { document.connectedNode (declaration.withRecords before) with
            auxiliarySources :=
              (document.connectedNode (declaration.withRecords before)).auxiliarySources ++
                [source] }).annotateDependence
        (.auxiliary source ⟨connected.length⟩) (record.properties.getD []) =
      document.withDependences (connected ++ [declaration.withRecords (before ++ [record])])
        rest := by
  have describes : document.dependenceAt? ⟨connected.length⟩ declaration.operands record.slot =
      some (.auxiliary source ⟨connected.length⟩) := by
    rw [slot, dependenceAt?, found, Option.map_some]
  have node : document.connectedNode (declaration.withRecords (before ++ [record])) =
      { document.connectedNode (declaration.withRecords before) with
        auxiliarySources :=
          (document.connectedNode (declaration.withRecords before)).auxiliarySources ++
            [source] } := by
    simp [connectedNode, OperationDecl.sources, OperationDecl.withRecords, slot, Slot.source?,
      found]
  simp only [Problem.annotateDependence, Problem.setNode, withDependences,
    document.record_distances connected declaration before record describes rfl, node,
    List.map_append, List.map_cons, List.map_nil, List.append_assoc, List.singleton_append]
  congr 1
  rw [List.set_append_right _ _ (Nat.le_of_eq (List.length_map _)), List.length_map,
    Nat.sub_self, List.set_cons_zero]

/-- What a name stands for is registered. -/
theorem hasOperation_of_resolveOperation? {connected rest : List OperationDecl}
    (whole : document.operations.length = connected.length + 1 + rest.length)
    (declaration : OperationDecl) (before : List DependenceRecord) {name : String}
    {source : OperationId} (found : document.resolveOperation? name = some source) :
    (document.withDependences (connected ++ [declaration.withRecords before]) rest).hasOperation
      source := by
  obtain ⟨_, bearerAt, _⟩ := Option.bind_eq_some_iff.mp (nameOf?_of_resolveOperation? found)
  have inside := (List.getElem?_eq_some_iff.mp bearerAt).1
  simp only [Problem.hasOperation, withDependences, List.length_append, List.length_map,
    List.length_singleton, decide_eq_true_eq]
  omega

/-- An operand of the operation that is connected last is fed by a dependence. -/
theorem exists_dataDependence (connected rest : List OperationDecl) {declaration : OperationDecl}
    (before : List DependenceRecord) {index : Nat} (inside : index < declaration.operands.length)
    (defined : ∀ name ∈ declaration.operands, name ∈ document.values) :
    ∃ dependence,
      (document.withDependences (connected ++ [declaration.withRecords before])
        rest).dataDependence ⟨connected.length⟩ index = .ok dependence ∧
      document.dependenceAt? ⟨connected.length⟩ declaration.operands (.operand index) =
        some dependence := by
  have resolved : ∀ name ∈ declaration.operands, (document.resolveValue? name).isSome :=
    fun name member => resolveValue?_isSome_iff.mpr (defined name member)
  obtain ⟨operand, found⟩ := Option.isSome_iff_exists.mp
    (resolved _ (List.getElem_mem inside))
  have named : declaration.operands[index]?.bind document.resolveValue? = some operand := by
    rw [List.getElem?_eq_getElem inside, Option.bind_some, found]
  have known := (document.getElem?_withDependences connected rest
    (declaration.withRecords before)).2
  have operandAt : (document.connectedNode (declaration.withRecords before)).operands[index]? =
      some operand := (getElem?_filterMap_of_isSome resolved index).trans named
  refine ⟨.data operand.source operand.result ⟨connected.length⟩ index, ?_, ?_⟩
  · exact Problem.dataDependence_eq_ok_iff.mpr ⟨_, operand, known, operandAt, rfl⟩
  · rw [dependenceAt?, named, Option.map_some]

theorem resolveSource_eq_ok_iff {label name : String} {source : OperationId} :
    Loading.resolveSource document label name = .ok source ↔
      document.resolveOperation? name = some source := by
  unfold Loading.resolveSource
  cases document.resolveOperation? name with
  | none =>
    simp only [reduceCtorEq, iff_false]
    split <;> nofun
  | some found => simp

section Step

variable {document} {kinds : ProblemKinds} (builtIn : kinds.BuiltIn) {label : String}
  {connected rest : List OperationDecl} {declaration : OperationDecl} {problem : Problem}

include builtIn

/-- The record of an operand is added without changing the graph. -/
theorem addRecord_operand (before : List DependenceRecord) {record : DependenceRecord}
    {index : Nat} (slot : record.slot = .operand index)
    (inside : index < declaration.operands.length)
    (defined : ∀ name ∈ declaration.operands, name ∈ document.values) :
    Loading.addRecord document kinds label ⟨connected.length⟩
        (document.withDependences (connected ++ [declaration.withRecords before]) rest) record =
          .ok problem ↔
      Accepted kinds.dependence record.properties ∧
        problem = document.withDependences
          (connected ++ [declaration.withRecords (before ++ [record])]) rest := by
  obtain ⟨dependence, data, describes⟩ :=
    document.exists_dataDependence connected rest before inside defined
  have contained := Problem.containsDependence_of_dataDependence data
  have inserts := Problem.insertDependence_of_dataDependence data
  have ends := Problem.destination_of_dataDependence data
  rw [← slot] at describes
  simp only [Loading.addRecord, Loading.recordDependence, slot, bind_eq_ok_iff, within_eq_ok_iff,
    data, Except.ok.injEq, exists_eq_left', inserts,
    builtIn.decodeOptional_dependence contained,
    document.annotateDependence_operand connected rest declaration before slot describes ends]

/-- The record of a named source is added if the source exists and was not added before. -/
theorem addRecord_named (whole : document.operations.length = connected.length + 1 + rest.length)
    (before : List DependenceRecord) {record : DependenceRecord} {index : Nat} {name : String}
    (slot : record.slot = .named index name) :
    Loading.addRecord document kinds label ⟨connected.length⟩
        (document.withDependences (connected ++ [declaration.withRecords before]) rest) record =
          .ok problem ↔
      (name ∈ document.names ∧ name ∉ (declaration.withRecords before).sources) ∧
        Accepted kinds.dependence record.properties ∧
        problem = document.withDependences
          (connected ++ [declaration.withRecords (before ++ [record])]) rest := by
  have known := (document.getElem?_withDependences connected rest
    (declaration.withRecords before)).2
  cases found : document.resolveOperation? name with
  | none =>
    have undefined : name ∉ document.names := by
      rw [← resolveOperation?_isSome_iff, found]
      nofun
    constructor
    · intro added
      simp only [Loading.addRecord, Loading.recordDependence, slot, bind_eq_ok_iff,
        resolveSource_eq_ok_iff, found] at added
      obtain ⟨_, ⟨_, none, _⟩, _⟩ := added
      cases none
    · rintro ⟨⟨defined, _⟩, _⟩
      exact absurd defined undefined
  | some source =>
    have defined : name ∈ document.names := by
      rw [← resolveOperation?_isSome_iff, found]
      rfl
    obtain ⟨node, sourceNode⟩ := Problem.hasOperation_iff.mp
      (document.hasOperation_of_resolveOperation? whole declaration before found)
    have repeated : source ∈ (document.connectedNode
        (declaration.withRecords before)).auxiliarySources ↔
          name ∈ (declaration.withRecords before).sources :=
      document.mem_auxiliarySources_connectedNode found
    have contained : ((document.withDependences (connected ++ [declaration.withRecords before])
        rest).setNode ⟨connected.length⟩
          { document.connectedNode (declaration.withRecords before) with
            auxiliarySources :=
              (document.connectedNode (declaration.withRecords before)).auxiliarySources ++
                [source] }).containsDependence (.auxiliary source ⟨connected.length⟩) :=
      Problem.containsDependence_added known
    simp only [Loading.addRecord, Loading.recordDependence, slot, bind_eq_ok_iff,
      resolveSource_eq_ok_iff, found, Option.some.injEq, exists_eq_left', Except.ok.injEq,
      within_eq_ok_iff, Problem.insertDependence, Problem.operation, sourceNode, known, repeated,
      defined, true_and]
    -- adding the dependence once more would be refused
    by_cases old : name ∈ (declaration.withRecords before).sources
    · simp [old]
    · simp only [old, if_false, not_false_eq_true, true_and, Except.ok.injEq, exists_eq_left',
        builtIn.decodeOptional_dependence contained,
        document.annotateDependence_named connected rest declaration before slot found]

/-- A record is added if it names no source, or one that exists and was not named before. -/
theorem addRecord_eq_ok_iff
    (whole : document.operations.length = connected.length + 1 + rest.length)
    (defined : ∀ name ∈ declaration.operands, name ∈ document.values)
    (before : List DependenceRecord) {record : DependenceRecord}
    (inside : ∀ index, record.slot = .operand index → index < declaration.operands.length) :
    Loading.addRecord document kinds label ⟨connected.length⟩
        (document.withDependences (connected ++ [declaration.withRecords before]) rest) record =
          .ok problem ↔
      (∀ name ∈ (declaration.withRecords [record]).sources, name ∈ document.names) ∧
        Fresh (declaration.withRecords before).sources (declaration.withRecords [record]).sources ∧
        Accepted kinds.dependence record.properties ∧
        problem = document.withDependences
          (connected ++ [declaration.withRecords (before ++ [record])]) rest := by
  cases slot : record.slot with
  | operand index =>
    have sources : (declaration.withRecords [record]).sources = [] := by
      simp [OperationDecl.sources_withRecords, slot, Slot.source?]
    rw [sources, addRecord_operand builtIn before slot (inside index slot) defined]
    constructor
    · intro added
      exact ⟨List.forall_mem_nil _, fresh_nil, added⟩
    · rintro ⟨_, _, added⟩
      exact added
  | named index name =>
    have sources : (declaration.withRecords [record]).sources = [name] := by
      simp [OperationDecl.sources_withRecords, slot, Slot.source?]
    rw [sources, List.forall_mem_singleton, fresh_singleton, ← and_assoc]
    exact addRecord_named builtIn whole before slot

/-- Adding the records that are left of an operation. -/
theorem foldlM_addRecord_eq_ok_iff
    (whole : document.operations.length = connected.length + 1 + rest.length)
    (defined : ∀ name ∈ declaration.operands, name ∈ document.values)
    (records before : List DependenceRecord)
    (inside : ∀ record ∈ records, ∀ index, record.slot = .operand index →
      index < declaration.operands.length) :
    records.foldlM (Loading.addRecord document kinds label ⟨connected.length⟩)
        (document.withDependences (connected ++ [declaration.withRecords before]) rest) =
          .ok problem ↔
      (∀ name ∈ (declaration.withRecords records).sources, name ∈ document.names) ∧
        Fresh (declaration.withRecords before).sources (declaration.withRecords records).sources ∧
        (∀ record ∈ records, Accepted kinds.dependence record.properties) ∧
        problem = document.withDependences
          (connected ++ [declaration.withRecords (before ++ records)]) rest := by
  -- the records added so far are part of the problem, so they change from step to step
  induction records generalizing before with
  | nil =>
    rw [List.append_nil]
    constructor
    · intro same
      cases same
      exact ⟨nofun, fresh_nil, nofun, rfl⟩
    · rintro ⟨_, _, _, rfl⟩
      rfl
  | cons record records inductionHypothesis =>
    obtain ⟨insideHere, insideOthers⟩ := List.forall_mem_cons.mp inside
    have next := inductionHypothesis (before ++ [record]) insideOthers
    rw [List.append_assoc, List.singleton_append] at next
    -- what this record names has been seen by the records behind it
    have seen (name : String) : name ∈ (declaration.withRecords (before ++ [record])).sources ↔
        name ∈ (declaration.withRecords [record]).sources ++
          (declaration.withRecords before).sources := by
      rw [OperationDecl.sources_withRecords, List.filterMap_append, List.mem_append,
        List.mem_append, or_comm]
      rfl
    rw [Fresh.congr seen] at next
    rw [List.foldlM_cons, bind_eq_ok_iff, OperationDecl.sources_withRecords_cons,
      List.forall_mem_append, fresh_append, List.forall_mem_cons]
    constructor
    · rintro ⟨_, added, others⟩
      obtain ⟨knownHere, freshHere, accepted, rfl⟩ :=
        (addRecord_eq_ok_iff builtIn whole defined before insideHere).mp added
      obtain ⟨known, fresh, acceptedOthers, same⟩ := next.mp others
      exact ⟨⟨knownHere, known⟩, ⟨freshHere, fresh⟩, ⟨accepted, acceptedOthers⟩, same⟩
    · rintro ⟨⟨knownHere, known⟩, ⟨freshHere, fresh⟩, ⟨accepted, acceptedOthers⟩, same⟩
      exact ⟨_, (addRecord_eq_ok_iff builtIn whole defined before insideHere).mpr
        ⟨knownHere, freshHere, accepted, rfl⟩, next.mpr ⟨known, fresh, acceptedOthers, same⟩⟩

theorem connectOperation_eq_ok_iff
    (whole : document.operations = connected ++ declaration :: rest) :
    Loading.connectOperation document kinds
        (document.withDependences connected (declaration :: rest)) declaration connected.length =
          .ok problem ↔
      document.Connectable kinds declaration ∧
        problem = document.withDependences (connected ++ [declaration]) rest := by
  have length : document.operations.length = connected.length + 1 + rest.length := by
    rw [whole, List.length_append, List.length_cons]
    omega
  simp only [Loading.connectOperation, bind_eq_ok_iff, mapM_resolveOperand_eq_ok_iff,
    within_eq_ok_iff, exists_unit]
  constructor
  · rintro ⟨_, ⟨operands, rfl⟩, _, sets, checked, added⟩
    rw [document.setOperands_withDependences whole] at sets
    cases sets
    have records := checkRecords_eq_ok_iff.mp checked
    have inside := operand_lt_of_recordFault? records
    obtain ⟨sources, distinct, accepted, same⟩ :=
      (foldlM_addRecord_eq_ok_iff builtIn length operands _ [] inside).mp added
    exact ⟨⟨operands, records, sources, distinct.1, accepted⟩, same⟩
  · rintro ⟨⟨operands, records, sources, distinct, accepted⟩, same⟩
    have inside := operand_lt_of_recordFault? records
    exact ⟨_, ⟨operands, rfl⟩, _, document.setOperands_withDependences whole,
      checkRecords_eq_ok_iff.mpr records,
      (foldlM_addRecord_eq_ok_iff builtIn length operands _ [] inside).mpr
        ⟨sources, fresh_of_nothing.mpr distinct, accepted, same⟩⟩

/-- Connecting the operations that are left. -/
theorem foldlM_connectOperation_eq_ok_iff (rest connected : List OperationDecl)
    (whole : document.operations = connected ++ rest) :
    (rest.zipIdx connected.length).foldlM
        (fun problem entry => Loading.connectOperation document kinds problem entry.1 entry.2)
        (document.withDependences connected rest) = .ok problem ↔
      (∀ declaration ∈ rest, document.Connectable kinds declaration) ∧
        problem = document.meaning := by
  -- each step takes one declaration from the rest over to the connected ones
  induction rest generalizing connected with
  | nil =>
    rw [List.append_nil] at whole
    rw [meaning, whole]
    constructor
    · intro same
      cases same
      exact ⟨nofun, rfl⟩
    · rintro ⟨_, rfl⟩
      rfl
  | cons declaration rest inductionHypothesis =>
    have next := inductionHypothesis (connected ++ [declaration])
      (by rw [whole, List.append_assoc, List.singleton_append])
    rw [List.length_append, List.length_singleton] at next
    rw [List.zipIdx_cons, List.foldlM_cons, bind_eq_ok_iff, List.forall_mem_cons]
    simp only [connectOperation_eq_ok_iff builtIn whole]
    constructor
    · rintro ⟨_, ⟨connectable, rfl⟩, others⟩
      obtain ⟨connectableOthers, same⟩ := next.mp others
      exact ⟨⟨connectable, connectableOthers⟩, same⟩
    · rintro ⟨⟨connectable, connectableOthers⟩, same⟩
      exact ⟨_, ⟨connectable, rfl⟩, next.mpr ⟨connectableOthers, same⟩⟩

end Step

/-- The problem before any operator type is declared. -/
theorem annotateInstance_empty :
    (Problem.empty document.name document.problem).annotateInstance
      (document.properties.getD []) = document.withOperatorTypes [] := by
  simp only [Problem.annotateInstance, Problem.empty, Option.or_none]
  rfl

/-- Loading succeeds on loadable documents, and answers the problem that they mean. -/
theorem load_eq_ok_iff {kinds : ProblemKinds} (builtIn : kinds.BuiltIn) {problem : Problem} :
    document.load kinds = .ok problem ↔
      document.Loadable kinds ∧ problem = document.meaning := by
  have typesLoaded (problem : Problem) :
      Loading.declareOperatorTypes kinds document.operatorTypes (document.withOperatorTypes []) =
          .ok problem ↔
        Fresh [] (document.operatorTypes.map OperatorTypeDecl.name) ∧
        (∀ declaration ∈ document.operatorTypes,
          Accepted kinds.operatorType declaration.properties) ∧
        problem = document.withOperations [] :=
    document.declareOperatorTypes_eq_ok_iff builtIn document.operatorTypes []
  have operationsLoaded (problem : Problem) :
      Loading.declareOperations kinds [] [] document.operations (document.withOperations []) =
          .ok problem ↔
        Fresh (document.operatorTypes.map OperatorTypeDecl.name) document.names ∧
        Fresh [] document.values ∧
        (∀ declaration ∈ document.operations, Accepted kinds.operation declaration.properties) ∧
        problem = document.withDependences [] document.operations :=
    document.declareOperations_eq_ok_iff builtIn document.operations [] [] []
  have connected :
      document.operations.zipIdx.foldlM
          (fun problem entry => Loading.connectOperation document kinds problem entry.1 entry.2)
          (document.withDependences [] document.operations) = .ok problem ↔
        (∀ declaration ∈ document.operations, document.Connectable kinds declaration) ∧
          problem = document.meaning :=
    foldlM_connectOperation_eq_ok_iff builtIn document.operations [] rfl
  simp only [load, bind_eq_ok_iff, builtIn.decodeOptional_problem, annotateInstance_empty]
  constructor
  · rintro ⟨_, ⟨properties, rfl⟩, _, declaredTypes, _, declared, loaded⟩
    obtain ⟨typeNames, typeProperties, rfl⟩ := (typesLoaded _).mp declaredTypes
    obtain ⟨⟨names, apart⟩, values, operationProperties, rfl⟩ := (operationsLoaded _).mp declared
    obtain ⟨connectable, same⟩ := connected.mp loaded
    exact ⟨⟨properties, typeNames.1, typeProperties, names, apart, values.1, operationProperties,
      connectable⟩, same⟩
  · rintro ⟨loadable, same⟩
    exact ⟨_, ⟨loadable.properties, rfl⟩, _,
      (typesLoaded _).mpr ⟨fresh_of_nothing.mpr loadable.operatorTypes,
        loadable.operatorTypeProperties, rfl⟩, _,
      (operationsLoaded _).mpr ⟨⟨loadable.names, loadable.apart⟩,
        fresh_of_nothing.mpr loadable.values, loadable.operationProperties, rfl⟩,
      connected.mpr ⟨loadable.connectable, same⟩⟩

/-- Symbols are defined once in a loadable document, by operator types and operations together. -/
theorem Loadable.nodup_symbols {document : Instance} {kinds : ProblemKinds}
    (loadable : document.Loadable kinds) : document.symbols.Nodup := by
  refine List.nodup_append.mpr ⟨loadable.operatorTypes, loadable.names, ?_⟩
  rintro name isType _ isOperation rfl
  exact loadable.apart name isOperation isType

end Instance

end StaticScheduling
