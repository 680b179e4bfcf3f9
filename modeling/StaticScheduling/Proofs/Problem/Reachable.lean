import StaticScheduling.Problem.Basic
import StaticScheduling.Proofs.Success

/-! # Reachable problems

A problem is only changed by calls, and a call that is refused changes nothing.
Whatever calls are made, the nodes of the graph stay consistent with each other
and the tables only speak of what is in the graph.
-/

namespace StaticScheduling

/-- A call that may change a problem. -/
inductive ProblemCall where
  | insertOperatorType (operatorType : OperatorType)
  | insertOperation (results : Nat)
  | setOperands (operation : OperationId) (operands : List Operand)
  | insertDependence (dependence : Dependence)
  | setInitiationInterval (value : UInt32)
  | setLatency (operatorType : OperatorType) (value : UInt32)
  | setLimit (operatorType : OperatorType) (value : UInt32)
  | setLink (operation : OperationId) (operatorType : OperatorType)
  | setStartTime (operation : OperationId) (value : UInt32)
  | setDistance (dependence : Dependence) (value : UInt32)
deriving DecidableEq, Repr, Inhabited

namespace Problem

/-- What a call makes of a problem, or why it is refused. -/
def perform (problem : Problem) : ProblemCall → Except ProblemError Problem
  | .insertOperatorType operatorType => .ok (problem.insertOperatorType operatorType).2
  | .insertOperation results => .ok (problem.insertOperation results).2
  | .setOperands operation operands => problem.setOperands operation operands
  | .insertDependence dependence => problem.insertDependence dependence
  | .setInitiationInterval value => .ok (problem.setInitiationInterval value)
  | .setLatency operatorType value => .ok (problem.setLatency operatorType value)
  | .setLimit operatorType value => .ok (problem.setLimit operatorType value)
  | .setLink operation operatorType => problem.setLink operation operatorType
  | .setStartTime operation value => problem.setStartTime operation value
  | .setDistance dependence value => problem.setDistance dependence value

/-- The problem after a call, refused or not. -/
def after (problem : Problem) (call : ProblemCall) : Problem :=
  match problem.perform call with
  | .ok changed => changed
  | .error _ => problem

/-- A problem that some sequence of calls makes of an empty one. -/
def Reachable (problem : Problem) : Prop :=
  ∃ instanceName problemName, ∃ calls : List ProblemCall,
    problem = calls.foldl after (empty instanceName problemName)

/-! ## Well-formed problems -/

/-- How many results each operation has. -/
def resultCounts (problem : Problem) : List Nat := problem.operations.map Operation.results

/-- A node whose operands and sources exist among operations with the given numbers of results. -/
structure Consistent (counts : List Nat) (node : Operation) : Prop where
  operands : ∀ operand ∈ node.operands,
    ∃ count, counts[operand.source.index]? = some count ∧ operand.result < count
  sources : ∀ source ∈ node.auxiliarySources, source.index < counts.length
  distinct : node.auxiliarySources.Nodup
  unconnected : node.connected = false → node.operands = []

/-- A problem whose nodes are consistent and whose tables speak of what is in the graph. -/
structure WellFormed (problem : Problem) : Prop where
  operatorTypes : problem.operatorTypes.Nodup
  nodes : ∀ node ∈ problem.operations, Consistent problem.resultCounts node
  links : ∀ operation, (problem.link operation).isSome → problem.hasOperation operation
  startTimes : ∀ operation, (problem.startTime operation).isSome → problem.hasOperation operation
  distances : ∀ dependence, (problem.distance dependence).isSome →
    problem.containsDependence dependence

variable {problem changed : Problem}

theorem wellFormed_empty (instanceName problemName : String) :
    (empty instanceName problemName).WellFormed where
  operatorTypes := .nil
  nodes := nofun
  links := nofun
  startTimes := nofun
  distances := nofun

theorem operation_eq_ok_iff {operation : OperationId} {node : Operation} :
    problem.operation operation = .ok node ↔ problem.operations[operation.index]? = some node := by
  unfold Problem.operation
  cases problem.operations[operation.index]? <;> simp

theorem hasOperation_iff {operation : OperationId} :
    problem.hasOperation operation = true ↔
      ∃ node, problem.operations[operation.index]? = some node := by
  simp only [hasOperation, decide_eq_true_eq]
  constructor
  · intro inside
    exact ⟨_, List.getElem?_eq_getElem inside⟩
  · rintro ⟨node, known⟩
    exact (List.getElem?_eq_some_iff.mp known).1

theorem mem_operationIds {operation : OperationId} :
    operation ∈ problem.operationIds ↔ problem.hasOperation operation := by
  simp only [operationIds, List.mem_map, List.mem_range, hasOperation, decide_eq_true_eq]
  constructor
  · rintro ⟨_, inside, rfl⟩
    exact inside
  · intro inside
    exact ⟨_, inside, rfl⟩

theorem increasing_operationIds (problem : Problem) :
    problem.operationIds.Pairwise fun first second => first.index < second.index := by
  rw [operationIds, List.pairwise_map]
  exact List.pairwise_lt_range

/-! ## Dependences that are part of a problem -/

theorem dataDependence_eq_ok_iff {operation : OperationId} {slot : Nat} {dependence : Dependence} :
    problem.dataDependence operation slot = .ok dependence ↔
      ∃ node operand, problem.operations[operation.index]? = some node ∧
        node.operands[slot]? = some operand ∧
        dependence = .data operand.source operand.result operation slot := by
  simp only [dataDependence, bind_eq_ok_iff, operation_eq_ok_iff]
  constructor
  · rintro ⟨node, known, found⟩
    cases here : node.operands[slot]? with
    | none =>
      rw [here] at found
      cases found
    | some operand =>
      rw [here] at found
      cases found
      exact ⟨node, operand, known, here, rfl⟩
  · rintro ⟨node, operand, known, here, rfl⟩
    exact ⟨node, known, by rw [here]⟩

theorem containsDependence_data_iff {source destination : OperationId} {result slot : Nat} :
    problem.containsDependence (.data source result destination slot) = true ↔
      ∃ node, problem.operations[destination.index]? = some node ∧
        node.operands[slot]? = some ⟨source, result⟩ := by
  constructor
  · intro contained
    simp only [containsDependence] at contained
    split at contained
    · rename_i existing found
      obtain ⟨node, operand, known, here, rfl⟩ := dataDependence_eq_ok_iff.mp found
      have same := of_decide_eq_true contained
      cases same
      exact ⟨node, known, here⟩
    · cases contained
  · rintro ⟨node, known, here⟩
    have found := dataDependence_eq_ok_iff.mpr ⟨node, _, known, here, rfl⟩
    simp only [containsDependence, found, decide_true]

theorem containsDependence_auxiliary_iff {source destination : OperationId} :
    problem.containsDependence (.auxiliary source destination) = true ↔
      ∃ node, problem.operations[destination.index]? = some node ∧
        source ∈ node.auxiliarySources := by
  simp only [containsDependence, Option.any_eq_true, decide_eq_true_eq]

theorem destination_of_dataDependence {operation : OperationId} {slot : Nat}
    {dependence : Dependence} (found : problem.dataDependence operation slot = .ok dependence) :
    dependence.destination = operation := by
  obtain ⟨_, _, _, _, rfl⟩ := dataDependence_eq_ok_iff.mp found
  rfl

theorem containsDependence_of_dataDependence {operation : OperationId} {slot : Nat}
    {dependence : Dependence} (found : problem.dataDependence operation slot = .ok dependence) :
    problem.containsDependence dependence := by
  obtain ⟨node, _, known, here, rfl⟩ := dataDependence_eq_ok_iff.mp found
  exact containsDependence_data_iff.mpr ⟨node, known, here⟩

theorem hasOperation_destination {dependence : Dependence}
    (contained : problem.containsDependence dependence) :
    problem.hasOperation dependence.destination := by
  cases dependence with
  | data source result destination slot =>
    obtain ⟨node, known, _⟩ := containsDependence_data_iff.mp contained
    exact hasOperation_iff.mpr ⟨node, known⟩
  | auxiliary source destination =>
    obtain ⟨node, known, _⟩ := containsDependence_auxiliary_iff.mp contained
    exact hasOperation_iff.mpr ⟨node, known⟩

theorem WellFormed.hasOperation_source (wellFormed : problem.WellFormed) {dependence : Dependence}
    (contained : problem.containsDependence dependence) :
    problem.hasOperation dependence.source := by
  cases dependence with
  | data source result destination slot =>
    obtain ⟨node, known, here⟩ := containsDependence_data_iff.mp contained
    obtain ⟨count, found, _⟩ := (wellFormed.nodes node (List.mem_of_getElem? known)).operands _
      (List.mem_of_getElem? here)
    rw [resultCounts, List.getElem?_map, Option.map_eq_some_iff] at found
    obtain ⟨origin, originKnown, _⟩ := found
    exact hasOperation_iff.mpr ⟨origin, originKnown⟩
  | auxiliary source destination =>
    obtain ⟨node, known, member⟩ := containsDependence_auxiliary_iff.mp contained
    have inside := (wellFormed.nodes node (List.mem_of_getElem? known)).sources source member
    rw [resultCounts, List.length_map] at inside
    exact decide_eq_true inside

/-- All operations of a problem are in another one, where they have at least the same operands and
sources. -/
def Extends (smaller larger : Problem) : Prop :=
  ∀ (index : Nat) (node : Operation), smaller.operations[index]? = some node →
    ∃ next, larger.operations[index]? = some next ∧
      (∀ (slot : Nat) (operand : Operand), node.operands[slot]? = some operand →
        next.operands[slot]? = some operand) ∧
      node.auxiliarySources ⊆ next.auxiliarySources

theorem extends_of_operations_eq (same : changed.operations = problem.operations) :
    problem.Extends changed := by
  intro index node known
  exact ⟨node, by rw [same, known], fun _ _ here => here, List.Subset.refl _⟩

theorem Extends.hasOperation (extended : problem.Extends changed) {operation : OperationId}
    (registered : problem.hasOperation operation) : changed.hasOperation operation := by
  obtain ⟨node, known⟩ := hasOperation_iff.mp registered
  obtain ⟨next, nextKnown, _⟩ := extended operation.index node known
  exact hasOperation_iff.mpr ⟨next, nextKnown⟩

/-- No dependence is lost. -/
theorem Extends.containsDependence (extended : problem.Extends changed) {dependence : Dependence}
    (contained : problem.containsDependence dependence) :
    changed.containsDependence dependence := by
  cases dependence with
  | data source result destination slot =>
    obtain ⟨node, known, here⟩ := containsDependence_data_iff.mp contained
    obtain ⟨next, nextKnown, operandsKept, _⟩ := extended destination.index node known
    exact containsDependence_data_iff.mpr ⟨next, nextKnown, operandsKept slot _ here⟩
  | auxiliary source destination =>
    obtain ⟨node, known, member⟩ := containsDependence_auxiliary_iff.mp contained
    obtain ⟨next, nextKnown, _, sourcesKept⟩ := extended destination.index node known
    exact containsDependence_auxiliary_iff.mpr ⟨next, nextKnown, sourcesKept member⟩

/-- Whatever the tables of a well-formed problem speak of is still there. -/
theorem WellFormed.extend (wellFormed : problem.WellFormed) (extended : problem.Extends changed)
    (nodes : ∀ node ∈ changed.operations, Consistent changed.resultCounts node)
    (sameTypes : changed.operatorTypes = problem.operatorTypes)
    (sameLinks : changed.links = problem.links)
    (sameStartTimes : changed.startTimes = problem.startTimes)
    (sameDistances : changed.distances = problem.distances) : changed.WellFormed where
  operatorTypes := sameTypes ▸ wellFormed.operatorTypes
  nodes := nodes
  links := by
    intro operation found
    rw [link, sameLinks] at found
    exact extended.hasOperation (wellFormed.links operation found)
  startTimes := by
    intro operation found
    rw [startTime, sameStartTimes] at found
    exact extended.hasOperation (wellFormed.startTimes operation found)
  distances := by
    intro dependence found
    rw [distance, sameDistances] at found
    exact extended.containsDependence (wellFormed.distances dependence found)

/-! ## Changing the graph -/

theorem nodup_append_singleton {Element : Type} {elements : List Element} {last : Element}
    (distinct : elements.Nodup) (new : last ∉ elements) : (elements ++ [last]).Nodup := by
  rw [List.nodup_append]
  refine ⟨distinct, List.pairwise_singleton _ _, ?_⟩
  rintro element member other single rfl
  exact new (List.mem_singleton.mp single ▸ member)

theorem resultCounts_setNode {operation : OperationId} {node next : Operation}
    (known : problem.operations[operation.index]? = some node)
    (results : next.results = node.results) :
    (problem.setNode operation next).resultCounts = problem.resultCounts := by
  obtain ⟨inside, rfl⟩ := List.getElem?_eq_some_iff.mp known
  simp only [resultCounts, setNode, List.map_set, results]
  apply List.ext_getElem?
  intro index
  -- at the replaced node the number of results is the same, elsewhere nothing changes
  by_cases same : operation.index = index
  · subst same
    rw [List.getElem?_set_self (by rw [List.length_map]; exact inside), List.getElem?_map,
      List.getElem?_eq_getElem inside, Option.map_some]
  · rw [List.getElem?_set_ne same]

/-- Nothing is lost when a node is replaced by one with more operands and sources. -/
theorem extends_setNode {operation : OperationId} {node next : Operation}
    (known : problem.operations[operation.index]? = some node)
    (operandsKept : ∀ (slot : Nat) (operand : Operand), node.operands[slot]? = some operand →
      next.operands[slot]? = some operand)
    (sourcesKept : node.auxiliarySources ⊆ next.auxiliarySources) :
    problem.Extends (problem.setNode operation next) := by
  intro index old oldKnown
  by_cases same : operation.index = index
  · subst same
    cases known.symm.trans oldKnown
    have inside := (List.getElem?_eq_some_iff.mp known).1
    exact ⟨next, List.getElem?_set_self inside, operandsKept, sourcesKept⟩
  · have elsewhere : (problem.setNode operation next).operations[index]? = some old :=
      (List.getElem?_set_ne same).trans oldKnown
    exact ⟨old, elsewhere, fun _ _ here => here, List.Subset.refl _⟩

/-- A source that is added to a node is there. -/
theorem containsDependence_added {source destination : OperationId} {node : Operation}
    (known : problem.operations[destination.index]? = some node) :
    (problem.setNode destination
      { node with auxiliarySources := node.auxiliarySources ++ [source] }).containsDependence
        (.auxiliary source destination) := by
  have inside := (List.getElem?_eq_some_iff.mp known).1
  refine containsDependence_auxiliary_iff.mpr ⟨_, List.getElem?_set_self inside, ?_⟩
  exact List.mem_append_right _ (List.mem_singleton_self source)

theorem WellFormed.setNode (wellFormed : problem.WellFormed) {operation : OperationId}
    {node next : Operation} (known : problem.operations[operation.index]? = some node)
    (results : next.results = node.results) (consistent : Consistent problem.resultCounts next)
    (extended : problem.Extends (problem.setNode operation next)) :
    (problem.setNode operation next).WellFormed := by
  refine wellFormed.extend extended ?_ rfl rfl rfl rfl
  intro other member
  rw [resultCounts_setNode known results]
  rcases List.mem_or_eq_of_mem_set member with member | rfl
  · exact wellFormed.nodes other member
  · exact consistent

theorem checkOperand_eq_ok_iff {operand : Operand} :
    problem.checkOperand operand = .ok () ↔
      ∃ count, problem.resultCounts[operand.source.index]? = some count ∧
        operand.result < count := by
  simp only [checkOperand, bind_eq_ok_iff, operation_eq_ok_iff, resultCounts, List.getElem?_map]
  constructor
  · rintro ⟨node, known, checked⟩
    split at checked
    · rename_i below
      exact ⟨node.results, by rw [known, Option.map_some], below⟩
    · cases checked
  · rintro ⟨count, found, below⟩
    obtain ⟨node, known, rfl⟩ := Option.map_eq_some_iff.mp found
    exact ⟨node, known, if_pos below⟩

/-- Operands are set on an operation that has none, and exist. -/
theorem setOperands_eq_ok_iff {operation : OperationId} {operands : List Operand} :
    problem.setOperands operation operands = .ok changed ↔
      (∀ operand ∈ operands, ∃ count, problem.resultCounts[operand.source.index]? = some count ∧
        operand.result < count) ∧
      ∃ node, problem.operations[operation.index]? = some node ∧ node.connected = false ∧
        changed = problem.setNode operation { node with operands, connected := true } := by
  simp only [setOperands, bind_eq_ok_iff, exists_unit, forM_eq_ok_iff, checkOperand_eq_ok_iff,
    operation_eq_ok_iff]
  refine and_congr_right fun _ => exists_congr fun node => and_congr_right fun _ => ?_
  -- operands can only be set once
  cases node.connected with
  | true => simp
  | false => simp [eq_comm]

theorem WellFormed.extends_setOperands (wellFormed : problem.WellFormed) {operation : OperationId}
    {operands : List Operand} (performed : problem.setOperands operation operands = .ok changed) :
    problem.Extends changed := by
  obtain ⟨_, node, known, unconnected, rfl⟩ := setOperands_eq_ok_iff.mp performed
  have before := wellFormed.nodes node (List.mem_of_getElem? known)
  refine extends_setNode known ?_ fun _ member => member
  -- the node had no operands that could be lost
  intro slot operand here
  rw [before.unconnected unconnected] at here
  cases here

theorem WellFormed.setOperands (wellFormed : problem.WellFormed) {operation : OperationId}
    {operands : List Operand} (performed : problem.setOperands operation operands = .ok changed) :
    changed.WellFormed := by
  have extended := wellFormed.extends_setOperands performed
  obtain ⟨exist, node, known, _, rfl⟩ := setOperands_eq_ok_iff.mp performed
  have before := wellFormed.nodes node (List.mem_of_getElem? known)
  exact wellFormed.setNode known rfl ⟨exist, before.sources, before.distinct, nofun⟩ extended

/-- A dependence that is added is there already, or goes from one operation to another. -/
theorem insertDependence_eq_ok_iff {dependence : Dependence} :
    problem.insertDependence dependence = .ok changed ↔
      match dependence with
      | .data .. => problem.containsDependence dependence ∧ changed = problem
      | .auxiliary source destination =>
        problem.hasOperation source ∧
          ∃ node, problem.operations[destination.index]? = some node ∧
            source ∉ node.auxiliarySources ∧
            changed = problem.setNode destination
              { node with auxiliarySources := node.auxiliarySources ++ [source] } := by
  cases dependence with
  | data source result destination slot =>
    simp only [insertDependence, bind_eq_ok_iff, containsDependence]
    constructor
    · rintro ⟨existing, found, same⟩
      rw [found]
      split at same
      · rename_i equal
        cases same
        exact ⟨decide_eq_true equal, rfl⟩
      · cases same
    · rintro ⟨contained, rfl⟩
      split at contained
      · rename_i existing found
        exact ⟨existing, found, if_pos (of_decide_eq_true contained)⟩
      · cases contained
  | auxiliary source destination =>
    simp only [insertDependence, bind_eq_ok_iff, operation_eq_ok_iff, hasOperation_iff]
    rw [exists_and_right]
    refine and_congr_right fun _ => exists_congr fun node => and_congr_right fun _ => ?_
    by_cases old : source ∈ node.auxiliarySources
    · simp [old]
    · simp [old, eq_comm]

/-- The dependence that feeds an operand is there already. -/
theorem insertDependence_of_dataDependence {operation : OperationId} {slot : Nat}
    {dependence : Dependence} (found : problem.dataDependence operation slot = .ok dependence) :
    problem.insertDependence dependence = .ok problem := by
  have contained := containsDependence_of_dataDependence found
  obtain ⟨_, _, _, _, rfl⟩ := dataDependence_eq_ok_iff.mp found
  exact insertDependence_eq_ok_iff.mpr ⟨contained, rfl⟩

theorem containsDependence_of_insertDependence {dependence : Dependence}
    (performed : problem.insertDependence dependence = .ok changed) :
    changed.containsDependence dependence := by
  cases dependence with
  | data source result destination slot =>
    obtain ⟨contained, rfl⟩ := insertDependence_eq_ok_iff.mp performed
    exact contained
  | auxiliary source destination =>
    obtain ⟨_, node, known, _, rfl⟩ := insertDependence_eq_ok_iff.mp performed
    exact containsDependence_added known

/-- Between registered operations, all that stands against a new dependence is the same dependence. -/
theorem failsOnly_insertDependence {source destination : OperationId}
    (sourceRegistered : problem.hasOperation source)
    (destinationRegistered : problem.hasOperation destination) :
    FailsOnly (fun error => error = .duplicateDependence source destination)
      (problem.insertDependence (.auxiliary source destination)) := by
  obtain ⟨sourceNode, sourceKnown⟩ := hasOperation_iff.mp sourceRegistered
  obtain ⟨node, known⟩ := hasOperation_iff.mp destinationRegistered
  intro error fails
  simp only [insertDependence, operation_eq_ok_iff.mpr sourceKnown,
    operation_eq_ok_iff.mpr known, ok_bind] at fails
  split at fails
  · cases fails
    rfl
  · cases fails

theorem extends_insertDependence {dependence : Dependence}
    (performed : problem.insertDependence dependence = .ok changed) : problem.Extends changed := by
  cases dependence with
  | data source result destination slot =>
    obtain ⟨_, rfl⟩ := insertDependence_eq_ok_iff.mp performed
    exact extends_of_operations_eq rfl
  | auxiliary source destination =>
    obtain ⟨_, node, known, _, rfl⟩ := insertDependence_eq_ok_iff.mp performed
    exact extends_setNode known (fun _ _ here => here) (List.subset_append_left _ _)

theorem WellFormed.insertDependence (wellFormed : problem.WellFormed) {dependence : Dependence}
    (performed : problem.insertDependence dependence = .ok changed) : changed.WellFormed := by
  have extended := extends_insertDependence performed
  cases dependence with
  | data source result destination slot =>
    obtain ⟨_, rfl⟩ := insertDependence_eq_ok_iff.mp performed
    exact wellFormed
  | auxiliary source destination =>
    obtain ⟨registered, node, known, new, rfl⟩ := insertDependence_eq_ok_iff.mp performed
    have before := wellFormed.nodes node (List.mem_of_getElem? known)
    have inside : source.index < problem.resultCounts.length := by
      rw [resultCounts, List.length_map]
      exact of_decide_eq_true registered
    refine wellFormed.setNode known rfl ⟨before.operands, ?_, ?_, before.unconnected⟩ extended
    · intro other member
      rcases List.mem_append.mp member with member | member
      · exact before.sources other member
      · rw [List.mem_singleton.mp member]
        exact inside
    · exact nodup_append_singleton before.distinct new

/-- What exists among some operations exists among more operations. -/
theorem Consistent.append {counts : List Nat} {node : Operation} (consistent : Consistent counts node)
    (more : List Nat) : Consistent (counts ++ more) node where
  operands := by
    intro operand used
    obtain ⟨count, found, below⟩ := consistent.operands operand used
    refine ⟨count, ?_, below⟩
    rw [List.getElem?_append_left (List.getElem?_eq_some_iff.mp found).1, found]
  sources := by
    intro source used
    rw [List.length_append]
    exact Nat.lt_of_lt_of_le (consistent.sources source used) (Nat.le_add_right _ _)
  distinct := consistent.distinct
  unconnected := consistent.unconnected

theorem extends_insertOperation (results : Nat) :
    problem.Extends (problem.insertOperation results).2 := by
  intro index node known
  have inside := (List.getElem?_eq_some_iff.mp known).1
  have kept : (problem.insertOperation results).2.operations[index]? = some node :=
    (List.getElem?_append_left inside).trans known
  exact ⟨node, kept, fun _ _ here => here, List.Subset.refl _⟩

theorem WellFormed.insertOperation (wellFormed : problem.WellFormed) (results : Nat) :
    (problem.insertOperation results).2.WellFormed := by
  have counts : (problem.insertOperation results).2.resultCounts =
      problem.resultCounts ++ [results] := by
    simp [resultCounts, Problem.insertOperation]
  refine wellFormed.extend (extends_insertOperation results) ?_ rfl rfl rfl rfl
  intro node member
  rw [counts]
  rcases List.mem_append.mp member with member | member
  · exact (wellFormed.nodes node member).append [results]
  · -- a new operation has neither operands nor sources
    rw [List.mem_singleton.mp member]
    exact ⟨nofun, nofun, .nil, fun _ => rfl⟩

theorem WellFormed.insertOperatorType (wellFormed : problem.WellFormed)
    (operatorType : OperatorType) : (problem.insertOperatorType operatorType).2.WellFormed := by
  unfold Problem.insertOperatorType
  split
  · exact wellFormed
  · rename_i unknown
    refine ⟨?_, wellFormed.nodes, wellFormed.links, wellFormed.startTimes, wellFormed.distances⟩
    simp only [hasOperatorType, decide_eq_true_eq] at unknown
    exact nodup_append_singleton wellFormed.operatorTypes unknown

/-! ## Changing the tables -/

/-- A value is only given to a key that may have one. -/
theorem isSome_of_set {Key Value : Type} [DecidableEq Key] {table : Assignment Key Value}
    {holds : Key → Prop} (before : ∀ key, (table.get? key).isSome → holds key) {key : Key}
    (allowed : holds key) (value : Value) :
    ∀ other, ((table.set key value).get? other).isSome → holds other := by
  intro other found
  rw [Assignment.get?_set] at found
  split at found
  · rename_i same
    exact same ▸ allowed
  · exact before other found

theorem WellFormed.setLink (wellFormed : problem.WellFormed) {operation : OperationId}
    {operatorType : OperatorType} (performed : problem.setLink operation operatorType = .ok changed) :
    changed.WellFormed := by
  simp only [Problem.setLink, bind_eq_ok_iff, operation_eq_ok_iff, Except.ok.injEq] at performed
  obtain ⟨node, known, rfl⟩ := performed
  exact ⟨wellFormed.operatorTypes, wellFormed.nodes,
    isSome_of_set wellFormed.links (hasOperation_iff.mpr ⟨node, known⟩) operatorType,
    wellFormed.startTimes, wellFormed.distances⟩

theorem WellFormed.setStartTime (wellFormed : problem.WellFormed) {operation : OperationId}
    {value : UInt32} (performed : problem.setStartTime operation value = .ok changed) :
    changed.WellFormed := by
  simp only [Problem.setStartTime, bind_eq_ok_iff, operation_eq_ok_iff, Except.ok.injEq]
    at performed
  obtain ⟨node, known, rfl⟩ := performed
  exact ⟨wellFormed.operatorTypes, wellFormed.nodes, wellFormed.links,
    isSome_of_set wellFormed.startTimes (hasOperation_iff.mpr ⟨node, known⟩) value,
    wellFormed.distances⟩

theorem WellFormed.setDistance (wellFormed : problem.WellFormed) {dependence : Dependence}
    {value : UInt32} (performed : problem.setDistance dependence value = .ok changed) :
    changed.WellFormed := by
  unfold Problem.setDistance at performed
  split at performed
  · rename_i contained
    cases performed
    exact ⟨wellFormed.operatorTypes, wellFormed.nodes, wellFormed.links, wellFormed.startTimes,
      isSome_of_set wellFormed.distances contained value⟩
  · cases performed

/-! ## Any sequence of calls -/

theorem WellFormed.perform (wellFormed : problem.WellFormed) {call : ProblemCall}
    (performed : problem.perform call = .ok changed) : changed.WellFormed := by
  cases call with
  | insertOperatorType operatorType =>
    cases performed
    exact wellFormed.insertOperatorType operatorType
  | insertOperation results =>
    cases performed
    exact wellFormed.insertOperation results
  | setOperands operation operands => exact wellFormed.setOperands performed
  | insertDependence dependence => exact wellFormed.insertDependence performed
  | setLink operation operatorType => exact wellFormed.setLink performed
  | setStartTime operation value => exact wellFormed.setStartTime performed
  | setDistance dependence value => exact wellFormed.setDistance performed
  | setInitiationInterval value | setLatency operatorType value | setLimit operatorType value =>
    cases performed
    exact ⟨wellFormed.operatorTypes, wellFormed.nodes, wellFormed.links, wellFormed.startTimes,
      wellFormed.distances⟩

/-- A call adds to the operations and their dependences, or leaves them as they are. -/
theorem WellFormed.extends_perform (wellFormed : problem.WellFormed) {call : ProblemCall}
    (performed : problem.perform call = .ok changed) : problem.Extends changed := by
  cases call with
  | insertOperatorType operatorType =>
    cases performed
    refine extends_of_operations_eq ?_
    unfold Problem.insertOperatorType
    split <;> rfl
  | insertOperation results =>
    cases performed
    exact extends_insertOperation results
  | setOperands operation operands => exact wellFormed.extends_setOperands performed
  | insertDependence dependence => exact extends_insertDependence performed
  | setLink operation operatorType =>
    obtain ⟨_, _, same⟩ := bind_eq_ok_iff.mp performed
    cases same
    exact extends_of_operations_eq rfl
  | setStartTime operation value =>
    obtain ⟨_, _, same⟩ := bind_eq_ok_iff.mp performed
    cases same
    exact extends_of_operations_eq rfl
  | setDistance dependence value =>
    simp only [Problem.perform, Problem.setDistance] at performed
    split at performed
    · cases performed
      exact extends_of_operations_eq rfl
    · cases performed
  | setInitiationInterval value | setLatency operatorType value | setLimit operatorType value =>
    cases performed
    exact extends_of_operations_eq rfl

theorem WellFormed.after (wellFormed : problem.WellFormed) (call : ProblemCall) :
    (problem.after call).WellFormed := by
  unfold Problem.after
  split
  · rename_i performed
    exact wellFormed.perform performed
  · exact wellFormed

/-- Every sequence of calls leads to a well-formed problem. -/
theorem Reachable.wellFormed (reachable : problem.Reachable) : problem.WellFormed := by
  obtain ⟨instanceName, problemName, calls, rfl⟩ := reachable
  have start := wellFormed_empty instanceName problemName
  generalize empty instanceName problemName = first at start
  -- every call keeps the invariant, from whatever problem it is made on
  induction calls generalizing first with
  | nil => exact start
  | cons call calls inductionHypothesis => exact inductionHypothesis _ (start.after call)

end Problem

end StaticScheduling
