import StaticScheduling.Proofs.Saving.Document

/-! # Saving and loading again

The problem loaded from a saved document is the problem that was saved, as far
as it can be observed: the same graph and, for the kinds that were asked for,
the same values.
-/

namespace StaticScheduling

open PropertyKind (encode KeptIf)

namespace Problem

/-- What is left of a problem that is saved and loaded with the given kinds: the graph, in which all
operations count as connected, and the values that the kinds are about. -/
structure KeptUnder (kinds : ProblemKinds) (problem loaded : Problem) : Prop where
  operatorTypes : loaded.operatorTypes = problem.operatorTypes
  operations : loaded.operations = problem.operations.map fun node => { node with connected := true }
  initiationInterval : KeptIf (PropertyKind.initiationInterval ∈ kinds.problem)
    problem.initiationInterval loaded.initiationInterval
  latency : ∀ operatorType ∈ problem.operatorTypes,
    KeptIf (PropertyKind.latency ∈ kinds.operatorType) (problem.latency operatorType)
      (loaded.latency operatorType)
  limit : ∀ operatorType ∈ problem.operatorTypes,
    KeptIf (PropertyKind.limit ∈ kinds.operatorType) (problem.limit operatorType)
      (loaded.limit operatorType)
  link : ∀ operation, problem.hasOperation operation →
    KeptIf (PropertyKind.link ∈ kinds.operation) (problem.link operation) (loaded.link operation)
  startTime : ∀ operation, problem.hasOperation operation →
    KeptIf (PropertyKind.startTime ∈ kinds.operation) (problem.startTime operation)
      (loaded.startTime operation)
  distance : ∀ dependence, problem.containsDependence dependence →
    KeptIf (PropertyKind.distance ∈ kinds.dependence) (problem.distance dependence)
      (loaded.distance dependence)

section Document

variable {problem : Problem} {kinds : ProblemKinds} {names : NameTable}
  {instanceName problemName : String} {supplied : OperationId → Option String}
  (wellFormed : problem.WellFormed) (named : names.Names problem supplied)
  (builtIn : kinds.BuiltIn)

/-- The properties that a saved document gives an operator type. -/
theorem propertiesOf_document (wellFormed : problem.WellFormed) {operatorType : OperatorType}
    (member : operatorType ∈ problem.operatorTypes) :
    Instance.propertiesOf
        (document problem kinds names instanceName problemName).operatorTypes operatorType =
      (encode kinds.operatorType problem operatorType).getD [] := by
  refine Instance.propertiesOf_of_mem ?_ (List.mem_map.mpr ⟨operatorType, member, rfl⟩)
  rw [List.map_map]
  refine List.pairwise_map.mpr (wellFormed.operatorTypes.imp ?_)
  intro first second different same
  exact different (congrArg OperatorType.mk same)

include wellFormed named

/-- The operands and the sources of an operation are found again. -/
theorem connectedNode_document {position : Nat} {node : Operation}
    (known : problem.operations[position]? = some node) :
    (document problem kinds names instanceName problemName).connectedNode
        (declarationOf problem kinds names position node) = { node with connected := true } := by
  have consistent := wellFormed.nodes node (List.mem_of_getElem? known)
  -- names go out and come back: of the operands, then of the sources
  have operands : (node.operands.map (Saving.valueName problem)).filterMap
      (document problem kinds names instanceName problemName).resolveValue? = node.operands := by
    rw [List.filterMap_map]
    refine (List.filterMap_congr ?_).trans List.filterMap_some
    intro operand used
    exact resolveValue?_document (consistent.operands operand used)
  have sources : (node.auxiliarySources.map fun source =>
      (names.get? source).getD "").filterMap
        (document problem kinds names instanceName problemName).resolveOperation? =
          node.auxiliarySources := by
    rw [List.filterMap_map]
    refine (List.filterMap_congr ?_).trans List.filterMap_some
    intro source used
    obtain ⟨name, found⟩ := exists_name named known used
    rw [Function.comp_apply, found, Option.getD_some, resolveOperation?_document named found]
  rw [Instance.connectedNode, sources_declarationOf, sources]
  simp only [declarationOf, operands, List.length_map, List.length_range]

theorem operations_document :
    (document problem kinds names instanceName problemName).meaning.operations =
      problem.operations.map fun node => { node with connected := true } := by
  apply List.ext_getElem?
  intro position
  rw [Instance.getElem?_meaning, getElem?_document, List.getElem?_map]
  cases known : problem.operations[position]? with
  | none => rfl
  | some node => exact congrArg some (connectedNode_document wellFormed named known)

include builtIn

/-- The properties that a saved document gives the dependence that an operand stands for. -/
theorem propertiesAt_document_operand {operand : Operand} {destination : OperationId} {slot : Nat}
    {node : Operation} (known : problem.operations[destination.index]? = some node)
    (here : node.operands[slot]? = some operand) :
    (document problem kinds names instanceName problemName).propertiesAt
        (declarationOf problem kinds names destination.index node)
        (.data operand.source operand.result destination slot) =
      (encode kinds.dependence problem
        (.data operand.source operand.result destination slot)).getD [] := by
  have consistent := wellFormed.nodes node (List.mem_of_getElem? known)
  cases found : encode kinds.dependence problem
      (.data operand.source operand.result destination slot) with
  | some properties =>
    have describes : (document problem kinds names instanceName problemName).dependenceAt?
        destination (declarationOf problem kinds names destination.index node).operands
          (.operand slot) = some (.data operand.source operand.result destination slot) := by
      rw [Instance.dependenceAt?, declarationOf, List.getElem?_map, here, Option.map_some,
        Option.bind_some,
        resolveValue?_document (consistent.operands _ (List.mem_of_getElem? here)),
        Option.map_some]
    have marked : (slot, some properties) ∈
        operandMarks problem kinds destination node.operands.zipIdx :=
      mem_operandMarks.mpr ⟨_, properties, here, found, rfl⟩
    have member : (⟨.operand slot, some properties⟩ : DependenceRecord) ∈
        (declarationOf problem kinds names destination.index node).dependences :=
      List.mem_append_left _ (List.mem_map_of_mem marked)
    exact (connectable_declarationOf wellFormed named builtIn known).propertiesAt_of_mem member
      describes
  | none =>
    -- only a record of this operand could describe the dependence, and it was not written
    refine Instance.propertiesAt_of_forall ?_
    intro record member describes
    rcases List.mem_append.mp member with member | member
    · obtain ⟨mark, marked, rfl⟩ := List.mem_map.mp member
      obtain ⟨other, properties, otherAt, written, _⟩ := mem_operandMarks.mp marked
      obtain ⟨_, _, same⟩ := Option.map_eq_some_iff.mp describes
      have place := (Dependence.data.inj same).2.2.2
      rw [place, here] at otherAt
      cases otherAt
      rw [place] at written
      cases found.symm.trans written
    · obtain ⟨entry, _, index, rfl⟩ := mem_ofSources member
      obtain ⟨_, _, same⟩ := Option.map_eq_some_iff.mp describes
      cases same

/-- The properties that a saved document gives an auxiliary dependence. -/
theorem propertiesAt_document_source {source destination : OperationId} {node : Operation}
    (known : problem.operations[destination.index]? = some node)
    (used : source ∈ node.auxiliarySources) :
    (document problem kinds names instanceName problemName).propertiesAt
        (declarationOf problem kinds names destination.index node)
        (.auxiliary source destination) =
      (encode kinds.dependence problem (.auxiliary source destination)).getD [] := by
  obtain ⟨name, found⟩ := exists_name named known used
  have marked : (name, encode kinds.dependence problem (.auxiliary source destination)) ∈
      sourceMarks problem kinds names destination node.auxiliarySources :=
    List.mem_map.mpr ⟨source, used, by rw [found, Option.getD_some]⟩
  obtain ⟨index, member⟩ := exists_mem_ofSources marked node.operands.length
  have describes : (document problem kinds names instanceName problemName).dependenceAt?
      destination (declarationOf problem kinds names destination.index node).operands
        (.named index name) = some (.auxiliary source destination) := by
    rw [Instance.dependenceAt?, resolveOperation?_document named found, Option.map_some]
  exact (connectable_declarationOf wellFormed named builtIn known).propertiesAt_of_mem
    (List.mem_append_right _ member) describes

theorem propertiesAt_document {dependence : Dependence} {node : Operation}
    (known : problem.operations[dependence.destination.index]? = some node)
    (contained : problem.containsDependence dependence) :
    (document problem kinds names instanceName problemName).propertiesAt
        (declarationOf problem kinds names dependence.destination.index node) dependence =
      (encode kinds.dependence problem dependence).getD [] := by
  cases dependence with
  | data source result destination slot =>
    obtain ⟨other, otherKnown, here⟩ := containsDependence_data_iff.mp contained
    cases known.symm.trans otherKnown
    exact propertiesAt_document_operand wellFormed named builtIn known here
  | auxiliary source destination =>
    obtain ⟨other, otherKnown, used⟩ := containsDependence_auxiliary_iff.mp contained
    cases known.symm.trans otherKnown
    exact propertiesAt_document_source wellFormed named builtIn known used

/-- A saved document means what is kept of the problem. -/
theorem keptUnder_document :
    KeptUnder kinds problem
      (document problem kinds names instanceName problemName).meaning := by
  have declared {operation : OperationId} (registered : problem.hasOperation operation) :
      ∃ node, (document problem kinds names instanceName problemName).operations[
        operation.index]? = some (declarationOf problem kinds names operation.index node) := by
    obtain ⟨node, known⟩ := hasOperation_iff.mp registered
    exact ⟨node, by rw [getElem?_document, known, Option.map_some]⟩
  refine ⟨?_, operations_document wellFormed named, ?_, ?_, ?_, ?_, ?_, ?_⟩
  · exact (List.map_map ..).trans (List.map_id _)
  · exact PropertyKind.initiationInterval_carries.keptIf_last?_encode
      builtIn.singles_initiationInterval problem ()
  · intro operatorType member
    have kept := PropertyKind.latency_carries.keptIf_last?_encode builtIn.singles_latency problem
      operatorType
    rw [← propertiesOf_document wellFormed member] at kept
    exact kept
  · intro operatorType member
    have kept := PropertyKind.limit_carries.keptIf_last?_encode builtIn.singles_limit problem
      operatorType
    rw [← propertiesOf_document wellFormed member] at kept
    exact kept
  · intro operation registered
    obtain ⟨node, here⟩ := declared registered
    rw [Instance.link_meaning here]
    exact PropertyKind.link_carries.keptIf_last?_encode builtIn.singles_link problem operation
  · intro operation registered
    obtain ⟨node, here⟩ := declared registered
    rw [Instance.startTime_meaning here]
    exact PropertyKind.startTime_carries.keptIf_last?_encode builtIn.singles_startTime problem
      operation
  · intro dependence contained
    obtain ⟨node, known⟩ := hasOperation_iff.mp (hasOperation_destination contained)
    have here : (document problem kinds names instanceName problemName).operations[
        dependence.destination.index]? =
          some (declarationOf problem kinds names dependence.destination.index node) := by
      rw [getElem?_document, known, Option.map_some]
    rw [Instance.distance_meaning here,
      propertiesAt_document wellFormed named builtIn known contained]
    exact PropertyKind.distance_carries.keptIf_last?_encode builtIn.singles_distance problem
      dependence

end Document

/-- Loading undoes saving: whatever problem was built and however its operations are named, the
document it is saved as is loaded, and the loaded problem has the given names, the same graph, and
of the values exactly those that the kinds are about. -/
theorem load_save {problem : Problem} (reachable : problem.Reachable) {kinds : ProblemKinds}
    (builtIn : kinds.BuiltIn) {instanceName problemName stem : String}
    {supplied : OperationId → Option String} {saved : Instance}
    (succeeds : problem.save instanceName problemName supplied kinds stem = .ok saved) :
    ∃ loaded, saved.load kinds = .ok loaded ∧ loaded.instanceName = instanceName ∧
      loaded.problemName = problemName ∧ KeptUnder kinds problem loaded := by
  have wellFormed := reachable.wellFormed
  obtain ⟨names, built, rfl⟩ := (save_eq_ok_iff wellFormed).mp succeeds
  have named := NameTable.names_of_build wellFormed built
  exact ⟨_, (Instance.load_eq_ok_iff _ builtIn).mpr
    ⟨loadable_document wellFormed named builtIn, rfl⟩, rfl, rfl,
    keptUnder_document wellFormed named builtIn⟩

/-- A problem with a forward reference, loops, parallel edges, an operation without results and a
link to an operator type that is not registered. -/
def tangled : Problem :=
  [ProblemCall.insertOperatorType ⟨"add"⟩, .insertOperation 2, .insertOperation 0,
    .insertOperation 1, .setOperands ⟨0⟩ [⟨⟨2⟩, 0⟩, ⟨⟨0⟩, 1⟩],
    .setOperands ⟨1⟩ [⟨⟨0⟩, 0⟩, ⟨⟨0⟩, 0⟩], .insertDependence (.auxiliary ⟨2⟩ ⟨1⟩),
    .insertDependence (.auxiliary ⟨1⟩ ⟨1⟩), .insertDependence (.auxiliary ⟨0⟩ ⟨1⟩),
    .setDistance (.data ⟨0⟩ 1 ⟨0⟩ 1) 1, .setDistance (.auxiliary ⟨1⟩ ⟨1⟩) 2,
    .setLink ⟨0⟩ ⟨"add"⟩, .setLink ⟨1⟩ ⟨"missing"⟩, .setStartTime ⟨2⟩ 7, .setLatency ⟨"add"⟩ 3,
    .setInitiationInterval 5].foldl after (empty "tangled" "CyclicProblem")

/-- Names one operation as it could be named without being asked. -/
def tangledName (operation : OperationId) : Option String :=
  if operation.index = 1 then some "Op1" else none

/-- Kinds out of order, some of them twice, one missing. -/
def tangledKinds : ProblemKinds :=
  ⟨[.startTime, .link, .startTime], [.limit, .latency], [.distance, .distance], []⟩

/-- The names in the order in which they are given.  Those that are made up skip the one that was
supplied. -/
def tangledNames : NameTable := ⟨[(⟨1⟩, "Op1"), (⟨2⟩, "Op2"), (⟨0⟩, "Op3")]⟩

theorem build_tangled : NameTable.build tangled tangledName "Op" = .ok tangledNames := by
  let first : NameTable := ⟨[(⟨1⟩, "Op1")]⟩
  have second : first.freshName "Op" ["add", "Op1"] = "Op2" := by
    rw [NameTable.freshName, freshIndex, dif_pos (by decide), freshIndex, dif_neg (by decide)]
    decide
  have third : (first.assign ⟨2⟩ "Op2").freshName "Op" ["add", "Op1"] = "Op3" := by
    rw [NameTable.freshName, freshIndex, dif_pos (by decide), freshIndex, dif_neg (by decide)]
    decide
  -- the second operation is the only one that has sources
  have built : NameTable.build tangled tangledName "Op" =
      .ok ((first.assign ⟨2⟩ (first.freshName "Op" ["add", "Op1"])).assign ⟨0⟩
        ((first.assign ⟨2⟩ (first.freshName "Op" ["add", "Op1"])).freshName "Op" ["add", "Op1"])) :=
    rfl
  rw [built, second, third]
  rfl

/-- What is saved of the tangled problem. -/
def tangledDocument : Instance where
  name := "saved"
  problem := "Problem"
  properties := none
  operatorTypes := [⟨"add", some [.ofNumber "latency" 3]⟩]
  operations := [
    ⟨["0", "1"], some "Op3", ["2", "1"],
      [⟨.operand 1, some [.ofNumber "distance" 1, .ofNumber "distance" 1]⟩],
      some [.ofLink ⟨"add"⟩], []⟩,
    ⟨[], some "Op1", ["0", "0"],
      [⟨.named 2 "Op2", none⟩,
        ⟨.named 3 "Op1", some [.ofNumber "distance" 2, .ofNumber "distance" 2]⟩,
        ⟨.named 4 "Op3", none⟩],
      some [.ofLink ⟨"missing"⟩], []⟩,
    ⟨["2"], some "Op2", [], [],
      some [.ofNumber "start_time" 7, .ofNumber "start_time" 7], []⟩]

theorem save_tangled :
    tangled.save "saved" "Problem" tangledName tangledKinds "Op" = .ok tangledDocument := by
  have reachable : tangled.Reachable := ⟨"tangled", "CyclicProblem", _, rfl⟩
  exact (save_eq_ok_iff reachable.wellFormed).mpr ⟨tangledNames, build_tangled, by decide +kernel⟩

theorem load_save_tangled :
    tangled.save "saved" "Problem" tangledName tangledKinds "Op" = .ok tangledDocument ∧
      ∃ loaded, tangledDocument.load tangledKinds = .ok loaded ∧ loaded.instanceName = "saved" ∧
        loaded.problemName = "Problem" ∧ KeptUnder tangledKinds tangled loaded := by
  have reachable : tangled.Reachable := ⟨"tangled", "CyclicProblem", _, rfl⟩
  have builtIn : tangledKinds.BuiltIn := by
    constructor <;> simp [tangledKinds]
  exact ⟨save_tangled, load_save reachable builtIn save_tangled⟩

end Problem

end StaticScheduling
