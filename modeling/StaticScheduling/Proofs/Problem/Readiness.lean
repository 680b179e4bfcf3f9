import StaticScheduling.Problem.Check
import StaticScheduling.Proofs.Problem.Cycles
import StaticScheduling.Proofs.Problem.Reachable

/-! # What is ready to be scheduled

A check succeeds exactly if every operation is linked to a registered operator
type with a latency and no walk along dependences comes back to where it started
within one iteration.  Where it fails it names an operation that is at fault.
-/

namespace StaticScheduling

namespace Problem

open Relation (TransGen)

variable {problem : Problem}

/-! ## The dependences of a problem -/

theorem mem_dependences_iff {operation : OperationId} {dependence : Dependence} :
    dependence ∈ problem.dependences operation ↔
      problem.containsDependence dependence ∧ dependence.destination = operation := by
  unfold dependences
  cases known : problem.operations[operation.index]? with
  | none =>
    constructor
    · nofun
    · rintro ⟨contained, rfl⟩
      obtain ⟨node, found⟩ := hasOperation_iff.mp (hasOperation_destination contained)
      cases known.symm.trans found
  | some node =>
    simp only [List.mem_append, List.mem_mapIdx, List.mem_map]
    constructor
    · rintro (⟨slot, inside, rfl⟩ | ⟨source, member, rfl⟩)
      · exact ⟨containsDependence_data_iff.mpr ⟨node, known, List.getElem?_eq_getElem inside⟩, rfl⟩
      · exact ⟨containsDependence_auxiliary_iff.mpr ⟨node, known, member⟩, rfl⟩
    · rintro ⟨contained, rfl⟩
      cases dependence with
      | data source result destination slot =>
        obtain ⟨_, found, here⟩ := containsDependence_data_iff.mp contained
        cases known.symm.trans found
        obtain ⟨inside, here⟩ := List.getElem?_eq_some_iff.mp here
        exact .inl ⟨slot, inside, by rw [here]; rfl⟩
      | auxiliary source destination =>
        obtain ⟨_, found, member⟩ := containsDependence_auxiliary_iff.mp contained
        cases known.symm.trans found
        exact .inr ⟨source, member, rfl⟩

theorem mem_allDependences_iff {dependence : Dependence} :
    dependence ∈ problem.allDependences ↔ problem.containsDependence dependence := by
  simp only [allDependences, List.mem_flatMap, mem_dependences_iff, mem_operationIds]
  constructor
  · rintro ⟨_, _, contained, _⟩
    exact contained
  · intro contained
    exact ⟨_, hasOperation_destination contained, contained, rfl⟩

/-- A sequence of dependences, each of which starts where the one before it ends. -/
inductive Walk (problem : Problem) : OperationId → List Dependence → OperationId → Prop
  | nil (operation : OperationId) : Walk problem operation [] operation
  | cons {dependence : Dependence} {rest : List Dependence} {finish : OperationId} :
    problem.containsDependence dependence → Walk problem dependence.destination rest finish →
      Walk problem dependence.source (dependence :: rest) finish

/-- An operation to which a walk comes back over dependences none of which has a positive
distance. -/
def OnImmediateCycle (problem : Problem) (operation : OperationId) : Prop :=
  ∃ walk, walk ≠ [] ∧ problem.Walk operation walk operation ∧
    ∀ dependence ∈ walk, problem.distance dependence = none ∨ problem.distance dependence = some 0

theorem isImmediate_iff {dependence : Dependence} :
    problem.isImmediate dependence = true ↔
      problem.distance dependence = none ∨ problem.distance dependence = some 0 := by
  unfold isImmediate
  cases problem.distance dependence <;> simp

/-- The graph in which cycles are looked for. -/
def immediateGraph (problem : Problem) : Digraph Dependence :=
  problem.dependenceGraph.restrict problem.isImmediate

theorem adjacent_immediateGraph_iff {source target : Nat} :
    problem.immediateGraph.Adjacent source target ↔
      ∃ dependence, problem.containsDependence dependence ∧ problem.isImmediate dependence ∧
        dependence.source.index = source ∧ dependence.destination.index = target := by
  simp only [Digraph.Adjacent, immediateGraph, Digraph.restrict, dependenceGraph, List.mem_filter,
    List.mem_map, mem_allDependences_iff, and_assoc]
  constructor
  · rintro ⟨_, ⟨dependence, contained, rfl⟩, immediate, ends⟩
    exact ⟨dependence, contained, immediate, ends⟩
  · rintro ⟨dependence, contained, immediate, ends⟩
    exact ⟨_, ⟨dependence, contained, rfl⟩, immediate, ends⟩

theorem WellFormed.bounded_dependenceGraph (wellFormed : problem.WellFormed) :
    problem.dependenceGraph.Bounded := by
  intro edge member
  obtain ⟨dependence, present, rfl⟩ := List.mem_map.mp member
  have contained := mem_allDependences_iff.mp present
  exact ⟨of_decide_eq_true (wellFormed.hasOperation_source contained),
    of_decide_eq_true (hasOperation_destination contained)⟩

theorem WellFormed.bounded_immediateGraph (wellFormed : problem.WellFormed) :
    problem.immediateGraph.Bounded :=
  fun edge member => wellFormed.bounded_dependenceGraph edge (List.mem_filter.mp member).1

theorem Walk.leads {start finish : OperationId} {walk : List Dependence}
    (walks : problem.Walk start walk finish)
    (immediate : ∀ dependence ∈ walk, problem.isImmediate dependence) :
    problem.immediateGraph.Leads start.index finish.index := by
  induction walks with
  | nil => exact .refl
  | cons contained _ inductionHypothesis =>
    obtain ⟨here, rest⟩ := List.forall_mem_cons.mp immediate
    exact .head (adjacent_immediateGraph_iff.mpr ⟨_, contained, here, rfl, rfl⟩)
      (inductionHypothesis rest)

theorem exists_walk_of_transGen {start finish : Nat}
    (leads : TransGen problem.immediateGraph.Adjacent start finish) :
    ∃ walk, walk ≠ [] ∧ problem.Walk ⟨start⟩ walk ⟨finish⟩ ∧
      ∀ dependence ∈ walk, problem.isImmediate dependence := by
  -- the walk grows at its front with every edge
  induction leads using TransGen.head_induction_on with
  | single adjacent =>
    obtain ⟨dependence, contained, immediate, rfl, rfl⟩ := adjacent_immediateGraph_iff.mp adjacent
    exact ⟨[dependence], List.cons_ne_nil _ _, .cons contained (.nil _),
      List.forall_mem_singleton.mpr immediate⟩
  | head adjacent _ inductionHypothesis =>
    obtain ⟨dependence, contained, immediate, rfl, rfl⟩ := adjacent_immediateGraph_iff.mp adjacent
    obtain ⟨walk, _, walks, others⟩ := inductionHypothesis
    exact ⟨dependence :: walk, List.cons_ne_nil _ _, .cons contained walks,
      List.forall_mem_cons.mpr ⟨immediate, others⟩⟩

/-- Cycles of the graph are closed walks of the problem. -/
theorem onCycle_immediateGraph_iff {operation : OperationId} :
    problem.immediateGraph.OnCycle operation.index ↔ problem.OnImmediateCycle operation := by
  simp only [OnImmediateCycle, ← isImmediate_iff]
  constructor
  · exact exists_walk_of_transGen
  · rintro ⟨walk, nonempty, walks, immediate⟩
    cases walks with
    | nil => exact absurd rfl nonempty
    | cons contained rest =>
      obtain ⟨here, others⟩ := List.forall_mem_cons.mp immediate
      exact TransGen.head' (adjacent_immediateGraph_iff.mpr ⟨_, contained, here, rfl, rfl⟩)
        (rest.leads others)

/-! ## Links -/

/-- An operation that is linked to a registered operator type with a latency. -/
def Equipped (problem : Problem) (operation : OperationId) : Prop :=
  ∃ operatorType, problem.link operation = some operatorType ∧
    operatorType ∈ problem.operatorTypes ∧ (problem.latency operatorType).isSome

theorem checkLink_eq_ok_iff {operation : OperationId} :
    problem.checkLink operation = .ok () ↔ problem.Equipped operation := by
  unfold checkLink Equipped
  cases problem.link operation with
  | none => simp
  | some operatorType =>
    by_cases registered : operatorType ∈ problem.operatorTypes
    · simp [hasOperatorType, registered, Option.isSome_iff_ne_none]
    · simp [hasOperatorType, registered]

/-- How an error describes what is wrong with the link of an operation. -/
def LinkFault (problem : Problem) (operation : OperationId) : ProblemError → Prop
  | .unlinkedOperation unlinked => unlinked = operation ∧ problem.link operation = none
  | .unregisteredOperatorType linked operatorType =>
    linked = operation ∧ problem.link operation = some operatorType ∧
      operatorType ∉ problem.operatorTypes
  | .missingLatency operatorType =>
    problem.link operation = some operatorType ∧ operatorType ∈ problem.operatorTypes ∧
      problem.latency operatorType = none
  | _ => False

theorem linkFault_of_checkLink {operation : OperationId} {error : ProblemError}
    (fails : problem.checkLink operation = .error error) : problem.LinkFault operation error := by
  unfold checkLink at fails
  cases linked : problem.link operation with
  | none =>
    rw [linked] at fails
    cases fails
    exact ⟨rfl, linked⟩
  | some operatorType =>
    rw [linked] at fails
    simp only [hasOperatorType, decide_eq_true_eq] at fails
    split at fails
    · rename_i registered
      cases absent : problem.latency operatorType with
      | none =>
        rw [absent] at fails
        cases fails
        exact ⟨linked, registered, absent⟩
      | some value =>
        rw [absent] at fails
        cases fails
    · rename_i unknown
      cases fails
      exact ⟨rfl, linked, unknown⟩

/-! ## The check -/

/-- The first operation, by its position, that is not equipped. -/
structure FirstUnequipped (problem : Problem) (operation : OperationId) : Prop where
  registered : problem.hasOperation operation
  unequipped : ¬ problem.Equipped operation
  first : ∀ earlier : OperationId, earlier.index < operation.index → problem.Equipped earlier

theorem forM_checkLink_eq_ok_iff :
    problem.operationIds.forM problem.checkLink = .ok () ↔
      ∀ operation, problem.hasOperation operation → problem.Equipped operation := by
  simp only [forM_eq_ok_iff, checkLink_eq_ok_iff, mem_operationIds]

/-- Operations are looked at in order, so the first one that is not equipped is reported. -/
theorem firstUnequipped_of_forM_checkLink {error : ProblemError}
    (fails : problem.operationIds.forM problem.checkLink = .error error) :
    ∃ operation, problem.FirstUnequipped operation ∧ problem.LinkFault operation error := by
  obtain ⟨before, operation, after, split, equipped, here⟩ := forM_eq_error_iff.mp fails
  have unequipped : ¬ problem.Equipped operation := by
    intro equippedHere
    rw [checkLink_eq_ok_iff.mpr equippedHere] at here
    cases here
  have registered : operation ∈ problem.operationIds := by
    rw [split]
    exact List.mem_append_right _ List.mem_cons_self
  refine ⟨operation, ⟨mem_operationIds.mp registered, unequipped, ?_⟩,
    linkFault_of_checkLink here⟩
  intro earlier smaller
  have member : earlier ∈ problem.operationIds := by
    rw [mem_operationIds, hasOperation, decide_eq_true_eq]
    exact Nat.lt_trans smaller (of_decide_eq_true (mem_operationIds.mp registered))
  have increasing := problem.increasing_operationIds
  rw [split] at member increasing
  rcases List.mem_append.mp member with member | member
  · exact checkLink_eq_ok_iff.mp (equipped earlier member)
  · -- whatever comes behind the operation has a larger index
    exfalso
    rcases List.mem_cons.mp member with rfl | member
    · exact Nat.lt_irrefl _ smaller
    · have larger := (List.pairwise_cons.mp (List.pairwise_append.mp increasing).2.1).1 earlier member
      exact Nat.lt_asymm smaller larger

/-- A check complains of an unregistered operator type only where an operation is linked to one. -/
theorem link_of_check_unregistered {operation : OperationId} {operatorType : OperatorType}
    (fails : problem.check = .error (.unregisteredOperatorType operation operatorType)) :
    problem.link operation = some operatorType ∧ ¬ problem.hasOperatorType operatorType := by
  rw [check, bind_eq_error_iff] at fails
  rcases fails with fails | ⟨_, _, fails⟩
  · obtain ⟨_, _, rfl, linked, unknown⟩ := firstUnequipped_of_forM_checkLink fails
    rw [hasOperatorType, decide_eq_true_eq]
    exact ⟨linked, unknown⟩
  · -- what is found in the graph is a cycle
    split at fails <;> cases fails

/-- A problem is ready to be scheduled exactly if every operation is linked to a registered operator
type with a latency and no non-empty walk along dependences without a positive distance is closed. -/
theorem check_eq_ok_iff (reachable : problem.Reachable) :
    problem.check = .ok () ↔
      (∀ operation, problem.hasOperation operation → problem.Equipped operation) ∧
        ∀ operation, ¬ problem.OnImmediateCycle operation := by
  have bounded := reachable.wellFormed.bounded_immediateGraph
  rw [check, bind_eq_ok_iff, exists_unit, forM_checkLink_eq_ok_iff, ← immediateGraph]
  refine and_congr_right fun _ => ?_
  cases found : problem.immediateGraph.faulty? with
  | none =>
    refine iff_of_true rfl fun operation cycle => ?_
    exact Digraph.not_onCycle_of_faulty?_eq_none bounded found operation.index
      (onCycle_immediateGraph_iff.mpr cycle)
  | some node =>
    refine iff_of_false nofun fun acyclic => ?_
    have cycle : problem.immediateGraph.OnCycle (OperationId.mk node).index :=
      Digraph.onCycle_of_faulty? bounded found
    exact acyclic ⟨node⟩ (onCycle_immediateGraph_iff.mp cycle)

/-- Four operations in two cycles through the second and the third one.  One of them spans an
iteration, the other one does if the given distance is positive.  The first operation leads to the
cycles, the last one is reached from them. -/
def knotted (distance : UInt32) : Problem :=
  [ProblemCall.insertOperatorType ⟨"add"⟩, .setLatency ⟨"add"⟩ 1, .insertOperation 1,
    .insertOperation 1, .insertOperation 2, .insertOperation 0, .setOperands ⟨1⟩ [⟨⟨0⟩, 0⟩, ⟨⟨2⟩, 1⟩],
    .setOperands ⟨2⟩ [⟨⟨1⟩, 0⟩, ⟨⟨1⟩, 0⟩], .setOperands ⟨3⟩ [⟨⟨2⟩, 0⟩],
    .insertDependence (.auxiliary ⟨2⟩ ⟨1⟩), .setDistance (.auxiliary ⟨2⟩ ⟨1⟩) 2,
    .setDistance (.data ⟨2⟩ 1 ⟨1⟩ 1) distance, .setLink ⟨0⟩ ⟨"add"⟩, .setLink ⟨1⟩ ⟨"add"⟩,
    .setLink ⟨2⟩ ⟨"add"⟩, .setLink ⟨3⟩ ⟨"add"⟩].foldl after (empty "knotted" "CyclicProblem")

theorem reachable_knotted (distance : UInt32) : (knotted distance).Reachable :=
  ⟨"knotted", "CyclicProblem", _, rfl⟩

theorem check_eq_ok_iff_knotted :
    (knotted 1).Reachable ∧ (knotted 1).check = .ok () ∧
      (∀ operation, ¬ (knotted 1).OnImmediateCycle operation) ∧
      (knotted 0).Reachable ∧ (knotted 0).OnImmediateCycle ⟨1⟩ ∧ (knotted 0).check ≠ .ok () := by
  have graph : (knotted 1).immediateGraph = ⟨4, [⟨0, 1, .data ⟨0⟩ 0 ⟨1⟩ 0⟩,
      ⟨1, 2, .data ⟨1⟩ 0 ⟨2⟩ 0⟩, ⟨1, 2, .data ⟨1⟩ 0 ⟨2⟩ 1⟩, ⟨2, 3, .data ⟨2⟩ 0 ⟨3⟩ 0⟩]⟩ := rfl
  have acyclic : (knotted 1).immediateGraph.faulty? = none := by
    rw [graph]
    cbv
  have linked : (knotted 1).operationIds.forM (knotted 1).checkLink = .ok () := rfl
  have ready : (knotted 1).check = .ok () := by
    rw [check, linked, ok_bind, ← immediateGraph, acyclic]
  have forth : (knotted 0).containsDependence (.data ⟨1⟩ 0 ⟨2⟩ 1) := rfl
  have back : (knotted 0).containsDependence (.data ⟨2⟩ 1 ⟨1⟩ 1) := rfl
  have cycle : (knotted 0).OnImmediateCycle ⟨1⟩ := by
    refine ⟨_, List.cons_ne_nil _ _, .cons forth (.cons back (.nil _)), ?_⟩
    simp only [List.forall_mem_cons, List.not_mem_nil, false_imp_iff, implies_true, and_true]
    exact ⟨.inl rfl, .inr rfl⟩
  refine ⟨reachable_knotted 1, ready, ((check_eq_ok_iff (reachable_knotted 1)).mp ready).2,
    reachable_knotted 0, cycle, fun succeeds => ?_⟩
  exact ((check_eq_ok_iff (reachable_knotted 0)).mp succeeds).2 ⟨1⟩ cycle

/-- A problem that is at fault in the way an error says: the operation it names lies on a closed walk
without a positive distance while all links are in order, or the error describes the link of the
first operation whose link is not. -/
def Explains (problem : Problem) : ProblemError → Prop
  | .zeroDistanceCycle operation =>
    problem.hasOperation operation ∧ problem.OnImmediateCycle operation ∧
      ∀ other, problem.hasOperation other → problem.Equipped other
  | .unlinkedOperation operation =>
    problem.FirstUnequipped operation ∧ problem.link operation = none
  | .unregisteredOperatorType operation operatorType =>
    problem.FirstUnequipped operation ∧ problem.link operation = some operatorType ∧
      operatorType ∉ problem.operatorTypes
  | .missingLatency operatorType =>
    ∃ operation, problem.FirstUnequipped operation ∧
      problem.link operation = some operatorType ∧ operatorType ∈ problem.operatorTypes ∧
      problem.latency operatorType = none
  | _ => False

/-- Where a check fails, the problem is at fault in the way the error says. -/
theorem explains_check_error (reachable : problem.Reachable) {error : ProblemError}
    (fails : problem.check = .error error) : problem.Explains error := by
  have bounded := reachable.wellFormed.bounded_immediateGraph
  rw [check, bind_eq_error_iff, ← immediateGraph] at fails
  rcases fails with fails | ⟨_, linked, fails⟩
  · obtain ⟨operation, first, fault⟩ := firstUnequipped_of_forM_checkLink fails
    cases error with
    | unlinkedOperation _ | unregisteredOperatorType _ _ =>
      obtain ⟨rfl, fault⟩ := fault
      exact ⟨first, fault⟩
    | missingLatency _ => exact ⟨operation, first, fault⟩
    | _ => exact fault.elim
  · cases found : problem.immediateGraph.faulty? with
    | none =>
      rw [found] at fails
      cases fails
    | some node =>
      rw [found] at fails
      cases fails
      have cycle : problem.immediateGraph.OnCycle (OperationId.mk node).index :=
        Digraph.onCycle_of_faulty? bounded found
      obtain ⟨_, adjacent, _⟩ := TransGen.head'_iff.mp cycle
      exact ⟨decide_eq_true (bounded.source_lt adjacent), onCycle_immediateGraph_iff.mp cycle,
        forM_checkLink_eq_ok_iff.mp linked⟩

/-- A problem whose second operation is linked to an operator type without a latency, and whose third
one is not linked. -/
def unequipped : Problem :=
  [ProblemCall.insertOperatorType ⟨"add"⟩, .insertOperatorType ⟨"mul"⟩, .setLatency ⟨"add"⟩ 1,
    .insertOperation 0, .insertOperation 0, .insertOperation 0, .setLink ⟨0⟩ ⟨"add"⟩,
    .setLink ⟨1⟩ ⟨"mul"⟩].foldl after (empty "unequipped" "Problem")

theorem explains_check_error_knotted :
    (knotted 0).Reachable ∧ (knotted 0).check = .error (.zeroDistanceCycle ⟨2⟩) ∧
      (knotted 0).OnImmediateCycle ⟨2⟩ ∧
      unequipped.Reachable ∧ unequipped.check = .error (.missingLatency ⟨"mul"⟩) ∧
      ∃ operation, unequipped.FirstUnequipped operation ∧
        unequipped.link operation = some ⟨"mul"⟩ := by
  have graph : (knotted 0).immediateGraph = ⟨4, [⟨0, 1, .data ⟨0⟩ 0 ⟨1⟩ 0⟩,
      ⟨2, 1, .data ⟨2⟩ 1 ⟨1⟩ 1⟩, ⟨1, 2, .data ⟨1⟩ 0 ⟨2⟩ 0⟩, ⟨1, 2, .data ⟨1⟩ 0 ⟨2⟩ 1⟩,
      ⟨2, 3, .data ⟨2⟩ 0 ⟨3⟩ 0⟩]⟩ := rfl
  have faulty : (knotted 0).immediateGraph.faulty? = some 2 := by
    rw [graph]
    cbv
  have linked : (knotted 0).operationIds.forM (knotted 0).checkLink = .ok () := rfl
  have fails : (knotted 0).check = .error (.zeroDistanceCycle ⟨2⟩) := by
    rw [check, linked, ok_bind, ← immediateGraph, faulty]
  obtain ⟨_, cycle, _⟩ := explains_check_error (reachable_knotted 0) fails
  have reachable : unequipped.Reachable := ⟨"unequipped", "Problem", _, rfl⟩
  have failsToo : unequipped.check = .error (.missingLatency ⟨"mul"⟩) := rfl
  obtain ⟨operation, first, linked, _⟩ := explains_check_error reachable failsToo
  exact ⟨reachable_knotted 0, fails, cycle, reachable, failsToo, operation, first, linked⟩

end Problem

end StaticScheduling
