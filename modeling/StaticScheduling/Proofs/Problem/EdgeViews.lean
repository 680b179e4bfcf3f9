import Mathlib.Data.List.Indexes
import Mathlib.Data.List.Nodup
import Mathlib.Data.List.FinRange
import StaticScheduling.Proofs.Problem.Readiness

/-! # Views of the edges

Only auxiliary edges are kept, those of data follow from operands.  So edges are
put together anew wherever they are asked for: one by one, by the operation they
end at, by the operation they start at, and as a graph.  Whatever calls were made,
these views show the same edges, each of them once, and the graph has a node at
both ends of each.  An edge can be inserted exactly where it fits into them.
-/

namespace StaticScheduling

/-- The edge of the graph that stands for a dependence. -/
def Dependence.edge (dependence : Dependence) : Edge Dependence :=
  ⟨dependence.source.index, dependence.destination.index, dependence⟩

namespace Problem

variable {problem changed : Problem}

/-! ## Each edge once -/

theorem WellFormed.nodup_dependences (wellFormed : problem.WellFormed) (operation : OperationId) :
    (problem.dependences operation).Nodup := by
  unfold dependences
  cases known : problem.operations[operation.index]? with
  | none => exact .nil
  | some node =>
    have data : (node.operands.mapIdx fun slot operand =>
        Dependence.data operand.source operand.result operation slot).Nodup := by
      -- parallel edges feed different operands
      rw [List.mapIdx_eq_ofFn, List.nodup_ofFn]
      intro first second same
      exact Fin.ext (Dependence.data.inj same).2.2.2
    have auxiliary : (node.auxiliarySources.map fun source =>
        Dependence.auxiliary source operation).Nodup := by
      refine (wellFormed.nodes node (List.mem_of_getElem? known)).distinct.map ?_
      intro first second same
      exact (Dependence.auxiliary.inj same).1
    refine List.nodup_append.mpr ⟨data, auxiliary, ?_⟩
    rintro _ first _ second rfl
    obtain ⟨_, _, rfl⟩ := List.mem_mapIdx.mp first
    obtain ⟨_, _, same⟩ := List.mem_map.mp second
    cases same

theorem nodup_operationIds (problem : Problem) : problem.operationIds.Nodup := by
  refine problem.increasing_operationIds.imp ?_
  rintro operation _ smaller rfl
  exact Nat.lt_irrefl _ smaller

/-- Where every edge is shown at one end of it, none is shown at two operations. -/
theorem nodup_flatMap_operationIds {view : OperationId → List Dependence}
    {endOf : Dependence → OperationId} (distinct : ∀ operation, (view operation).Nodup)
    (shown : ∀ operation, ∀ dependence ∈ view operation, endOf dependence = operation) :
    (problem.operationIds.flatMap view).Nodup := by
  refine List.nodup_flatMap.mpr ⟨fun operation _ => distinct operation, ?_⟩
  refine problem.nodup_operationIds.imp fun {first second} different dependence here there => ?_
  exact different ((shown first dependence here).symm.trans (shown second dependence there))

theorem WellFormed.nodup_allDependences (wellFormed : problem.WellFormed) :
    problem.allDependences.Nodup :=
  nodup_flatMap_operationIds wellFormed.nodup_dependences fun _ _ member =>
    (mem_dependences_iff.mp member).2

theorem mem_outgoing_iff {operation : OperationId} {dependence : Dependence} :
    dependence ∈ problem.outgoing operation ↔
      problem.containsDependence dependence ∧ dependence.source = operation := by
  simp only [outgoing, List.mem_filter, mem_allDependences_iff, decide_eq_true_eq]

theorem WellFormed.nodup_flatMap_outgoing (wellFormed : problem.WellFormed) :
    (problem.operationIds.flatMap problem.outgoing).Nodup :=
  nodup_flatMap_operationIds (fun _ => wellFormed.nodup_allDependences.filter _) fun _ _ member =>
    (mem_outgoing_iff.mp member).2

theorem WellFormed.mem_flatMap_outgoing_iff (wellFormed : problem.WellFormed)
    {dependence : Dependence} :
    dependence ∈ problem.operationIds.flatMap problem.outgoing ↔
      problem.containsDependence dependence := by
  simp only [List.mem_flatMap, mem_operationIds, mem_outgoing_iff]
  constructor
  · rintro ⟨_, _, contained, _⟩
    exact contained
  · intro contained
    exact ⟨_, wellFormed.hasOperation_source contained, contained, rfl⟩

/-- The edges by where they start are the edges by where they end. -/
theorem WellFormed.flatMap_outgoing_perm (wellFormed : problem.WellFormed) :
    (problem.operationIds.flatMap problem.outgoing).Perm problem.allDependences := by
  rw [List.perm_ext_iff_of_nodup wellFormed.nodup_flatMap_outgoing wellFormed.nodup_allDependences]
  intro dependence
  rw [wellFormed.mem_flatMap_outgoing_iff, mem_allDependences_iff]

theorem edges_dependenceGraph :
    problem.dependenceGraph.edges = problem.allDependences.map Dependence.edge := rfl

theorem map_label_edges : problem.dependenceGraph.edges.map Edge.label = problem.allDependences := by
  rw [edges_dependenceGraph, List.map_map]
  exact List.map_id _

theorem edge_mem_dependenceGraph_iff {dependence : Dependence} :
    dependence.edge ∈ problem.dependenceGraph.edges ↔ problem.containsDependence dependence := by
  rw [edges_dependenceGraph, List.mem_map_of_injective, mem_allDependences_iff]
  intro first second same
  exact congrArg Edge.label same

/-- How often an edge is shown where each is shown once. -/
theorem count_eq_toNat {view : List Dependence} (distinct : view.Nodup) {dependence : Dependence}
    (shown : dependence ∈ view ↔ problem.containsDependence dependence) :
    view.count dependence = (problem.containsDependence dependence).toNat := by
  rw [distinct.count]
  cases contained : problem.containsDependence dependence with
  | true => exact if_pos (shown.mpr contained)
  | false => exact if_neg fun member => Bool.noConfusion (contained.symm.trans (shown.mp member))

/-! ## Inserting an edge -/

theorem dependences_setNode_of_ne {operation other : OperationId} {next : Operation}
    (different : other ≠ operation) :
    (problem.setNode operation next).dependences other = problem.dependences other := by
  have elsewhere : operation.index ≠ other.index := by
    intro same
    exact different (congrArg OperationId.mk same.symm)
  simp only [dependences, setNode, List.getElem?_set_ne elsewhere]

/-- A source that is added comes last. -/
theorem dependences_added {source destination : OperationId} {node : Operation}
    (known : problem.operations[destination.index]? = some node) :
    (problem.setNode destination
      { node with auxiliarySources := node.auxiliarySources ++ [source] }).dependences destination =
        problem.dependences destination ++ [.auxiliary source destination] := by
  have inside := (List.getElem?_eq_some_iff.mp known).1
  simp only [dependences, setNode, List.getElem?_set_self inside, known, List.map_append,
    List.map_cons, List.map_nil, List.append_assoc]

theorem insertDependence_data_eq_ok_iff {dependence : Dependence} (isData : dependence.isData) :
    problem.insertDependence dependence = .ok changed ↔
      problem.containsDependence dependence ∧ changed = problem := by
  cases dependence with
  | data source result destination operand => exact insertDependence_eq_ok_iff
  | auxiliary source destination => cases isData

theorem insertDependence_auxiliary_succeeds_iff {source destination : OperationId} :
    (∃ changed, problem.insertDependence (.auxiliary source destination) = .ok changed) ↔
      problem.hasOperation source ∧ problem.hasOperation destination ∧
        ¬ problem.containsDependence (.auxiliary source destination) := by
  simp only [insertDependence_eq_ok_iff, containsDependence_auxiliary_iff, hasOperation_iff]
  constructor
  · rintro ⟨_, registered, node, known, new, _⟩
    refine ⟨registered, ⟨node, known⟩, ?_⟩
    rintro ⟨_, found, old⟩
    cases known.symm.trans found
    exact new old
  · rintro ⟨registered, ⟨node, known⟩, new⟩
    exact ⟨_, registered, node, known, fun old => new ⟨node, known, old⟩, rfl⟩

theorem dependences_of_insertDependence {source destination : OperationId}
    (performed : problem.insertDependence (.auxiliary source destination) = .ok changed) :
    changed.dependences destination =
        problem.dependences destination ++ [.auxiliary source destination] ∧
      ∀ other, other ≠ destination → changed.dependences other = problem.dependences other := by
  obtain ⟨_, node, known, _, rfl⟩ := insertDependence_eq_ok_iff.mp performed
  exact ⟨dependences_added known, fun _ different => dependences_setNode_of_ne different⟩

/-! ## Agreement -/

/-- The views of the edges of a problem agree, whichever edge is asked for.  Each edge is shown once
where it ends, once where it starts and once in the graph, an edge of data can be inserted exactly if
it is there, and an auxiliary one exactly if it is not and both its ends are. -/
theorem edgeViews_agree (reachable : problem.Reachable) :
    (∀ dependence : Dependence,
      (dependence ∈ problem.dependences dependence.destination ↔
        problem.containsDependence dependence) ∧
      (dependence ∈ problem.outgoing dependence.source ↔
        problem.containsDependence dependence) ∧
      (dependence.edge ∈ problem.dependenceGraph.edges ↔
        problem.containsDependence dependence)) ∧
    (∀ dependence : Dependence,
      let times := (problem.containsDependence dependence).toNat
      (problem.operationIds.flatMap problem.dependences).count dependence = times ∧
      (problem.operationIds.flatMap problem.outgoing).count dependence = times ∧
      (problem.dependenceGraph.edges.map Edge.label).count dependence = times) ∧
    (problem.operationIds.flatMap problem.outgoing).Perm
      (problem.operationIds.flatMap problem.dependences) ∧
    problem.dependenceGraph.Bounded ∧
    (∀ dependence : Dependence, dependence.isData → ∀ changed,
      problem.insertDependence dependence = .ok changed ↔
        problem.containsDependence dependence ∧ changed = problem) ∧
    ∀ source destination,
      ((∃ changed, problem.insertDependence (.auxiliary source destination) = .ok changed) ↔
        problem.hasOperation source ∧ problem.hasOperation destination ∧
          ¬ problem.containsDependence (.auxiliary source destination)) ∧
      ∀ changed, problem.insertDependence (.auxiliary source destination) = .ok changed →
        changed.dependences destination =
            problem.dependences destination ++ [.auxiliary source destination] ∧
          ∀ other, other ≠ destination →
            changed.dependences other = problem.dependences other := by
  have wellFormed := reachable.wellFormed
  refine ⟨fun dependence => ⟨?_, ?_, edge_mem_dependenceGraph_iff⟩,
    fun dependence => ⟨?_, ?_, ?_⟩, wellFormed.flatMap_outgoing_perm,
    wellFormed.bounded_dependenceGraph,
    fun dependence isData changed => insertDependence_data_eq_ok_iff isData,
    fun source destination => ⟨insertDependence_auxiliary_succeeds_iff,
      fun changed => dependences_of_insertDependence⟩⟩
  · rw [mem_dependences_iff, and_iff_left rfl]
  · rw [mem_outgoing_iff, and_iff_left rfl]
  · exact count_eq_toNat wellFormed.nodup_allDependences mem_allDependences_iff
  · exact count_eq_toNat wellFormed.nodup_flatMap_outgoing wellFormed.mem_flatMap_outgoing_iff
  · rw [map_label_edges]
    exact count_eq_toNat wellFormed.nodup_allDependences mem_allDependences_iff

/-- Two operations: the first one feeds itself and twice the second one, which comes after the first
one and itself. -/
def braided : Problem :=
  [ProblemCall.insertOperation 1, .insertOperation 0, .setOperands ⟨0⟩ [⟨⟨0⟩, 0⟩],
    .setOperands ⟨1⟩ [⟨⟨0⟩, 0⟩, ⟨⟨0⟩, 0⟩], .insertDependence (.auxiliary ⟨0⟩ ⟨1⟩),
    .insertDependence (.auxiliary ⟨1⟩ ⟨1⟩)].foldl after (empty "braided" "Problem")

theorem edgeViews_agree_braided :
    let parallel := Dependence.data ⟨0⟩ 0 ⟨1⟩ 1
    let forged := Dependence.data ⟨0⟩ 0 ⟨1⟩ 2
    let back := Dependence.auxiliary ⟨1⟩ ⟨0⟩
    braided.Reachable ∧ braided.containsDependence parallel ∧
      parallel ∈ braided.dependences ⟨1⟩ ∧ parallel ∈ braided.outgoing ⟨0⟩ ∧
      parallel.edge ∈ braided.dependenceGraph.edges ∧
      (braided.operationIds.flatMap braided.outgoing).count parallel = 1 ∧
      forged ∉ braided.outgoing ⟨0⟩ ∧
      braided.insertDependence parallel = .ok braided ∧
      ∃ changed, braided.insertDependence back = .ok changed ∧
        changed.dependences ⟨0⟩ = [.data ⟨0⟩ 0 ⟨0⟩ 0, back] := by
  intro parallel forged back
  have reachable : braided.Reachable := ⟨"braided", "Problem", _, rfl⟩
  have contained : braided.containsDependence parallel = true := rfl
  have absent : braided.containsDependence forged = false := rfl
  obtain ⟨views, counts, _, _, data, auxiliary⟩ := edgeViews_agree reachable
  obtain ⟨ends, starts, drawn⟩ := views parallel
  have once : (braided.operationIds.flatMap braided.outgoing).count parallel = 1 := by
    rw [(counts parallel).2.1, contained]
    rfl
  obtain ⟨changed, performed⟩ := (auxiliary ⟨1⟩ ⟨0⟩).1.mpr ⟨rfl, rfl, nofun⟩
  refine ⟨reachable, contained, ends.mpr contained, starts.mpr contained, drawn.mpr contained, once,
    ?_, (data parallel rfl braided).mpr ⟨contained, rfl⟩, changed, performed,
    ((auxiliary ⟨1⟩ ⟨0⟩).2 changed performed).1⟩
  intro member
  cases absent.symm.trans ((views forged).2.1.mp member)

end Problem

end StaticScheduling
