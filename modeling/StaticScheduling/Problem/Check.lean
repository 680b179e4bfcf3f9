import StaticScheduling.Problem.Basic
import StaticScheduling.Problem.Digraph

/-!
# Readiness for scheduling

A problem is ready if every operation is linked to a registered operator type
with a latency, and every cycle of dependences has a positive distance on it.
-/

namespace StaticScheduling

namespace Problem

/-- The graph view: a node for each operation, and an edge for each dependence, in the order of
their destinations. -/
def dependenceGraph (problem : Problem) : Digraph Dependence where
  size := problem.operations.length
  edges := problem.allDependences.map fun dependence =>
    ⟨dependence.source.index, dependence.destination.index, dependence⟩

/-- Whether a dependence holds within one iteration: its distance is absent or zero. -/
def isImmediate (problem : Problem) (dependence : Dependence) : Bool :=
  (problem.distance dependence).getD 0 = 0

def checkLink (problem : Problem) (operation : OperationId) : Except ProblemError Unit :=
  match problem.link operation with
  | none => .error (.unlinkedOperation operation)
  | some operatorType =>
    if problem.hasOperatorType operatorType then
      if (problem.latency operatorType).isSome then .ok () else .error (.missingLatency operatorType)
    else
      .error (.unregisteredOperatorType operation operatorType)

/-- Checks that a problem is ready to be scheduled. -/
def check (problem : Problem) : Except ProblemError Unit := do
  problem.operationIds.forM problem.checkLink
  -- a cycle that stays within one iteration could never start
  match (problem.dependenceGraph.restrict problem.isImmediate).faulty? with
  | some node => .error (.zeroDistanceCycle ⟨node⟩)
  | none => .ok ()

end Problem

end StaticScheduling
