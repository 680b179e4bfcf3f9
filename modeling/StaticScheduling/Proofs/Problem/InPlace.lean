import StaticScheduling.Proofs.Problem.Reachable

/-! # Calls that work in place

A call may be carried out on a problem in place, one look or one write after the
other.  It could then be refused after a part of its writes.  No call is: what it
leaves behind is the problem it was made on, or the changed problem as a whole.
-/

namespace StaticScheduling

/-- Looks at a problem and writes to it.  A refusal leaves what was written before. -/
abbrev Editing (Answer : Type) := ExceptT ProblemError (StateM Problem) Answer

namespace Editing

variable {Answer : Type}

/-- What an editing answers on a problem, and the problem it leaves. -/
def on (editing : Editing Answer) (problem : Problem) : Except ProblemError Answer × Problem :=
  StateT.run (ExceptT.run editing) problem

/-- Asks the problem something. -/
def look (question : Problem → Except ProblemError Answer) : Editing Answer := do
  MonadExcept.ofExcept (question (← get))

/-- Writes to the node of an operation. -/
def adjust (operation : OperationId) (change : Operation → Operation) : Editing Unit :=
  modify fun problem =>
    { problem with operations := problem.operations.modify operation.index change }

end Editing

namespace ProblemCall

open Editing (look adjust)

/-- A call, step by step. -/
def editing : ProblemCall → Editing Unit
  | .insertOperatorType operatorType => do
    unless (← get).hasOperatorType operatorType do
      modify fun problem =>
        { problem with operatorTypes := problem.operatorTypes ++ [operatorType] }
  | .insertOperation results =>
    modify fun problem => { problem with operations := problem.operations ++ [⟨results, [], false, []⟩] }
  | .setOperands operation operands => do
    operands.forM fun operand => look fun problem => problem.checkOperand operand
    let node ← look fun problem => problem.operation operation
    if node.connected then
      throw (.operandsAlreadySet operation)
    else
      adjust operation fun node => { node with operands }
      adjust operation fun node => { node with connected := true }
  | .insertDependence (.data source result destination operand) => do
    let existing ← look fun problem => problem.dataDependence destination operand
    unless existing = .data source result destination operand do
      throw (.unknownDependence (.data source result destination operand))
  | .insertDependence (.auxiliary source destination) => do
    let _ ← look fun problem => problem.operation source
    let node ← look fun problem => problem.operation destination
    if source ∈ node.auxiliarySources then
      throw (.duplicateDependence source destination)
    else
      adjust destination fun node =>
        { node with auxiliarySources := node.auxiliarySources ++ [source] }
  | .setInitiationInterval value => modify fun problem => problem.setInitiationInterval value
  | .setLatency operatorType value => modify fun problem => problem.setLatency operatorType value
  | .setLimit operatorType value => modify fun problem => problem.setLimit operatorType value
  | .setLink operation operatorType => do
    let _ ← look fun problem => problem.operation operation
    modify fun problem => { problem with links := problem.links.set operation operatorType }
  | .setStartTime operation value => do
    let _ ← look fun problem => problem.operation operation
    modify fun problem => { problem with startTimes := problem.startTimes.set operation value }
  | .setDistance dependence value => do
    unless (← get).containsDependence dependence do
      throw (.unknownDependence dependence)
    modify fun problem => { problem with distances := problem.distances.set dependence value }

end ProblemCall

namespace Editing

variable {Answer Next : Type} {problem : Problem}

theorem on_bind (editing : Editing Answer) (next : Answer → Editing Next) (problem : Problem) :
    (editing >>= next).on problem =
      match editing.on problem with
      | (.ok answer, changed) => (next answer).on changed
      | (.error error, changed) => (.error error, changed) := by
  simp only [on, ExceptT.run_bind, StateT.run_bind]
  cases StateT.run (ExceptT.run editing) problem with
  | mk answer changed => cases answer <;> rfl

@[simp] theorem on_pure (answer : Answer) (problem : Problem) :
    (pure answer : Editing Answer).on problem = (.ok answer, problem) := rfl

@[simp] theorem on_throw (error : ProblemError) (problem : Problem) :
    (throw error : Editing Answer).on problem = (.error error, problem) := rfl

@[simp] theorem on_get (problem : Problem) :
    (get : Editing Problem).on problem = (.ok problem, problem) := rfl

@[simp] theorem on_modify (change : Problem → Problem) (problem : Problem) :
    (modify change : Editing Unit).on problem = (.ok (), change problem) := rfl

@[simp] theorem on_look (question : Problem → Except ProblemError Answer) (problem : Problem) :
    (look question).on problem = (question problem, problem) := by
  simp only [look, on_bind, on_get]
  cases question problem <;> rfl

/-- Looking leaves a problem as it is, however often it is done. -/
theorem on_forM_look {Item : Type} (question : Item → Problem → Except ProblemError Unit)
    (items : List Item) (problem : Problem) :
    (items.forM fun item => look (question item)).on problem =
      (items.forM fun item => question item problem, problem) := by
  induction items with
  | nil => rfl
  | cons item items inductionHypothesis =>
    rw [List.forM_eq_forM, List.forM_eq_forM, List.forM_cons, List.forM_cons, on_bind, on_look]
    cases question item problem with
    | ok _ => exact inductionHypothesis
    | error error => rfl

@[simp] theorem on_adjust {operation : OperationId} {node : Operation}
    (known : problem.operation operation = .ok node) (change : Operation → Operation) :
    (adjust operation change).on problem = (.ok (), problem.setNode operation (change node)) := by
  rw [adjust, on_modify, Problem.setNode, List.modify_eq_set,
    Problem.operation_eq_ok_iff.mp known, Option.getD_some]

/-- Two writes to one node are one write. -/
theorem on_adjust_adjust {operation : OperationId} {node : Operation}
    (known : problem.operation operation = .ok node) (first second : Operation → Operation) :
    (do adjust operation first; adjust operation second).on problem =
      (.ok (), problem.setNode operation (second (first node))) := by
  have inside := (List.getElem?_eq_some_iff.mp (Problem.operation_eq_ok_iff.mp known)).1
  have written : (problem.setNode operation (first node)).operation operation = .ok (first node) :=
    Problem.operation_eq_ok_iff.mpr (List.getElem?_set_self inside)
  rw [on_bind, on_adjust known]
  refine (on_adjust written second).trans ?_
  simp only [Problem.setNode, List.set_set]

end Editing

namespace ProblemCall

open Editing

/-- Working in place, a call leaves the changed problem if it is accepted, and the problem it was made
on if it is refused. -/
theorem on_editing (call : ProblemCall) (problem : Problem) :
    call.editing.on problem =
      match problem.perform call with
      | .ok changed => (.ok (), changed)
      | .error error => (.error error, problem) := by
  -- both ask the same questions in the same order, and nothing is written before the last answer
  cases call with
  | insertOperatorType operatorType =>
    simp only [editing, on_bind, on_get, Problem.perform, Problem.insertOperatorType]
    cases problem.hasOperatorType operatorType <;> rfl
  | insertOperation results => rfl
  | setOperands operation operands =>
    simp only [editing, on_bind, on_forM_look, on_look, Problem.perform, Problem.setOperands]
    cases operands.forM problem.checkOperand with
    | error error => rfl
    | ok _ =>
      simp only [ok_bind]
      cases known : problem.operation operation with
      | error error => rfl
      | ok node =>
        simp only [ok_bind]
        by_cases connected : node.connected
        · rw [if_pos connected, if_pos connected, on_throw]
        · rw [if_neg connected, if_neg connected, on_adjust_adjust known]
  | insertDependence dependence =>
    cases dependence with
    | data source result destination operand =>
      simp only [editing, on_bind, on_look, Problem.perform, Problem.insertDependence]
      cases problem.dataDependence destination operand with
      | error error => rfl
      | ok existing =>
        simp only [ok_bind]
        by_cases same : existing = .data source result destination operand
        · rw [if_pos same, if_pos same, on_pure]
        · rw [if_neg same, if_neg same, on_throw]
    | auxiliary source destination =>
      simp only [editing, on_bind, on_look, Problem.perform, Problem.insertDependence]
      cases problem.operation source with
      | error error => rfl
      | ok _ =>
        simp only [ok_bind]
        cases known : problem.operation destination with
        | error error => rfl
        | ok node =>
          simp only [ok_bind]
          by_cases old : source ∈ node.auxiliarySources
          · rw [if_pos old, if_pos old, on_throw]
          · rw [if_neg old, if_neg old, on_adjust known]
  | setInitiationInterval value => rfl
  | setLatency operatorType value => rfl
  | setLimit operatorType value => rfl
  | setLink operation operatorType =>
    simp only [editing, on_bind, on_look, Problem.perform, Problem.setLink]
    cases problem.operation operation <;> rfl
  | setStartTime operation value =>
    simp only [editing, on_bind, on_look, Problem.perform, Problem.setStartTime]
    cases problem.operation operation <;> rfl
  | setDistance dependence value =>
    simp only [editing, on_bind, on_get, Problem.perform, Problem.setDistance]
    cases problem.containsDependence dependence <;> rfl

end ProblemCall

namespace Problem

/-- The problem that calls leave when each is made in place on what the one before it left. -/
def edited (problem : Problem) (calls : List ProblemCall) : Problem :=
  calls.foldl (fun problem call => (call.editing.on problem).2) problem

theorem on_editing_snd (call : ProblemCall) (problem : Problem) :
    (call.editing.on problem).2 = problem.after call := by
  rw [call.on_editing, after]
  cases problem.perform call <;> rfl

theorem reachable_edited (instanceName problemName : String) (calls : List ProblemCall) :
    ((empty instanceName problemName).edited calls).Reachable := by
  refine ⟨instanceName, problemName, calls, ?_⟩
  simp only [edited, on_editing_snd]

/-- Whatever calls are made in place, accepted or refused, they leave a well-formed problem.  The call
made next leaves what it answers if it is accepted and nothing new if it is refused, and no dependence
is lost. -/
theorem wellFormed_edited (instanceName problemName : String) (calls : List ProblemCall) :
    let problem := (empty instanceName problemName).edited calls
    problem.WellFormed ∧
      ∀ call : ProblemCall,
        (∀ changed, problem.perform call = .ok changed →
          call.editing.on problem = (.ok (), changed)) ∧
        (∀ error, problem.perform call = .error error →
          call.editing.on problem = (.error error, problem)) ∧
        ∀ dependence, problem.containsDependence dependence →
          (call.editing.on problem).2.containsDependence dependence := by
  intro problem
  have wellFormed := (reachable_edited instanceName problemName calls).wellFormed
  refine ⟨wellFormed, ?_⟩
  intro call
  rw [call.on_editing]
  cases performed : problem.perform call with
  | ok changed =>
    refine ⟨?_, nofun, ?_⟩
    · rintro _ ⟨⟩
      rfl
    · intro dependence contained
      exact (wellFormed.extends_perform performed).containsDependence contained
  | error error =>
    refine ⟨nofun, ?_, ?_⟩
    · rintro _ ⟨⟩
      rfl
    · intro dependence contained
      exact contained

/-- An operation that feeds itself and another one, whose operands are set twice. -/
def rewired : List ProblemCall :=
  [.insertOperatorType ⟨"alu"⟩, .insertOperation 1, .insertOperation 0,
    .setOperands ⟨0⟩ [⟨⟨0⟩, 0⟩], .setOperands ⟨1⟩ [⟨⟨0⟩, 0⟩, ⟨⟨0⟩, 0⟩], .setOperands ⟨1⟩ [],
    .insertDependence (.auxiliary ⟨0⟩ ⟨7⟩), .setDistance (.data ⟨0⟩ 0 ⟨1⟩ 1) 3]

theorem wellFormed_edited_rewired :
    let problem := (empty "pipeline" "Problem").edited rewired
    let refused := ProblemCall.setOperands ⟨0⟩ []
    let accepted := ProblemCall.insertDependence (.auxiliary ⟨1⟩ ⟨0⟩)
    problem.WellFormed ∧
      problem.perform refused = .error (.operandsAlreadySet ⟨0⟩) ∧
      refused.editing.on problem = (.error (.operandsAlreadySet ⟨0⟩), problem) ∧
      (∃ changed, problem.perform accepted = .ok changed ∧
        accepted.editing.on problem = (.ok (), changed)) ∧
      problem.containsDependence (.data ⟨0⟩ 0 ⟨1⟩ 1) ∧
      (accepted.editing.on problem).2.containsDependence (.data ⟨0⟩ 0 ⟨1⟩ 1) := by
  intro problem refused accepted
  obtain ⟨wellFormed, calls⟩ := wellFormed_edited "pipeline" "Problem" rewired
  have fails : problem.perform refused = .error (.operandsAlreadySet ⟨0⟩) := rfl
  have succeeds : problem.perform accepted = .ok (problem.after accepted) := rfl
  have contained : problem.containsDependence (.data ⟨0⟩ 0 ⟨1⟩ 1) := rfl
  obtain ⟨_, untouched, _⟩ := calls refused
  obtain ⟨changes, _, kept⟩ := calls accepted
  exact ⟨wellFormed, fails, untouched _ fails, ⟨_, succeeds, changes _ succeeds⟩, contained,
    kept _ contained⟩

end Problem

end StaticScheduling
