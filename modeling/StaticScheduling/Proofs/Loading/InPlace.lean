import Mathlib.Data.Finmap
import StaticScheduling.Proofs.Loading.Connections

/-! # Loading in place

A document may be loaded in place.  What names stand for is noted in tables while the
operations are declared, and looked up there when they are connected, so that no name is
searched for in the document.

Behind every declaration the tables answer what a search through the operations up to
there finds (`LoadMemory.Notes`), so what is taken for one is taken for the other.
Loading in place answers what loading answers, or fails as it does
(`Instance.loadInPlace_eq_load`).
-/

namespace StaticScheduling

/-- What is kept where a document is loaded in place. -/
structure LoadMemory where
  problem : Problem
  /-- The operations that were declared. -/
  declared : List OperationId
  /-- What the names of operations stand for. -/
  operations : Finmap fun _ : String => OperationId
  /-- What the names of values stand for. -/
  values : Finmap fun _ : String => Operand

namespace LoadMemory

/-- What is kept before an operation is declared. -/
def ofProblem (problem : Problem) : LoadMemory := ⟨problem, [], ∅, ∅⟩

/-! ## Declarations -/

/-- Notes the name of an operation, which nothing may have had before. -/
def noteName (memory : LoadMemory) (operation : OperationId) :
    Option String → Except DocumentError LoadMemory
  | none => .ok memory
  | some name =>
    if (memory.operations.lookup name).isSome || memory.problem.hasOperatorType ⟨name⟩ then
      .error (.duplicateSymbol name)
    else
      .ok { memory with operations := memory.operations.insert name operation }

/-- Notes the names of the results of an operation, from the result with a number on. -/
def noteResults (operation : OperationId) :
    (number : Nat) → List String → LoadMemory → Except DocumentError LoadMemory
  | _, [], memory => .ok memory
  | number, name :: rest, memory =>
    if (memory.values.lookup name).isSome then
      .error (.duplicateValue name)
    else
      noteResults operation (number + 1) rest
        { memory with values := memory.values.insert name ⟨operation, number⟩ }

/-- Declares an operation, notes its names and decodes its properties. -/
def declare (kinds : ProblemKinds) (memory : LoadMemory) (declaration : OperationDecl) :
    Except DocumentError LoadMemory := do
  let (operation, problem) := memory.problem.insertOperation declaration.results.length
  let memory ← noteName { memory with problem } operation declaration.name
  let memory ← noteResults operation 0 declaration.results memory
  let problem ← (PropertyKind.decodeOptional kinds.operation operation declaration.properties
    memory.problem).toExcept
  .ok { memory with problem, declared := memory.declared ++ [operation] }

/-! ## Connections -/

section Connections

variable (memory : LoadMemory) (document : Instance)

def operand (label name : String) : Except DocumentError Operand :=
  match memory.values.lookup name with
  | some operand => .ok operand
  | none => .error (.undefinedValue label name)

def source (label name : String) : Except DocumentError OperationId :=
  match memory.operations.lookup name with
  | some operation => .ok operation
  | none =>
    -- operator types were not noted, they are searched for in the document
    if (document.findOperatorType? name).isSome then
      .error (.wrongReferenceKind label name .operation .operatorType)
    else
      .error (.unknownReference label name .operation)

def dependence (label : String) (operation : OperationId) (problem : Problem) :
    Slot → Except DocumentError Dependence
  | .operand index =>
    ProblemError.within (problem.dataDependence operation index) (.dependenceOf index label)
  | .named _ name => do
    let source ← memory.source document label name
    .ok (.auxiliary source operation)

def addRecord (kinds : ProblemKinds) (label : String) (operation : OperationId)
    (problem : Problem) (record : DependenceRecord) : Except DocumentError Problem := do
  let dependence ← memory.dependence document label operation problem record.slot
  let problem ← ProblemError.within (problem.insertDependence dependence)
    (.dependenceOf record.slot.index label)
  (PropertyKind.decodeOptional kinds.dependence dependence record.properties problem).toExcept

/-- Connects the operation that a declaration at a position led to. -/
def connect (kinds : ProblemKinds) (problem : Problem) (declaration : OperationDecl)
    (operation : OperationId) (position : Nat) : Except DocumentError Problem := do
  let label := declaration.describe position
  let operands ← declaration.operands.mapM (memory.operand label)
  let problem ← ProblemError.within (problem.setOperands operation operands) (.operandsOf label)
  checkRecords label declaration.operands.length declaration.dependences
  declaration.dependences.foldlM (memory.addRecord document kinds label operation) problem

end Connections

end LoadMemory

/-- Loads a document in place. -/
def Instance.loadInPlace (document : Instance) (kinds : ProblemKinds) :
    Except DocumentError Problem := do
  let problem := Problem.empty document.name document.problem
  let problem ←
    (PropertyKind.decodeOptional kinds.problem () document.properties problem).toExcept
  let problem ← Loading.declareOperatorTypes kinds document.operatorTypes problem
  let memory ← document.operations.foldlM (LoadMemory.declare kinds) (.ofProblem problem)
  (document.operations.zip memory.declared).zipIdx.foldlM
    (fun problem entry => memory.connect document kinds problem entry.1.1 entry.1.2 entry.2)
    memory.problem

/-! ## Steps of loading -/

namespace Loading

theorem checkResults_cons (values : List String) (name : String) (rest : List String) :
    checkResults values (name :: rest) =
      if name ∈ values then .error (.duplicateValue name)
      else checkResults (name :: values) rest := by
  by_cases old : name ∈ values <;> simp [checkResults, firstRepeated?, old]

theorem declareOperations_cons (kinds : ProblemKinds) (names values : List String)
    (declaration : OperationDecl) (rest : List OperationDecl) (problem : Problem) :
    declareOperations kinds names values (declaration :: rest) problem =
      (do
        checkName names problem declaration.name
        checkResults values declaration.results
        let (operation, problem) := problem.insertOperation declaration.results.length
        (PropertyKind.decodeOptional kinds.operation operation declaration.properties
          problem).toExcept) >>=
        declareOperations kinds (declaration.name.toList ++ names)
          (declaration.results ++ values) rest := by
  rw [declareOperations]
  simp only [bind_assoc]

end Loading

namespace Instance

/-- A document up to some of its operations. -/
def upTo (document : Instance) (before : List OperationDecl) : Instance :=
  { document with operations := before }

variable (document : Instance) (before : List OperationDecl) (declaration : OperationDecl)

/-- A name that nothing bears yet is borne by the next operation, or by none. -/
theorem resolveOperation?_upTo_concat (name : String) :
    (document.upTo (before ++ [declaration])).resolveOperation? name =
      ((document.upTo before).resolveOperation? name).or
        (if declaration.name = some name then some ⟨before.length⟩ else none) := by
  simp only [resolveOperation?, findOperation?, upTo, List.zipIdx_append, List.find?_append]
  cases (before.zipIdx.find? fun entry => decide (entry.1.name = some name)) with
  | some entry => rfl
  | none => by_cases named : declaration.name = some name <;> simp [named]

/-- A name that no result bears yet is borne by a result of the next operation, or by none. -/
theorem resolveValue?_upTo_concat (name : String) :
    (document.upTo (before ++ [declaration])).resolveValue? name =
      ((document.upTo before).resolveValue? name).or
        ((declaration.results.idxOf? name).map fun result => ⟨⟨before.length⟩, result⟩) := by
  simp only [resolveValue?, upTo, List.zipIdx_append, List.findSome?_append]
  simp

end Instance

namespace LoadMemory

/-! ## One declaration -/

/-- The tables answer what searches through the operations up to here find. -/
structure Notes (document : Instance) (before : List OperationDecl) (memory : LoadMemory) :
    Prop where
  count : memory.problem.operations.length = before.length
  declared : memory.declared = (List.range before.length).map OperationId.mk
  operation (name : String) :
    memory.operations.lookup name = (document.upTo before).resolveOperation? name
  value (name : String) :
    memory.values.lookup name = (document.upTo before).resolveValue? name

theorem notes_ofProblem (document : Instance) {problem : Problem} (none : problem.operations = []) :
    Notes document [] (ofProblem problem) where
  count := by simp [ofProblem, none]
  declared := rfl
  operation name := Finmap.lookup_empty name
  value name := Finmap.lookup_empty name

/-- How noting and checking end: both fail in the same way, or both succeed and something holds of
what is kept. -/
inductive Agrees {Answer : Type} (holds : LoadMemory → Answer → Prop) :
    Except DocumentError LoadMemory → Except DocumentError Answer → Prop
  | ok {memory : LoadMemory} {answer : Answer} : holds memory answer →
    Agrees holds (.ok memory) (.ok answer)
  | error (error : DocumentError) : Agrees holds (.error error) (.error error)

namespace Agrees

variable {Answer Other : Type} {holds : LoadMemory → Answer → Prop}
  {other : LoadMemory → Other → Prop}

theorem bind {noted : Except DocumentError LoadMemory} {checked : Except DocumentError Answer}
    {next : LoadMemory → Except DocumentError LoadMemory}
    {nextChecked : Answer → Except DocumentError Other} (first : Agrees holds noted checked)
    (second : ∀ memory answer, holds memory answer →
      Agrees other (next memory) (nextChecked answer)) :
    Agrees other (noted >>= next) (checked >>= nextChecked) := by
  cases first with
  | ok held => exact second _ _ held
  | error error => exact .error error

theorem bind_eq {noted : Except DocumentError LoadMemory} {checked : Except DocumentError Answer}
    {next : LoadMemory → Except DocumentError Other}
    {nextChecked : Answer → Except DocumentError Other}
    (first : Agrees holds noted checked)
    (second : ∀ memory answer, holds memory answer → next memory = nextChecked answer) :
    (noted >>= next) = (checked >>= nextChecked) := by
  cases first with
  | ok held => exact second _ _ held
  | error error => rfl

theorem mono {more : LoadMemory → Answer → Prop} {noted : Except DocumentError LoadMemory}
    {checked : Except DocumentError Answer} (agrees : Agrees holds noted checked)
    (also : ∀ memory answer, holds memory answer → more memory answer) :
    Agrees more noted checked := by
  cases agrees with
  | ok held => exact .ok (also _ _ held)
  | error error => exact .error error

end Agrees

/-- A name is found to be taken if it was noted. -/
theorem agrees_noteName (memory : LoadMemory) {names : List String}
    (seen : ∀ name, name ∈ names ↔ (memory.operations.lookup name).isSome)
    (operation : OperationId) (name : Option String) :
    Agrees (fun noted _ => ∃ operations, noted = { memory with operations } ∧
        ∀ other, operations.lookup other =
          (memory.operations.lookup other).or (if name = some other then some operation else none))
      (noteName memory operation name) (Loading.checkName names memory.problem name) := by
  cases name with
  | none => exact .ok ⟨memory.operations, rfl, fun other => by simp⟩
  | some name =>
    simp only [noteName, Loading.checkName, seen, Bool.decide_eq_true]
    split
    · exact .error _
    · rename_i free
      rw [Bool.or_eq_true, not_or] at free
      have new : memory.operations.lookup name = none := by simpa using free.1
      refine .ok ⟨_, rfl, fun other => ?_⟩
      by_cases same : name = other
      · subst same
        simp [new]
      · simp [Finmap.lookup_insert_of_ne _ (Ne.symm same), same]

theorem agrees_noteResults (memory : LoadMemory) {values : List String}
    (seen : ∀ name, name ∈ values ↔ (memory.values.lookup name).isSome)
    (operation : OperationId) (number : Nat) (results : List String) :
    Agrees (fun noted _ => ∃ values, noted = { memory with values } ∧
        ∀ other, values.lookup other = (memory.values.lookup other).or
          ((results.idxOf? other).map fun result => ⟨operation, number + result⟩))
      (noteResults operation number results memory) (Loading.checkResults values results) := by
  -- what is noted counts as seen for the results behind it
  induction results generalizing memory number values with
  | nil => exact .ok ⟨memory.values, rfl, fun other => by simp⟩
  | cons name rest inductionHypothesis =>
    rw [noteResults, Loading.checkResults_cons]
    by_cases taken : (memory.values.lookup name).isSome
    · rw [if_pos taken, if_pos ((seen name).mpr taken)]
      exact .error _
    · rw [if_neg taken, if_neg (mt (seen name).mp taken)]
      have new : memory.values.lookup name = none := by simpa using taken
      have seenNext (other : String) : other ∈ name :: values ↔
          ((memory.values.insert name ⟨operation, number⟩).lookup other).isSome := by
        by_cases same : other = name
        · subst same
          simp
        · simp [same, seen]
      refine (inductionHypothesis
        { memory with values := memory.values.insert name ⟨operation, number⟩ } seenNext
        (number + 1)).mono ?_
      rintro _ _ ⟨values, rfl, noted⟩
      refine ⟨values, rfl, fun other => ?_⟩
      rw [noted]
      by_cases same : name = other
      · subst same
        simp [new, List.idxOf?_cons]
      · have behind (result : Nat) : number + 1 + result = number + (result + 1) := by omega
        simp [Finmap.lookup_insert_of_ne _ (Ne.symm same), List.idxOf?_cons, same, behind,
          Function.comp_def]

variable {document : Instance} {before : List OperationDecl} {memory : LoadMemory}

/-- One more operation is registered at the next place. -/
theorem Notes.exists_inserted (notes : Notes document before memory) (results : Nat) :
    ∃ inserted, memory.problem.insertOperation results = (⟨before.length⟩, inserted) ∧
      inserted.hasOperation ⟨before.length⟩ ∧ inserted.operations.length = before.length + 1 := by
  have place : (memory.problem.insertOperation results).1 = ⟨before.length⟩ :=
    congrArg OperationId.mk notes.count
  refine ⟨_, Prod.ext place rfl, ?_, ?_⟩
  · rw [← place]
    exact memory.problem.hasOperation_insertOperation results
  · rw [← notes.count, Problem.insertOperation, List.length_append, List.length_singleton]

/-- What is noted of one more operation is what is found there, if it was not found before. -/
theorem Notes.concat (notes : Notes document before memory) (declaration : OperationDecl)
    {problem : Problem} {operations : Finmap fun _ : String => OperationId}
    {values : Finmap fun _ : String => Operand}
    (count : problem.operations.length = before.length + 1)
    (named : ∀ name, operations.lookup name = (memory.operations.lookup name).or
      (if declaration.name = some name then some ⟨before.length⟩ else none))
    (defined : ∀ name, values.lookup name = (memory.values.lookup name).or
      ((declaration.results.idxOf? name).map fun result => ⟨⟨before.length⟩, 0 + result⟩)) :
    Notes document (before ++ [declaration])
      ⟨problem, memory.declared ++ [⟨before.length⟩], operations, values⟩ where
  count := by rw [count, List.length_append, List.length_singleton]
  declared := by
    rw [notes.declared, List.length_append, List.length_singleton, List.range_succ, List.map_append]
    rfl
  operation name := by rw [named, notes.operation, Instance.resolveOperation?_upTo_concat]
  value name := by
    simp only [defined, notes.value, Instance.resolveValue?_upTo_concat, Nat.zero_add]

/-- A declaration is noted as it is checked, and behind it the tables answer for one operation
more. -/
theorem agrees_declare {kinds : ProblemKinds} (builtIn : kinds.BuiltIn)
    (notes : Notes document before memory) {names values : List String}
    (namesSeen : ∀ name, name ∈ names ↔ name ∈ before.filterMap OperationDecl.name)
    (valuesSeen : ∀ name, name ∈ values ↔ name ∈ before.flatMap OperationDecl.results)
    (declaration : OperationDecl) :
    Agrees (fun noted problem =>
        noted.problem = problem ∧ Notes document (before ++ [declaration]) noted)
      (declare kinds memory declaration)
      (do
        Loading.checkName names memory.problem declaration.name
        Loading.checkResults values declaration.results
        let (operation, problem) := memory.problem.insertOperation declaration.results.length
        (PropertyKind.decodeOptional kinds.operation operation declaration.properties
          problem).toExcept) := by
  have namesNoted (name : String) : name ∈ names ↔ (memory.operations.lookup name).isSome := by
    rw [namesSeen, notes.operation, Instance.resolveOperation?_isSome_iff]
    rfl
  have valuesNoted (name : String) : name ∈ values ↔ (memory.values.lookup name).isSome := by
    rw [valuesSeen, notes.value, Instance.resolveValue?_isSome_iff]
    rfl
  obtain ⟨inserted, inserts, registered, count⟩ := notes.exists_inserted declaration.results.length
  -- a name is checked against the operator types, which stay as they are
  have checks : Loading.checkName names memory.problem declaration.name =
      Loading.checkName names inserted declaration.name := by
    have same : (memory.problem.insertOperation declaration.results.length).2 = inserted :=
      congrArg Prod.snd inserts
    rw [← same]
    rfl
  rw [declare, checks]
  simp only [inserts]
  refine (agrees_noteName { memory with problem := inserted } namesNoted ⟨before.length⟩
    declaration.name).bind ?_
  rintro _ _ ⟨operations, rfl, named⟩
  refine (agrees_noteResults ⟨inserted, memory.declared, operations, memory.values⟩ valuesNoted
    ⟨before.length⟩ 0 declaration.results).bind ?_
  rintro _ _ ⟨values, rfl, defined⟩
  simp only
  cases decoded : (PropertyKind.decodeOptional kinds.operation ⟨before.length⟩
    declaration.properties inserted).toExcept with
  | error error => exact .error error
  | ok changed =>
    obtain ⟨_, rfl⟩ := (builtIn.decodeOptional_operation registered).mp decoded
    exact .ok ⟨rfl, notes.concat declaration count named defined⟩

/-! ## All declarations -/

theorem agrees_foldlM_declare {kinds : ProblemKinds} (builtIn : kinds.BuiltIn)
    (rest : List OperationDecl) (notes : Notes document before memory) {names values : List String}
    (namesSeen : ∀ name, name ∈ names ↔ name ∈ before.filterMap OperationDecl.name)
    (valuesSeen : ∀ name, name ∈ values ↔ name ∈ before.flatMap OperationDecl.results) :
    Agrees (fun last problem => last.problem = problem ∧ Notes document (before ++ rest) last)
      (rest.foldlM (declare kinds) memory)
      (Loading.declareOperations kinds names values rest memory.problem) := by
  -- what was declared before is what the tables are about, so it grows from step to step
  induction rest generalizing before memory names values with
  | nil => exact .ok ⟨rfl, by rwa [List.append_nil]⟩
  | cons declaration rest inductionHypothesis =>
    rw [List.foldlM_cons, Loading.declareOperations_cons]
    refine (agrees_declare builtIn notes namesSeen valuesSeen declaration).bind ?_
    rintro noted _ ⟨rfl, notesBehind⟩
    have namesSeenBehind (name : String) : name ∈ declaration.name.toList ++ names ↔
        name ∈ (before ++ [declaration]).filterMap OperationDecl.name := by
      simp [namesSeen, or_comm]
    have valuesSeenBehind (name : String) : name ∈ declaration.results ++ values ↔
        name ∈ (before ++ [declaration]).flatMap OperationDecl.results := by
      simp [valuesSeen, or_comm]
    have next := inductionHypothesis notesBehind namesSeenBehind valuesSeenBehind
    rwa [List.append_assoc] at next

/-! ## Names that are looked up -/

section Answers

variable (notes : Notes document document.operations memory)
include notes

theorem Notes.operand_eq : memory.operand = Loading.resolveOperand document := by
  funext label name
  rw [operand, notes.value]
  rfl

theorem Notes.source_eq : memory.source document = Loading.resolveSource document := by
  funext label name
  rw [source, notes.operation]
  rfl

theorem Notes.addRecord_eq : memory.addRecord document = Loading.addRecord document := by
  have same (label : String) (operation : OperationId) (problem : Problem) (slot : Slot) :
      memory.dependence document label operation problem slot =
        Loading.recordDependence document label operation problem slot := by
    cases slot with
    | operand index => rfl
    | named index name =>
      rw [dependence, notes.source_eq]
      rfl
  funext kinds label operation problem record
  rw [addRecord, same]
  rfl

theorem Notes.connect_eq (kinds : ProblemKinds) (problem : Problem) (declaration : OperationDecl)
    (position : Nat) : memory.connect document kinds problem declaration ⟨position⟩ position =
      Loading.connectOperation document kinds problem declaration position := by
  rw [connect, notes.operand_eq, notes.addRecord_eq]
  rfl

/-- Every operation is connected under the number it was registered with, which is its place. -/
theorem Notes.foldlM_connect_eq (kinds : ProblemKinds) (problem : Problem) :
    (document.operations.zip memory.declared).zipIdx.foldlM
        (fun problem entry => memory.connect document kinds problem entry.1.1 entry.1.2 entry.2)
        problem =
      document.operations.zipIdx.foldlM
        (fun problem entry => Loading.connectOperation document kinds problem entry.1 entry.2)
        problem := by
  have places : (document.operations.zip memory.declared).zipIdx =
      document.operations.zipIdx.map fun entry => ((entry.1, ⟨entry.2⟩), entry.2) := by
    rw [notes.declared]
    refine List.ext_getElem (by simp) fun place _ _ => ?_
    simp
  simp only [places, List.foldlM_map, notes.connect_eq]

end Answers

end LoadMemory

/-! ## Whole documents -/

namespace Instance

open LoadMemory

/-- Behind all declarations, the tables answer what searches through the document find. -/
theorem agrees_declareOperations {kinds : ProblemKinds} (builtIn : kinds.BuiltIn)
    (document : Instance) {problem : Problem} (none : problem.operations = []) :
    Agrees (fun memory declared => memory.problem = declared ∧
        Notes document document.operations memory)
      (document.operations.foldlM (declare kinds) (.ofProblem problem))
      (Loading.declareOperations kinds [] [] document.operations problem) :=
  agrees_foldlM_declare builtIn document.operations (notes_ofProblem document none)
    (fun _ => Iff.rfl) fun _ => Iff.rfl

/-- Loading in place answers the same problem, or fails in the same way. -/
theorem loadInPlace_eq_load {kinds : ProblemKinds} (builtIn : kinds.BuiltIn)
    (document : Instance) : document.loadInPlace kinds = document.load kinds := by
  rw [loadInPlace, load]
  cases decoded : (PropertyKind.decodeOptional kinds.problem () document.properties
    (Problem.empty document.name document.problem)).toExcept with
  | error error => rfl
  | ok problem =>
    obtain ⟨_, rfl⟩ := builtIn.decodeOptional_problem.mp decoded
    simp only [ok_bind, annotateInstance_empty]
    cases registered : Loading.declareOperatorTypes kinds document.operatorTypes
      (document.withOperatorTypes []) with
    | error error => rfl
    | ok problem =>
      obtain ⟨_, _, rfl⟩ := (document.declareOperatorTypes_eq_ok_iff builtIn _ _).mp registered
      refine (document.agrees_declareOperations builtIn rfl).bind_eq ?_
      rintro memory _ ⟨rfl, notes⟩
      exact notes.foldlM_connect_eq kinds memory.problem

end Instance

end StaticScheduling
