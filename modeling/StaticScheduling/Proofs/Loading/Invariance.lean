import Mathlib.Data.List.FinRange
import Mathlib.Logic.Equiv.Fintype
import Mathlib.Logic.Equiv.Fin.Rotate
import StaticScheduling.Proofs.Loading.Correspondence

/-! # What loading does not depend on

Declarations may stand in any order: the problem has the same operations, at the
places that they are moved to.  What values and operations are called and what
dictionaries say is not in the problem at all.  Both are cases of corresponding
documents, where either the names or the places stay as they are.
-/

namespace StaticScheduling

namespace Instance

/-! ## The order of declarations -/

/-- The document with its operations in another order, in which each is found where it is moved
to. -/
def rearranged (document : Instance) (places : Equiv.Perm (Fin document.operations.length)) :
    Instance :=
  { document with
    operations := List.ofFn fun place => document.operations.get (places.symm place) }

/-- The places of operations as numbers, where those that no operation has are kept. -/
def allPlaces {document : Instance} (places : Equiv.Perm (Fin document.operations.length)) :
    Equiv.Perm Nat :=
  places.extendDomain Fin.equivSubtype

section Rearranged

variable {document : Instance} (places : Equiv.Perm (Fin document.operations.length))

theorem allPlaces_of_lt {place : Nat} (inside : place < document.operations.length) :
    allPlaces places place = places ⟨place, inside⟩ := by
  rw [allPlaces, places.extendDomain_apply_subtype Fin.equivSubtype inside]
  rfl

theorem allPlaces_of_le {place : Nat} (outside : document.operations.length ≤ place) :
    allPlaces places place = place :=
  places.extendDomain_apply_not_subtype Fin.equivSubtype (Nat.not_lt.mpr outside)

theorem getElem?_rearranged (place : Nat) :
    (document.rearranged places).operations[allPlaces places place]? =
      document.operations[place]? := by
  by_cases inside : place < document.operations.length
  · rw [allPlaces_of_lt places inside, List.getElem?_eq_getElem inside, rearranged,
      List.getElem?_ofFn, dif_pos (places ⟨place, inside⟩).isLt, Fin.eta, Equiv.symm_apply_apply]
    rfl
  · have outside := Nat.le_of_not_lt inside
    rw [allPlaces_of_le places outside, List.getElem?_eq_none outside, List.getElem?_eq_none]
    simpa [rearranged] using outside

end Rearranged

end Instance

theorem DependenceRecord.renamed_id (record : DependenceRecord) : record.renamed id = record := by
  obtain ⟨slot, properties⟩ := record
  cases slot <;> rfl

theorem OperationDecl.RenamedTo.refl (declaration : OperationDecl) :
    declaration.RenamedTo id id declaration where
  results := (List.map_id _).symm
  name := Option.map_id'.symm
  operands := (List.map_id _).symm
  dependences := by
    rw [List.map_congr_left fun record _ => record.renamed_id, List.map_id']
  properties := rfl

namespace Instance

theorem corresponds_rearranged (document : Instance)
    (places : Equiv.Perm (Fin document.operations.length)) :
    document.Corresponds (allPlaces places) id id (document.rearranged places) where
  name := rfl
  problem := rfl
  properties := rfl
  operatorTypes := rfl
  length := List.length_ofFn
  operations place := by
    rw [getElem?_rearranged]
    cases document.operations[place]? with
    | none => exact .none
    | some declaration => exact .some (.refl declaration)
  valuesInjective := Function.injective_id
  symbolsInjective := Function.injective_id
  fixed _ _ := rfl

/-- A document loads in any order of its operations if it loads in one, and the problem only has its
operations at other places. -/
theorem load_rearranged {kinds : ProblemKinds} (builtIn : kinds.BuiltIn) (document : Instance)
    (places : Equiv.Perm (Fin document.operations.length)) {moved : Problem} :
    (document.rearranged places).load kinds = .ok moved ↔
      ∃ problem, document.load kinds = .ok problem ∧ moved = problem.moved (allPlaces places) :=
  (document.corresponds_rearranged places).load_moved_eq_ok_iff builtIn

/-- Three operations, the first of which uses itself and what comes behind it. -/
def threaded : Instance where
  name := "threaded"
  problem := "ModuloProblem"
  properties := some [.ofNumber "II" 2]
  operatorTypes := [⟨"add", some [.ofNumber "latency" 1, .ofNumber "limit" 1]⟩]
  operations := [
    ⟨["sum"], some "early", ["sum", "last"],
      [⟨.operand 0, some [.ofNumber "distance" 1]⟩, ⟨.named 2 "late", none⟩],
      some [.ofLink ⟨"add"⟩], []⟩,
    ⟨["first", "last"], some "middle", [], [], some [.ofNumber "start_time" 4], []⟩,
    ⟨[], some "late", ["sum"], [⟨.named 1 "middle", some [.ofNumber "distance" 3]⟩], none, []⟩]

/-- Each operation goes to the next place, and the last one to the first. -/
theorem load_rearranged_threaded :
    ProblemKinds.modulo.BuiltIn ∧
      (threaded.rearranged (finRotate 3)).operations.map OperationDecl.name =
        [some "late", some "early", some "middle"] ∧
      ∃ problem, threaded.load .modulo = .ok problem ∧
        (threaded.rearranged (finRotate 3)).load .modulo =
          .ok (problem.moved (@allPlaces threaded (finRotate 3))) ∧
        problem.dependences ⟨0⟩ =
          [.data ⟨0⟩ 0 ⟨0⟩ 0, .data ⟨1⟩ 1 ⟨0⟩ 1, .auxiliary ⟨2⟩ ⟨0⟩] ∧
        (problem.moved (@allPlaces threaded (finRotate 3))).dependences ⟨1⟩ =
          [.data ⟨1⟩ 0 ⟨1⟩ 0, .data ⟨2⟩ 1 ⟨1⟩ 1, .auxiliary ⟨0⟩ ⟨1⟩] := by
  have known : ProblemKinds.ofProblemName? "ModuloProblem" = some .modulo := rfl
  have builtIn := ProblemKinds.builtIn_of_ofProblemName? known
  have loadable : threaded.Loadable .modulo := by decide
  have loads := (threaded.load_eq_ok_iff builtIn).mpr ⟨loadable, rfl⟩
  exact ⟨builtIn, by decide, _, loads,
    (load_rearranged builtIn threaded (finRotate 3)).mpr ⟨_, loads, rfl⟩, by decide, by decide⟩

/-! ## Names and dictionaries -/

/-- Documents that differ in the names of values and operations, and in the dictionaries of
operations. -/
structure RenamedTo (values symbols : String → String) (document renamed : Instance) : Prop where
  name : renamed.name = document.name
  problem : renamed.problem = document.problem
  properties : renamed.properties = document.properties
  operatorTypes : renamed.operatorTypes = document.operatorTypes
  operations : List.Forall₂ (OperationDecl.RenamedTo values symbols) document.operations
    renamed.operations

end Instance

/-- Lists that are related element by element are so wherever one looks. -/
theorem optionRel_getElem?_of_forall₂ {First Second : Type} {related : First → Second → Prop}
    {firsts : List First} {seconds : List Second} (all : List.Forall₂ related firsts seconds)
    (place : Nat) : Option.Rel related firsts[place]? seconds[place]? := by
  induction all generalizing place with
  | nil => exact .none
  | cons here _ inductionHypothesis =>
    cases place with
    | zero => exact .some here
    | succ place => exact inductionHypothesis place

/-! ### Operations that stay where they are -/

@[simp] theorem OperationId.moved_refl : OperationId.moved (Equiv.refl Nat) = Equiv.refl _ := rfl

@[simp] theorem Operand.moved_refl : Operand.moved (Equiv.refl Nat) = Equiv.refl _ := rfl

@[simp] theorem Dependence.moved_refl : Dependence.moved (Equiv.refl Nat) = Equiv.refl _ := by
  ext1 dependence
  cases dependence <;> rfl

theorem Operation.moved_refl (node : Operation) : node.moved (Equiv.refl Nat) = node := by
  simp [Operation.moved]

@[simp] theorem Assignment.moved_refl {Key Value : Type} (assignment : Assignment Key Value) :
    assignment.moved (Equiv.refl Key) = assignment := by
  ext1 key
  exact assignment.get?_moved (Equiv.refl Key) key

theorem Problem.moved_refl (problem : Problem) : problem.moved (Equiv.refl Nat) = problem := by
  have operations :
      (problem.moved (Equiv.refl Nat)).operations = problem.operations := by
    refine List.ext_getElem? fun place => ?_
    have here : (problem.moved (Equiv.refl Nat)).operations[place]? =
        problem.operations[place]?.map (Operation.moved (Equiv.refl Nat)) :=
      Problem.getElem?_moved (fun _ => Iff.rfl) place
    rw [here, funext Operation.moved_refl, Option.map_id']
  ext1 <;> first | exact operations | simp [Problem.moved]

namespace Instance

theorem corresponds_of_renamedTo {values symbols : String → String} {document renamed : Instance}
    (valuesInjective : Function.Injective values) (symbolsInjective : Function.Injective symbols)
    (fixed : ∀ declaration ∈ document.operatorTypes, symbols declaration.name = declaration.name)
    (related : document.RenamedTo values symbols renamed) :
    document.Corresponds (Equiv.refl Nat) values symbols renamed where
  name := related.name
  problem := related.problem
  properties := related.properties
  operatorTypes := related.operatorTypes
  length := related.operations.length_eq.symm
  operations := optionRel_getElem?_of_forall₂ related.operations
  valuesInjective := valuesInjective
  symbolsInjective := symbolsInjective
  fixed := fixed

/-- What values and operations are called and what dictionaries say does not matter to loading, as
long as different names stay different and operator types keep theirs. -/
theorem load_renamed {kinds : ProblemKinds} (builtIn : kinds.BuiltIn)
    {values symbols : String → String} (valuesInjective : Function.Injective values)
    (symbolsInjective : Function.Injective symbols) {document renamed : Instance}
    (fixed : ∀ declaration ∈ document.operatorTypes, symbols declaration.name = declaration.name)
    (related : document.RenamedTo values symbols renamed) {problem : Problem} :
    renamed.load kinds = .ok problem ↔ document.load kinds = .ok problem := by
  have corresponds :=
    corresponds_of_renamedTo valuesInjective symbolsInjective fixed related
  simp only [corresponds.load_moved_eq_ok_iff builtIn, Problem.moved_refl, exists_eq_right']

/-- The operations of `threaded` with one value called like the operator type, two operations with
their names exchanged and other dictionaries. -/
def rethreaded : Instance :=
  { threaded with
    operations := [
      ⟨["add"], some "early", ["add", "last"],
        [⟨.operand 0, some [.ofNumber "distance" 1]⟩, ⟨.named 2 "middle", none⟩],
        some [.ofLink ⟨"add"⟩], [⟨"late", some (.integer 3)⟩, ⟨"add", none⟩]⟩,
      ⟨["first", "last"], some "late", [], [], some [.ofNumber "start_time" 4], []⟩,
      ⟨[], some "middle", ["add"], [⟨.named 1 "late", some [.ofNumber "distance" 3]⟩], none, []⟩] }

theorem load_renamed_rethreaded :
    ProblemKinds.modulo.BuiltIn ∧
      threaded.RenamedTo (Equiv.swap "sum" "add") (Equiv.swap "late" "middle") rethreaded ∧
      ∃ problem, threaded.load .modulo = .ok problem ∧ rethreaded.load .modulo = .ok problem ∧
        problem.allDependences =
          [.data ⟨0⟩ 0 ⟨0⟩ 0, .data ⟨1⟩ 1 ⟨0⟩ 1, .auxiliary ⟨2⟩ ⟨0⟩, .data ⟨0⟩ 0 ⟨2⟩ 0,
            .auxiliary ⟨1⟩ ⟨2⟩] ∧
        problem.link ⟨0⟩ = some ⟨"add"⟩ ∧ problem.startTime ⟨1⟩ = some 4 ∧
        problem.distance (.auxiliary ⟨1⟩ ⟨2⟩) = some 3 := by
  have known : ProblemKinds.ofProblemName? "ModuloProblem" = some .modulo := rfl
  have builtIn := ProblemKinds.builtIn_of_ofProblemName? known
  have loadable : threaded.Loadable .modulo := by decide
  have loads := (threaded.load_eq_ok_iff builtIn).mpr ⟨loadable, rfl⟩
  have related :
      threaded.RenamedTo (Equiv.swap "sum" "add") (Equiv.swap "late" "middle") rethreaded :=
    ⟨rfl, rfl, rfl, rfl, .cons ⟨by decide, by decide, by decide, by decide, by decide⟩
      (.cons ⟨by decide, by decide, by decide, by decide, by decide⟩
        (.cons ⟨by decide, by decide, by decide, by decide, by decide⟩ .nil))⟩
  exact ⟨builtIn, related, _, loads,
    (load_renamed builtIn (Equiv.injective _) (Equiv.injective _) (by decide) related).mpr loads,
    by decide, by decide, by decide, by decide⟩

end Instance

end StaticScheduling
