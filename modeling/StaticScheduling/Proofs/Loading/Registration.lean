import StaticScheduling.Proofs.Loading.Loaded
import StaticScheduling.Proofs.Problem.Readiness

/-! # Operator types of loaded problems

Latencies and limits are stated where an operator type is declared, so a loaded
problem has none for an operator type that it does not know.  A link may be to
anything.  Verification reads the symbols in the links of a document, loading
reads the only parameter of the last one; the operator type of a loaded link is
among those symbols, and so it is declared if the document is verified.
-/

namespace StaticScheduling

/-- The operator type that loading reads from a link is one of the symbols that verification reads
there. -/
theorem OperationDecl.mem_linkTargets_of_link? {declaration : OperationDecl} {property : Property}
    (member : property ∈ declaration.properties.getD []) {operatorType : OperatorType}
    (link : property.link? = some operatorType) :
    operatorType.name ∈ declaration.linkTargets := by
  cases Property.ofLink_of_link? link
  exact mem_linkTargets.mpr ⟨_, member, rfl, .head _⟩

namespace Instance

variable {document : Instance} {kinds : ProblemKinds}

theorem hasOperatorType_meaning_iff {operatorType : OperatorType} :
    document.meaning.hasOperatorType operatorType ↔
      operatorType.name ∈ document.operatorTypes.map OperatorTypeDecl.name :=
  document.hasOperatorType_withOperatorTypes document.operatorTypes operatorType.name

/-- Only registered operator types have properties. -/
theorem mem_operatorTypes_meaning {Value : Type} {read : Property → Option Value}
    {operatorType : OperatorType}
    (found : (Property.last? read (propertiesOf document.operatorTypes operatorType)).isSome) :
    operatorType ∈ document.meaning.operatorTypes := by
  obtain ⟨value, last⟩ := Option.isSome_iff_exists.mp found
  obtain ⟨property, stated, _⟩ := Property.exists_of_last? last
  obtain ⟨declaration, kept, _⟩ := List.mem_flatMap.mp stated
  obtain ⟨member, same⟩ := List.mem_filter.mp kept
  exact List.mem_map.mpr ⟨declaration, member, congrArg OperatorType.mk (of_decide_eq_true same)⟩

/-- In a verified document operations are linked to operator types that are registered. -/
theorem Verified.hasOperatorType_of_link (verified : document.Verified) {operation : OperationId}
    {operatorType : OperatorType} (linked : document.meaning.link operation = some operatorType) :
    document.meaning.hasOperatorType operatorType := by
  obtain ⟨declaration, inside, last⟩ := Option.bind_eq_some_iff.mp linked
  obtain ⟨property, member, link⟩ := Property.exists_of_last? last
  have resolvable := verified.operations declaration (List.mem_of_getElem? inside)
  exact hasOperatorType_meaning_iff.mpr
    (resolvable.targets _ (OperationDecl.mem_linkTargets_of_link? member link))

/-- In the problem that a verified document loads to, operations are linked to registered operator
types, latencies and limits are those of registered operator types, and no operation is named like
one of these.  So a check never complains of an operator type that is not registered. -/
theorem registered_of_verify_load (builtIn : kinds.BuiltIn) {problem : Problem}
    (verifies : document.verify = .ok ()) (loads : document.load kinds = .ok problem) :
    (∀ operation operatorType, problem.link operation = some operatorType →
      problem.hasOperatorType operatorType) ∧
    (∀ operatorType, (problem.latency operatorType).isSome ∨ (problem.limit operatorType).isSome →
      problem.hasOperatorType operatorType) ∧
    (∀ declaration ∈ document.operations, ∀ name, declaration.name = some name →
      ¬ problem.hasOperatorType ⟨name⟩) ∧
    ∀ operation operatorType,
      problem.check ≠ .error (.unregisteredOperatorType operation operatorType) := by
  have verified := verify_eq_ok_iff.mp verifies
  obtain ⟨loadable, rfl⟩ := (document.load_eq_ok_iff builtIn).mp loads
  have links (operation : OperationId) (operatorType : OperatorType)
      (linked : document.meaning.link operation = some operatorType) :
      document.meaning.hasOperatorType operatorType := verified.hasOperatorType_of_link linked
  refine ⟨links, ?_, ?_, ?_⟩
  · rintro operatorType (found | found)
    · exact decide_eq_true (mem_operatorTypes_meaning found)
    · exact decide_eq_true (mem_operatorTypes_meaning found)
  · intro declaration member name named registered
    have isName : name ∈ document.names := List.mem_filterMap.mpr ⟨declaration, member, named⟩
    exact loadable.apart name isName (hasOperatorType_meaning_iff.mp registered)
  · intro operation operatorType fails
    obtain ⟨linked, unknown⟩ := Problem.link_of_check_unregistered fails
    exact unknown (links operation operatorType linked)

/-- Two operations, the first one linked twice, the second one to an operator type without a
latency. -/
def relinked (target : String) : Instance where
  name := "relinked"
  problem := "ModuloProblem"
  properties := none
  operatorTypes := [⟨"add", some [.ofNumber "latency" 1, .ofNumber "limit" 2]⟩,
    ⟨"mul", some [.ofNumber "limit" 1]⟩]
  operations := [
    ⟨["x"], some "first", ["y"], [], some [.ofLink ⟨"mul"⟩, .ofLink ⟨target⟩], []⟩,
    ⟨["y"], none, [], [], some [.ofLink ⟨"mul"⟩], []⟩]

/-- With a link to a declared operator type the document is verified.  Without one it loads all the
same, and the check of the problem complains. -/
theorem registered_of_verify_load_relinked :
    ProblemKinds.modulo.BuiltIn ∧ (relinked "add").verify = .ok () ∧
      (∃ problem, (relinked "add").load .modulo = .ok problem ∧
        problem.link ⟨0⟩ = some ⟨"add"⟩ ∧ problem.hasOperatorType ⟨"add"⟩ ∧
        ¬ problem.hasOperatorType ⟨"first"⟩ ∧ problem.check = .error (.missingLatency ⟨"mul"⟩)) ∧
      (relinked "first").verify ≠ .ok () ∧
      ∃ problem, (relinked "first").load .modulo = .ok problem ∧
        problem.check = .error (.unregisteredOperatorType ⟨0⟩ ⟨"first"⟩) := by
  have known : ProblemKinds.ofProblemName? "ModuloProblem" = some .modulo := rfl
  have builtIn := ProblemKinds.builtIn_of_ofProblemName? known
  have verifies : (relinked "add").verify = .ok () := rfl
  have loads : (relinked "add").load .modulo = .ok (relinked "add").meaning :=
    (load_eq_ok_iff _ builtIn).mpr ⟨by decide, rfl⟩
  have dangles : (relinked "first").load .modulo = .ok (relinked "first").meaning :=
    (load_eq_ok_iff _ builtIn).mpr ⟨by decide, rfl⟩
  have unknown : (relinked "first").meaning.check =
      .error (.unregisteredOperatorType ⟨0⟩ ⟨"first"⟩) := rfl
  obtain ⟨links, _, names, _⟩ := registered_of_verify_load builtIn verifies loads
  refine ⟨builtIn, verifies, ⟨_, loads, rfl, links ⟨0⟩ _ rfl, names _ (.head _) "first" rfl, rfl⟩,
    ?_, _, dangles, unknown⟩
  intro verifiesToo
  exact (registered_of_verify_load builtIn verifiesToo dangles).2.2.2 _ _ unknown

end Instance

end StaticScheduling
