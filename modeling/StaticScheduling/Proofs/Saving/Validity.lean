import StaticScheduling.Proofs.Instance.Printable
import StaticScheduling.Proofs.Saving.Identity
import StaticScheduling.Proofs.Verification

/-! # Saved documents are valid

A saved document can be written and read back, and it passes verification unless
an operation is linked to an operator type that is not registered.
-/

namespace StaticScheduling

open PropertyKind (encode Carries)

/-! ## Written properties -/

namespace Property

variable {limit : Nat} (positive : 0 < limit)

include positive

theorem printable_ofNumber {mnemonic : String} (named : IsNamePart mnemonic) (number : UInt32) :
    (ofNumber mnemonic number).Printable limit := by
  have dialect : isIdentifier schedulingDialect ∧ '.' ∉ schedulingDialect.toList := by decide
  exact ⟨⟨⟨dialect.1, dialect.2, named⟩, trivial, trivial⟩, positive⟩

theorem printable_ofLink (operatorType : OperatorType) : (ofLink operatorType).Printable limit := by
  have writable : (TokenKind.attribute schedulingDialect "link").Writable := by decide
  exact ⟨⟨writable, trivial, trivial⟩, positive⟩

end Property

namespace PropertyKind

variable {Point Value : Type} {kind : PropertyKind Point} {kinds : List (PropertyKind Point)}
  {read : Property → Option Value} {write : Value → Property}
  {get : Problem → Point → Option Value} {problem : Problem} {point : Point} {limit : Nat}

theorem mem_encode {property : Property} :
    property ∈ (encode kinds problem point).getD [] ↔
      ∃ kind ∈ kinds, kind.query problem point = some property := by
  rw [getD_encode, List.mem_filterMap]

theorem listPrintable_encode (printable : ∀ kind ∈ kinds, ∀ property,
      kind.query problem point = some property → property.Printable limit) :
    Property.ListPrintable limit (encode kinds problem point) := by
  intro property member
  obtain ⟨kind, present, query⟩ := mem_encode.mp member
  exact printable kind present property query

theorem Carries.printable_query (carries : kind.Carries read write get)
    (printable : ∀ value, (write value).Printable limit) (property : Property)
    (query : kind.query problem point = some property) : property.Printable limit := by
  rw [carries.query] at query
  obtain ⟨value, _, rfl⟩ := Option.map_eq_some_iff.mp query
  exact printable value

end PropertyKind

namespace ProblemKinds.BuiltIn

open PropertyKind

variable {kinds : ProblemKinds} (builtIn : kinds.BuiltIn) (problem : Problem) {limit : Nat}
  (positive : 0 < limit)

include builtIn positive

theorem listPrintable_problem :
    Property.ListPrintable limit (encode kinds.problem problem ()) := by
  apply listPrintable_encode
  intro kind member
  cases builtIn.problem kind member
  exact initiationInterval_carries.printable_query
    (Property.printable_ofNumber positive (by decide))

theorem listPrintable_operatorType (operatorType : OperatorType) :
    Property.ListPrintable limit (encode kinds.operatorType problem operatorType) := by
  apply listPrintable_encode
  intro kind member
  rcases builtIn.operatorType kind member with rfl | rfl
  · exact latency_carries.printable_query (Property.printable_ofNumber positive (by decide))
  · exact limit_carries.printable_query (Property.printable_ofNumber positive (by decide))

theorem listPrintable_operation (operation : OperationId) :
    Property.ListPrintable limit (encode kinds.operation problem operation) := by
  apply listPrintable_encode
  intro kind member
  rcases builtIn.operation kind member with rfl | rfl
  · exact link_carries.printable_query (Property.printable_ofLink positive)
  · exact startTime_carries.printable_query (Property.printable_ofNumber positive (by decide))

theorem listPrintable_dependence (dependence : Dependence) :
    Property.ListPrintable limit (encode kinds.dependence problem dependence) := by
  apply listPrintable_encode
  intro kind member
  cases builtIn.dependence kind member
  exact distance_carries.printable_query (Property.printable_ofNumber positive (by decide))

end ProblemKinds.BuiltIn

namespace Problem

variable {problem : Problem} {kinds : ProblemKinds} {names : NameTable}
  {instanceName problemName : String} (builtIn : kinds.BuiltIn)

include builtIn

/-! ## Saved documents can be read back -/

theorem printable_declarationOf {limit : Nat} (positive : 0 < limit) (position : Nat)
    (node : Operation) : (declarationOf problem kinds names position node).Printable limit where
  results := by
    intro name member
    obtain ⟨result, _, rfl⟩ := List.mem_map.mp member
    exact isNamePart_toString _
  operands := by
    intro name member
    obtain ⟨operand, _, rfl⟩ := List.mem_map.mp member
    exact isNamePart_toString _
  inOrder := recordFault?_declarationOf position node
  marked := by
    intro record member
    rcases List.mem_append.mp member with member | member
    · -- a record of an operand is only written for properties
      obtain ⟨mark, marked, rfl⟩ := List.mem_map.mp member
      obtain ⟨_, properties, _, _, written⟩ := mem_operandMarks.mp marked
      exact .inr (Option.isSome_iff_exists.mpr ⟨properties, written⟩)
    · exact .inl (DependenceRecord.isNamed_of_mem_ofSources member)
  records := by
    intro record member
    obtain ⟨dependence, written⟩ := properties_of_mem_dependences member
    rw [written]
    exact builtIn.listPrintable_dependence problem positive dependence
  properties := builtIn.listPrintable_operation problem positive ⟨position⟩
  dictionary := nofun

/-- Whatever nesting the reader allows, a saved document is read back. -/
theorem printable_document {limit : Nat} (positive : 0 < limit) :
    (document problem kinds names instanceName problemName).Printable limit where
  properties := builtIn.listPrintable_problem problem positive
  operatorTypes := by
    intro declaration member
    obtain ⟨operatorType, _, rfl⟩ := List.mem_map.mp member
    exact builtIn.listPrintable_operatorType problem positive operatorType
  operations := by
    intro declaration member
    obtain ⟨position, inside, rfl⟩ := List.mem_mapIdx.mp member
    exact printable_declarationOf builtIn positive position _

/-! ## Saved documents pass verification -/

/-- The only link target in a saved operation is the operator type it is linked to. -/
theorem mem_linkTargets_declarationOf {position : Nat} {node : Operation} {name : String} :
    name ∈ (declarationOf problem kinds names position node).linkTargets ↔
      PropertyKind.link ∈ kinds.operation ∧ problem.link ⟨position⟩ = some ⟨name⟩ := by
  rw [OperationDecl.mem_linkTargets]
  constructor
  · rintro ⟨property, member, isLink, target⟩
    obtain ⟨kind, present, query⟩ := PropertyKind.mem_encode.mp member
    -- a start time is no link
    rcases builtIn.operation kind present with rfl | rfl
    · obtain ⟨operatorType, linked, rfl⟩ := Option.map_eq_some_iff.mp query
      cases List.mem_singleton.mp target
      exact ⟨present, linked⟩
    · obtain ⟨number, _, rfl⟩ := Option.map_eq_some_iff.mp query
      cases List.mem_singleton.mp target
  · rintro ⟨present, linked⟩
    refine ⟨Property.ofLink ⟨name⟩, PropertyKind.mem_encode.mpr ⟨_, present, ?_⟩, rfl, .head _⟩
    rw [PropertyKind.link_carries.query, linked, Option.map_some]

variable {supplied : OperationId → Option String}

/-- A saved document passes verification unless links are written and one of them is to an operator
type that is not registered. -/
theorem verified_document_iff (wellFormed : problem.WellFormed)
    (named : names.Names problem supplied) :
    (document problem kinds names instanceName problemName).Verified ↔
      (PropertyKind.link ∈ kinds.operation → ∀ operation operatorType,
        problem.link operation = some operatorType → problem.hasOperatorType operatorType) := by
  have loadable : (document problem kinds names instanceName problemName).Loadable kinds :=
    loadable_document wellFormed named builtIn
  -- the operator types of a saved document are those of the problem
  have registered {name : String} :
      name ∈ (document problem kinds names instanceName problemName).operatorTypes.map
        OperatorTypeDecl.name ↔ problem.hasOperatorType ⟨name⟩ := by
    rw [hasOperatorType, decide_eq_true_eq, document, List.map_map, List.mem_map]
    constructor
    · rintro ⟨_, member, rfl⟩
      exact member
    · intro member
      exact ⟨_, member, rfl⟩
  constructor
  · intro verified written operation operatorType linked
    obtain ⟨node, known⟩ := hasOperation_iff.mp
      (wellFormed.links operation (by rw [linked, Option.isSome_some]))
    have inside : (document problem kinds names instanceName problemName).operations[
        operation.index]? = some (declarationOf problem kinds names operation.index node) := by
      rw [getElem?_document, known, Option.map_some]
    have resolvable := verified.operations _ (List.mem_of_getElem? inside)
    exact registered.mp (resolvable.targets operatorType.name
      ((mem_linkTargets_declarationOf builtIn).mpr ⟨written, linked⟩))
  · intro linked
    -- names and records are in order as in any loadable document, only links may dangle
    refine ⟨loadable.nodup_symbols, loadable.values, ?_⟩
    intro declaration member
    have connectable := loadable.connectable declaration member
    refine ⟨connectable.operands, connectable.records, connectable.sources, ?_⟩
    intro name target
    obtain ⟨position, inside, rfl⟩ := List.mem_mapIdx.mp member
    obtain ⟨written, toType⟩ := (mem_linkTargets_declarationOf builtIn).mp target
    exact registered.mpr (linked written _ _ toType)

end Problem

/-! ## Saving fails only over names -/

/-- A document in which everything that is used is defined, once, and in which all records are in
order.  Only links may be to something else than what is defined. -/
structure Instance.SelfContained (document : Instance) : Prop where
  records : ∀ declaration ∈ document.operations, ∀ label,
    checkRecords label declaration.operands.length declaration.dependences = .ok ()
  values : document.values.Nodup
  operands : ∀ declaration ∈ document.operations, ∀ name ∈ declaration.operands,
    name ∈ document.values
  symbols : document.symbols.Nodup
  sources : ∀ declaration ∈ document.operations, ∀ name ∈ declaration.sources,
    name ∈ document.names

theorem Instance.Loadable.selfContained {document : Instance} {kinds : ProblemKinds}
    (loadable : document.Loadable kinds) : document.SelfContained where
  records declaration member _ :=
    checkRecords_eq_ok_iff.mpr (loadable.connectable declaration member).records
  values := loadable.values
  operands declaration member := (loadable.connectable declaration member).operands
  symbols := loadable.nodup_symbols
  sources declaration member := (loadable.connectable declaration member).sources

namespace Problem

/-- Saving fails exactly where a name clashes, and says so.  Otherwise the document is
self-contained, and it passes verification unless links are written and one of them is to an operator
type that is not registered. -/
theorem save_selfContained {problem : Problem} (reachable : problem.Reachable)
    {kinds : ProblemKinds} (builtIn : kinds.BuiltIn) (instanceName problemName stem : String)
    (supplied : OperationId → Option String) :
    ((∃ error, problem.save instanceName problemName supplied kinds stem = .error error) ↔
      ∃ name, NameTable.Clashes problem supplied name) ∧
    (∀ error, problem.save instanceName problemName supplied kinds stem = .error error →
      ∃ name, error = .duplicateName name ∧ NameTable.Clashes problem supplied name) ∧
    ∀ saved, problem.save instanceName problemName supplied kinds stem = .ok saved →
      saved.SelfContained ∧
        (saved.verify = .ok () ↔ PropertyKind.link ∉ kinds.operation ∨
          ∀ operation operatorType, problem.link operation = some operatorType →
            problem.hasOperatorType operatorType) := by
  have wellFormed := reachable.wellFormed
  have reason {error : DocumentError}
      (fails : problem.save instanceName problemName supplied kinds stem = .error error) :
      ∃ name, error = .duplicateName name ∧ NameTable.Clashes problem supplied name :=
    NameTable.clashes_of_build ((save_eq_error_iff wellFormed).mp fails)
  refine ⟨⟨?_, ?_⟩, fun error fails => reason fails, ?_⟩
  · rintro ⟨error, fails⟩
    obtain ⟨name, _, clashes⟩ := reason fails
    exact ⟨name, clashes⟩
  · rintro ⟨name, clashes⟩
    cases saves : problem.save instanceName problemName supplied kinds stem with
    | error error => exact ⟨error, rfl⟩
    | ok saved =>
      obtain ⟨names, built, _⟩ := (save_eq_ok_iff wellFormed).mp saves
      exact absurd (NameTable.build_eq_ok_iff.mp built).1 clashes.not_fresh
  · intro saved saves
    obtain ⟨names, built, rfl⟩ := (save_eq_ok_iff wellFormed).mp saves
    have named := NameTable.names_of_build wellFormed built
    refine ⟨(loadable_document wellFormed named builtIn).selfContained, ?_⟩
    rw [Instance.verify_eq_ok_iff, verified_document_iff builtIn wellFormed named,
      imp_iff_not_or]

/-- The names of the tangled problem can be given, but a link is to an operator type that is not
registered.  Where an operation is to be named like an operator type, nothing is saved. -/
theorem save_selfContained_tangled :
    tangled.Reachable ∧ tangledKinds.BuiltIn ∧
      (tangled.save "saved" "Problem" tangledName tangledKinds "Op" = .ok tangledDocument ∧
        tangledDocument.SelfContained ∧ tangledDocument.verify ≠ .ok ()) ∧
      ∃ error, tangled.save "saved" "Problem" (fun _ => some "add") tangledKinds "Op" =
        .error error ∧ ∃ name, error = .duplicateName name ∧
          NameTable.Clashes tangled (fun _ => some "add") name := by
  have reachable : tangled.Reachable := ⟨"tangled", "CyclicProblem", _, rfl⟩
  have builtIn : tangledKinds.BuiltIn := by
    constructor <;> simp [tangledKinds]
  obtain ⟨selfContained, verifies⟩ :=
    (save_selfContained reachable builtIn "saved" "Problem" "Op" tangledName).2.2 _ save_tangled
  refine ⟨reachable, builtIn, ⟨save_tangled, selfContained, ?_⟩, ?_⟩
  · rw [ne_eq, verifies]
    rintro (absent | registered)
    · exact absent (by simp [tangledKinds])
    · exact absurd (registered ⟨1⟩ ⟨"missing"⟩ (by decide)) (by decide)
  · obtain ⟨decides, reason, _⟩ :=
      save_selfContained reachable builtIn "saved" "Problem" "Op" fun _ => some "add"
    have clashes : NameTable.Clashes tangled (fun _ => some "add") "add" :=
      .inr ⟨⟨0⟩, by decide, rfl, by decide⟩
    obtain ⟨error, fails⟩ := decides.mpr ⟨"add", clashes⟩
    exact ⟨error, fails, reason error fails⟩

end Problem

end StaticScheduling
