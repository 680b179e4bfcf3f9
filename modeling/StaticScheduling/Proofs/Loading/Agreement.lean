import StaticScheduling.Proofs.Loading.Connections

/-! # Verification and loading agree

Verification and loading go through a document separately, each in its own order
and with its own tables.  What verification accepts, loading only refuses for a
property that no kind accepts or for a dependence that is there already.  What
loading accepts, verification only refuses for the target of a link.
-/

namespace StaticScheduling

open PropertyKind (Accepted Interpreted decodeOptional)

/-! ## What is left to the other side -/

/-- An error that verification does not look for: a property without a meaning, or an auxiliary
dependence that is added twice. -/
def LeftToLoading (error : DocumentError) : Prop :=
  (∃ attachment property, error = .unrecognizedProperty attachment property) ∨
    ∃ context source destination, error = .model context (.duplicateDependence source destination)

namespace Instance

variable (document : Instance)

/-- An error that loading does not look for: a link of an operation to something that is no operator
type. -/
def LeftToVerification (error : DocumentError) : Prop :=
  ∃ (position : Nat) (declaration : OperationDecl) (name : String),
    document.operations[position]? = some declaration ∧
    name ∈ declaration.linkTargets ∧
    (error = .unknownReference (declaration.describe position) name .operatorType ∨
      error = .wrongReferenceKind (declaration.describe position) name .operatorType .operation)

/-- A document all of whose properties are accepted by some kind for what they are attached to. -/
structure PropertiesAccepted (kinds : ProblemKinds) : Prop where
  properties : Accepted kinds.problem document.properties
  operatorTypes : ∀ declaration ∈ document.operatorTypes,
    Accepted kinds.operatorType declaration.properties
  operations : ∀ declaration ∈ document.operations,
    Accepted kinds.operation declaration.properties
  dependences : ∀ declaration ∈ document.operations, ∀ record ∈ declaration.dependences,
    Accepted kinds.dependence record.properties

end Instance

/-! ## How steps of loading fail -/

theorem PropertyKind.Interpreted.leftToLoading {Point : Type} [AttachmentPoint Point]
    {kinds : List (PropertyKind Point)} {point : Point} {ready : Problem → Prop}
    {annotate : Problem → List Property → Problem}
    (interpreted : Interpreted kinds point ready annotate) {properties : Option (List Property)}
    {problem : Problem} (isReady : ready problem) :
    FailsOnly LeftToLoading (decodeOptional kinds point properties problem).toExcept := by
  refine (interpreted.failsOnly_decodeOptional isReady).mono ?_
  rintro error ⟨property, _, _, same⟩
  exact .inl ⟨_, property, same⟩

theorem failsOnly_within {Value : Type} {allowed : ProblemError → Prop}
    {result : Except ProblemError Value} (failsOnly : FailsOnly allowed result)
    (context : ModelContext) :
    FailsOnly (fun error => ∃ source, allowed source ∧ error = .model context source)
      (ProblemError.within result context) := by
  intro error fails
  cases result with
  | ok value => cases fails
  | error source =>
    cases fails
    exact ⟨source, failsOnly source rfl, rfl⟩

namespace Instance

section Loading

variable {document : Instance} {kinds : ProblemKinds}

/-- A record with known names stands for a dependence, which can only be there already. -/
theorem exists_recordDependence {label : String} {connected rest : List OperationDecl}
    {declaration : OperationDecl}
    (whole : document.operations.length = connected.length + 1 + rest.length)
    (defined : ∀ name ∈ declaration.operands, name ∈ document.values)
    (before : List DependenceRecord) {record : DependenceRecord}
    (inside : ∀ index, record.slot = .operand index → index < declaration.operands.length)
    (known : ∀ name ∈ (declaration.withRecords [record]).sources, name ∈ document.names) :
    ∃ dependence,
      Loading.recordDependence document label ⟨connected.length⟩
        (document.withDependences (connected ++ [declaration.withRecords before]) rest)
        record.slot = .ok dependence ∧
      FailsOnly (fun error => ∃ source destination, error = .duplicateDependence source destination)
        ((document.withDependences (connected ++ [declaration.withRecords before])
          rest).insertDependence dependence) := by
  cases slot : record.slot with
  | operand index =>
    obtain ⟨dependence, data, _⟩ :=
      document.exists_dataDependence connected rest before (inside index slot) defined
    refine ⟨dependence, ?_, .of_eq_ok (Problem.insertDependence_of_dataDependence data)⟩
    rw [Loading.recordDependence, data]
    rfl
  | named index name =>
    have member : name ∈ (declaration.withRecords [record]).sources := by
      simp [OperationDecl.sources_withRecords, slot, Slot.source?]
    obtain ⟨source, found⟩ := Option.isSome_iff_exists.mp
      (resolveOperation?_isSome_iff.mpr (known name member))
    have sourceRegistered :=
      document.hasOperation_of_resolveOperation? whole declaration before found
    have registered := Problem.hasOperation_iff.mpr ⟨_, (document.getElem?_withDependences connected
      rest (declaration.withRecords before)).2⟩
    refine ⟨.auxiliary source ⟨connected.length⟩, ?_, ?_⟩
    · rw [Loading.recordDependence, (document.resolveSource_eq_ok_iff).mpr found, ok_bind]
    · refine (Problem.failsOnly_insertDependence sourceRegistered registered).mono ?_
      rintro error rfl
      exact ⟨source, _, rfl⟩

variable (builtIn : kinds.BuiltIn)

include builtIn

theorem failsOnly_declareOperatorTypes (rest declared : List OperatorTypeDecl)
    (fresh : Fresh (declared.map OperatorTypeDecl.name) (rest.map OperatorTypeDecl.name)) :
    FailsOnly LeftToLoading
      (Loading.declareOperatorTypes kinds rest (document.withOperatorTypes declared)) := by
  induction rest generalizing declared with
  | nil => exact .of_eq_ok rfl
  | cons declaration rest inductionHypothesis =>
    obtain ⟨new, others⟩ := fresh_cons.mp fresh
    have unknown := mt (document.hasOperatorType_withOperatorTypes declared _).mp new
    simp only [Loading.declareOperatorTypes, Problem.insertOperatorType, if_neg unknown]
    refine ((builtIn.interpreted_operatorType _).leftToLoading trivial).bind ?_
    intro problem decoded
    obtain ⟨_, rfl⟩ := builtIn.decodeOptional_operatorType.mp decoded
    rw [withOperatorTypes_append]
    apply inductionHypothesis
    exact (fresh_map_concat _ declared declaration).mpr others

theorem failsOnly_declareOperations (rest declared : List OperationDecl)
    (names values : List String)
    (freshNames : Fresh (names ++ document.operatorTypes.map OperatorTypeDecl.name)
      (rest.filterMap OperationDecl.name))
    (freshValues : Fresh values (rest.flatMap OperationDecl.results)) :
    FailsOnly LeftToLoading
      (Loading.declareOperations kinds names values rest (document.withOperations declared)) := by
  induction rest generalizing declared names values with
  | nil => exact .of_eq_ok rfl
  | cons declaration rest inductionHypothesis =>
    rw [filterMap_name_cons, fresh_append, ← List.append_assoc] at freshNames
    rw [List.flatMap_cons, fresh_append] at freshValues
    obtain ⟨name, otherNames⟩ := freshNames
    obtain ⟨results, otherValues⟩ := freshValues
    rw [← names_operatorTypes_withOperations document declared] at name
    have registered := (document.withOperations declared).hasOperation_insertOperation
      declaration.results.length
    rw [Loading.declareOperations]
    refine .bind (.of_eq_ok (checkName_eq_ok_iff.mpr name)) fun _ _ => ?_
    refine .bind (.of_eq_ok (checkResults_eq_ok_iff.mpr results)) fun _ _ => ?_
    refine ((builtIn.interpreted_operation _).leftToLoading registered).bind ?_
    intro problem decoded
    obtain ⟨_, rfl⟩ := (builtIn.decodeOptional_operation registered).mp decoded
    rw [withOperations_append]
    exact inductionHypothesis _ _ _ otherNames otherValues

theorem failsOnly_addRecord {label : String} {operation : OperationId} {problem : Problem}
    {record : DependenceRecord} {dependence : Dependence}
    (recorded :
      Loading.recordDependence document label operation problem record.slot = .ok dependence)
    (inserted : FailsOnly
      (fun error => ∃ source destination, error = .duplicateDependence source destination)
      (problem.insertDependence dependence)) :
    FailsOnly LeftToLoading
      (Loading.addRecord document kinds label operation problem record) := by
  rw [Loading.addRecord, recorded, ok_bind]
  refine FailsOnly.bind ((failsOnly_within inserted _).mono ?_) ?_
  · rintro _ ⟨_, ⟨source, destination, rfl⟩, rfl⟩
    exact .inr ⟨_, source, destination, rfl⟩
  · intro changed performed
    have contained := Problem.containsDependence_of_insertDependence
      (within_eq_ok_iff.mp performed)
    exact (builtIn.interpreted_dependence dependence).leftToLoading contained

/-- Adding the records that are left of an operation. -/
theorem failsOnly_foldlM_addRecord {label : String} {connected rest : List OperationDecl}
    {declaration : OperationDecl}
    (whole : document.operations.length = connected.length + 1 + rest.length)
    (defined : ∀ name ∈ declaration.operands, name ∈ document.values)
    (records before : List DependenceRecord)
    (inside : ∀ record ∈ records, ∀ index, record.slot = .operand index →
      index < declaration.operands.length)
    (known : ∀ name ∈ (declaration.withRecords records).sources, name ∈ document.names) :
    FailsOnly LeftToLoading
      (records.foldlM (Loading.addRecord document kinds label ⟨connected.length⟩)
        (document.withDependences (connected ++ [declaration.withRecords before]) rest)) := by
  -- a source may be named twice here, but then there is no problem to go on with
  induction records generalizing before with
  | nil => exact .of_eq_ok rfl
  | cons record records inductionHypothesis =>
    obtain ⟨insideHere, insideOthers⟩ := List.forall_mem_cons.mp inside
    rw [OperationDecl.sources_withRecords_cons, List.forall_mem_append] at known
    obtain ⟨knownHere, knownOthers⟩ := known
    rw [List.foldlM_cons]
    refine FailsOnly.bind ?_ ?_
    · obtain ⟨dependence, recorded, inserted⟩ :=
        exists_recordDependence whole defined before insideHere knownHere
      exact failsOnly_addRecord builtIn recorded inserted
    · intro problem added
      obtain ⟨_, _, _, rfl⟩ :=
        (addRecord_eq_ok_iff builtIn whole defined before insideHere).mp added
      exact inductionHypothesis (before ++ [record]) insideOthers knownOthers

theorem failsOnly_connectOperation {connected rest : List OperationDecl}
    {declaration : OperationDecl}
    (whole : document.operations = connected ++ declaration :: rest)
    (resolvable : document.Resolvable declaration) :
    FailsOnly LeftToLoading
      (Loading.connectOperation document kinds
        (document.withDependences connected (declaration :: rest)) declaration
        connected.length) := by
  have length : document.operations.length = connected.length + 1 + rest.length := by
    rw [whole, List.length_append, List.length_cons]
    omega
  have operands : declaration.operands.mapM
      (Loading.resolveOperand document (declaration.describe connected.length)) =
        .ok (declaration.operands.filterMap document.resolveValue?) :=
    (document.mapM_resolveOperand_eq_ok_iff).mpr ⟨resolvable.operands, rfl⟩
  rw [Loading.connectOperation, operands, ok_bind, document.setOperands_withDependences whole,
    ProblemError.within, ok_bind, checkRecords_eq_ok_iff.mpr resolvable.records, ok_bind]
  exact failsOnly_foldlM_addRecord builtIn length resolvable.operands declaration.dependences []
    (operand_lt_of_recordFault? resolvable.records) resolvable.sources

/-- Connecting the operations that are left. -/
theorem failsOnly_foldlM_connectOperation (rest connected : List OperationDecl)
    (whole : document.operations = connected ++ rest)
    (resolvable : ∀ declaration ∈ rest, document.Resolvable declaration) :
    FailsOnly LeftToLoading
      ((rest.zipIdx connected.length).foldlM
        (fun problem entry => Loading.connectOperation document kinds problem entry.1 entry.2)
        (document.withDependences connected rest)) := by
  induction rest generalizing connected with
  | nil => exact .of_eq_ok rfl
  | cons declaration rest inductionHypothesis =>
    obtain ⟨here, others⟩ := List.forall_mem_cons.mp resolvable
    rw [List.zipIdx_cons, List.foldlM_cons]
    refine (failsOnly_connectOperation builtIn whole here).bind ?_
    intro problem connects
    obtain ⟨_, rfl⟩ := (connectOperation_eq_ok_iff builtIn whole).mp connects
    have next := inductionHypothesis (connected ++ [declaration])
      (by rw [whole, List.append_assoc, List.singleton_append]) others
    rw [List.length_append, List.length_singleton] at next
    exact next

/-- What is verified is only refused for what verification does not look for. -/
theorem Verified.failsOnly_load (verified : document.Verified) :
    FailsOnly LeftToLoading (document.load kinds) := by
  obtain ⟨typeNames, names, apart⟩ := List.nodup_append.mp verified.symbols
  have freshNames : Fresh (document.operatorTypes.map OperatorTypeDecl.name) document.names :=
    ⟨names, fun name member declared => apart name declared name member rfl⟩
  rw [load]
  -- each stage starts from the problem that the one before it has to answer
  refine (builtIn.interpreted_problem.leftToLoading trivial).bind ?_
  intro start decoded
  obtain ⟨_, rfl⟩ := builtIn.decodeOptional_problem.mp decoded
  rw [annotateInstance_empty]
  refine (failsOnly_declareOperatorTypes builtIn document.operatorTypes []
    (fresh_of_nothing.mpr typeNames)).bind ?_
  intro withTypes declared
  obtain ⟨_, _, rfl⟩ := (document.declareOperatorTypes_eq_ok_iff builtIn _ []).mp declared
  refine (failsOnly_declareOperations builtIn document.operations [] [] [] freshNames
    (fresh_of_nothing.mpr verified.values)).bind ?_
  intro withOperations declared
  obtain ⟨_, _, _, rfl⟩ := (document.declareOperations_eq_ok_iff builtIn _ [] [] []).mp declared
  exact failsOnly_foldlM_connectOperation builtIn document.operations [] rfl verified.operations

end Loading

/-! ## How verification fails -/

theorem failsOnly_resolve (table : SymbolTable) (referrer name : String) :
    FailsOnly
      (fun error => error = .unknownReference referrer name .operatorType ∨
        error = .wrongReferenceKind referrer name .operatorType .operation)
      (table.resolve referrer name .operatorType) := by
  rw [SymbolTable.resolve]
  cases table.lookup name with
  | none =>
    rintro error fails
    cases fails
    exact .inl rfl
  | some found =>
    cases found with
    | operatorType => exact .of_eq_ok (if_pos rfl)
    | operation =>
      intro error fails
      cases fails
      exact .inr rfl

/-- What is loadable is only refused for what loading does not look for. -/
theorem Loadable.failsOnly_verify {document : Instance} {kinds : ProblemKinds}
    (loadable : document.Loadable kinds) :
    FailsOnly document.LeftToVerification document.verify := by
  have distinct := loadable.nodup_symbols
  have values := firstRepeated?_eq_none_iff.mpr (fresh_of_nothing.mpr loadable.values)
  simp only [verify, ofInstance_eq_ok_iff.mpr ⟨distinct, rfl⟩, values, ok_bind]
  apply FailsOnly.forM
  rintro ⟨declaration, position⟩ member
  have inside := List.mem_zipIdx_iff_getElem?.mp member
  have connectable := loadable.connectable declaration (List.mem_of_getElem? inside)
  have operands : (declaration.operands.find? fun name => name ∉ document.values) = none := by
    simpa [List.find?_eq_none] using connectable.operands
  have sources : (declaration.sources.forM fun source =>
      (SymbolTable.mk (SymbolTable.definitions document)).resolve (declaration.describe position)
        source .operation) = .ok () := by
    simp only [forM_eq_ok_iff, SymbolTable.resolve_eq_ok_iff, lookup_operation distinct]
    exact connectable.sources
  simp only [verifyOperation, operands, checkRecords_eq_ok_iff.mpr connectable.records, sources,
    ok_bind]
  apply FailsOnly.forM
  intro name target
  refine (failsOnly_resolve _ _ _).mono ?_
  intro error isLink
  exact ⟨position, declaration, name, inside, target, isLink⟩

/-! ## Agreement -/

/-- For a verified document, loading depends on what is left to it. -/
theorem Verified.loadable_iff {document : Instance} {kinds : ProblemKinds}
    (verified : document.Verified) :
    document.Loadable kinds ↔
      document.PropertiesAccepted kinds ∧
        ∀ declaration ∈ document.operations, declaration.sources.Nodup := by
  constructor
  · intro loadable
    refine ⟨⟨loadable.properties, loadable.operatorTypeProperties, loadable.operationProperties,
      fun declaration member => (loadable.connectable declaration member).accepted⟩, ?_⟩
    intro declaration member
    exact (loadable.connectable declaration member).distinct
  · rintro ⟨accepted, distinct⟩
    obtain ⟨typeNames, names, apart⟩ := List.nodup_append.mp verified.symbols
    refine ⟨accepted.properties, typeNames, accepted.operatorTypes, names,
      fun name member declared => apart name declared name member rfl, verified.values,
      accepted.operations, ?_⟩
    intro declaration member
    have resolvable := verified.operations declaration member
    exact ⟨resolvable.operands, resolvable.records, resolvable.sources,
      distinct declaration member, accepted.dependences declaration member⟩

/-- A verified document loads if its properties are accepted and no operation names a source twice,
and loading looks at nothing else.  A document that loads is verified up to the targets of its
links. -/
theorem verify_load_agree (document : Instance) {kinds : ProblemKinds} (builtIn : kinds.BuiltIn) :
    (document.verify = .ok () →
      ((∃ problem, document.load kinds = .ok problem) ↔
        document.PropertiesAccepted kinds ∧
          ∀ declaration ∈ document.operations, declaration.sources.Nodup) ∧
      ∀ error, document.load kinds = .error error → LeftToLoading error) ∧
    ((∃ problem, document.load kinds = .ok problem) →
      ∀ error, document.verify = .error error → document.LeftToVerification error) := by
  have loads : (∃ problem, document.load kinds = .ok problem) ↔ document.Loadable kinds := by
    simp only [load_eq_ok_iff document builtIn, exists_and_left, exists_eq, and_true]
  rw [loads]
  constructor
  · intro accepted
    have verified := verify_eq_ok_iff.mp accepted
    exact ⟨verified.loadable_iff, verified.failsOnly_load builtIn⟩
  · intro loadable
    exact loadable.failsOnly_verify

/-- A verified document in which an operation depends on the other one twice. -/
def repeating : Instance where
  name := "repeating"
  problem := "ModuloProblem"
  properties := some [.ofNumber "II" 2]
  operatorTypes := [⟨"unit", some [.ofNumber "latency" 1]⟩]
  operations := [
    ⟨["x"], some "first", ["x"], [⟨.operand 0, some [.ofNumber "distance" 1]⟩],
      some [.ofLink ⟨"unit"⟩], []⟩,
    ⟨[], none, ["x"], [⟨.named 1 "first", none⟩, ⟨.named 2 "first", none⟩],
      some [.ofLink ⟨"unit"⟩], []⟩]

/-- A document that loads, with a link to one of its operations. -/
def crossed : Instance where
  name := "crossed"
  problem := "ModuloProblem"
  properties := none
  operatorTypes := []
  operations := [⟨["x"], some "first", [], [], some [.ofLink ⟨"first"⟩], []⟩]

theorem verify_load_agree_repeating_crossed :
    (repeating.verify = .ok () ∧
      repeating.load .modulo =
        .error (.model (.dependenceOf 2 "operation #1") (.duplicateDependence ⟨0⟩ ⟨1⟩)) ∧
      LeftToLoading (.model (.dependenceOf 2 "operation #1") (.duplicateDependence ⟨0⟩ ⟨1⟩)) ∧
      ¬ (repeating.PropertiesAccepted .modulo ∧
        ∀ declaration ∈ repeating.operations, declaration.sources.Nodup)) ∧
    (∃ problem, crossed.load .modulo = .ok problem) ∧
      crossed.verify = .error (.wrongReferenceKind "@first" "first" .operatorType .operation) ∧
      crossed.LeftToVerification
        (.wrongReferenceKind "@first" "first" .operatorType .operation) := by
  have known : ProblemKinds.ofProblemName? "ModuloProblem" = some .modulo := rfl
  have builtIn := ProblemKinds.builtIn_of_ofProblemName? known
  have verifies : repeating.verify = .ok () := rfl
  have refused : repeating.load .modulo =
      .error (.model (.dependenceOf 2 "operation #1") (.duplicateDependence ⟨0⟩ ⟨1⟩)) := rfl
  have loads : ∃ problem, crossed.load .modulo = .ok problem :=
    ⟨_, (load_eq_ok_iff crossed builtIn).mpr ⟨by decide, rfl⟩⟩
  have fails : crossed.verify =
      .error (.wrongReferenceKind "@first" "first" .operatorType .operation) := rfl
  obtain ⟨decides, left⟩ := (verify_load_agree repeating builtIn).1 verifies
  refine ⟨⟨verifies, refused, left _ refused, ?_⟩, loads, fails,
    (verify_load_agree crossed builtIn).2 loads _ fails⟩
  intro accepted
  obtain ⟨problem, loaded⟩ := decides.mpr accepted
  cases refused.symm.trans loaded

end Instance

end StaticScheduling
