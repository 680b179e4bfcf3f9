import StaticScheduling.Proofs.Loading.Meaning

/-! # Declaring operator types and operations

Each declaration takes the problem from one of the stages on the way to the
meaning of the document to the next one, or fails.  The stage names the
declarations that are done, so the induction is on those still to come.
-/

namespace StaticScheduling

open PropertyKind (Accepted decodeOptional)

/-- Only one index sees that an element was added. -/
theorem getElem?_append_singleton_of_ne {Element : Type} (elements : List Element) (last : Element)
    {index : Nat} (other : index ≠ elements.length) :
    (elements ++ [last])[index]? = elements[index]? := by
  rcases Nat.lt_or_gt_of_ne other with before | behind
  · exact List.getElem?_append_left before
  · have short : (elements ++ [last]).length ≤ index := by
      rw [List.length_append, List.length_singleton]
      omega
    rw [List.getElem?_eq_none short, List.getElem?_eq_none (Nat.le_of_lt behind)]

/-- The operation that is registered is there. -/
theorem Problem.hasOperation_insertOperation (problem : Problem) (results : Nat) :
    (problem.insertOperation results).2.hasOperation (problem.insertOperation results).1 := by
  simp [Problem.hasOperation, Problem.insertOperation]

namespace Instance

variable (document : Instance)

/-! ## Operator types -/

theorem hasOperatorType_withOperatorTypes (declared : List OperatorTypeDecl) (name : String) :
    (document.withOperatorTypes declared).hasOperatorType ⟨name⟩ = true ↔
      name ∈ declared.map OperatorTypeDecl.name := by
  simp [Problem.hasOperatorType, withOperatorTypes]

theorem propertiesOf_append (first second : List OperatorTypeDecl) (operatorType : OperatorType) :
    propertiesOf (first ++ second) operatorType =
      propertiesOf first operatorType ++ propertiesOf second operatorType := by
  simp [propertiesOf]

/-- The last value for an operator type, when one more is declared. -/
theorem record_propertiesOf {Value : Type} (read : Property → Option Value)
    (declared : List OperatorTypeDecl) (declaration : OperatorTypeDecl) :
    (Assignment.ofFunction fun operatorType =>
        Property.last? read (propertiesOf declared operatorType)).record ⟨declaration.name⟩
          (Property.last? read (declaration.properties.getD [])) =
      .ofFunction fun operatorType =>
        Property.last? read (propertiesOf (declared ++ [declaration]) operatorType) := by
  ext1 operatorType
  -- properties declared later come behind, so their last value goes first
  rw [Assignment.get?_record]
  simp only [Assignment.get?_ofFunction, propertiesOf_append, Property.last?_append]
  split
  · rename_i same
    subst same
    simp [propertiesOf]
  · rename_i different
    have foreign : ¬ declaration.name = operatorType.name := by
      intro same
      exact different (congrArg OperatorType.mk same.symm)
    simp [propertiesOf, foreign]

/-- Registering an operator type and decoding its properties. -/
theorem withOperatorTypes_append (declared : List OperatorTypeDecl)
    (declaration : OperatorTypeDecl) :
    Problem.annotateOperatorType
        { document.withOperatorTypes declared with
          operatorTypes := (document.withOperatorTypes declared).operatorTypes ++
            [⟨declaration.name⟩] }
        ⟨declaration.name⟩ (declaration.properties.getD []) =
      document.withOperatorTypes (declared ++ [declaration]) := by
  simp only [Problem.annotateOperatorType, withOperatorTypes, record_propertiesOf, List.map_append,
    List.map_cons, List.map_nil]

theorem declareOperatorTypes_eq_ok_iff {kinds : ProblemKinds} (builtIn : kinds.BuiltIn)
    {problem : Problem} (rest declared : List OperatorTypeDecl) :
    Loading.declareOperatorTypes kinds rest (document.withOperatorTypes declared) = .ok problem ↔
      Fresh (declared.map OperatorTypeDecl.name) (rest.map OperatorTypeDecl.name) ∧
      (∀ declaration ∈ rest, Accepted kinds.operatorType declaration.properties) ∧
      problem = document.withOperatorTypes (declared ++ rest) := by
  -- what is declared is part of the problem, so it grows from step to step
  induction rest generalizing declared with
  | nil =>
    simp only [Loading.declareOperatorTypes, List.append_nil]
    constructor
    · intro same
      cases same
      exact ⟨fresh_nil, nofun, rfl⟩
    · rintro ⟨_, _, rfl⟩
      rfl
  | cons declaration rest inductionHypothesis =>
    have next := inductionHypothesis (declared ++ [declaration])
    rw [List.append_assoc, List.singleton_append] at next
    rw [List.map_cons, fresh_cons, ← fresh_map_concat OperatorTypeDecl.name declared declaration,
      List.forall_mem_cons]
    simp only [Loading.declareOperatorTypes, Problem.insertOperatorType]
    by_cases old : (document.withOperatorTypes declared).hasOperatorType ⟨declaration.name⟩
    · have known := (document.hasOperatorType_withOperatorTypes declared _).mp old
      rw [if_pos old]
      exact ⟨nofun, fun ⟨⟨new, _⟩, _⟩ => absurd known new⟩
    · have new := mt (document.hasOperatorType_withOperatorTypes declared _).mpr old
      rw [if_neg old]
      simp only [bind_eq_ok_iff, builtIn.decodeOptional_operatorType, withOperatorTypes_append]
      constructor
      · rintro ⟨_, ⟨accepted, rfl⟩, loaded⟩
        obtain ⟨others, acceptedOthers, same⟩ := next.mp loaded
        exact ⟨⟨new, others⟩, ⟨accepted, acceptedOthers⟩, same⟩
      · rintro ⟨⟨_, others⟩, ⟨accepted, acceptedOthers⟩, same⟩
        exact ⟨_, ⟨accepted, rfl⟩, next.mpr ⟨others, acceptedOthers, same⟩⟩

/-! ## Operations -/

theorem checkName_eq_ok_iff {names : List String} {problem : Problem} {name : Option String} :
    Loading.checkName names problem name = .ok () ↔
      Fresh (names ++ problem.operatorTypes.map OperatorType.name) name.toList := by
  cases name with
  | none => exact ⟨fun _ => fresh_nil, fun _ => rfl⟩
  | some name =>
    rw [Option.toList_some, fresh_singleton, Loading.checkName]
    have registered : problem.hasOperatorType ⟨name⟩ = true ↔
        name ∈ problem.operatorTypes.map OperatorType.name := by
      simp only [Problem.hasOperatorType, decide_eq_true_eq, List.mem_map]
      exact ⟨fun member => ⟨⟨name⟩, member, rfl⟩, fun ⟨⟨_⟩, member, same⟩ => same ▸ member⟩
    rw [List.mem_append, ← registered]
    by_cases taken : name ∈ names ∨ problem.hasOperatorType ⟨name⟩ = true
    · simp [taken]
    · simp [taken]

theorem checkResults_eq_ok_iff {values results : List String} :
    Loading.checkResults values results = .ok () ↔ Fresh values results := by
  rw [← firstRepeated?_eq_none_iff, Loading.checkResults]
  cases firstRepeated? values results <;> simp

theorem filterMap_name_cons (declaration : OperationDecl) (rest : List OperationDecl) :
    (declaration :: rest).filterMap OperationDecl.name =
      declaration.name.toList ++ rest.filterMap OperationDecl.name := by
  rw [List.filterMap_cons]
  cases declaration.name <;> rfl

theorem names_operatorTypes_withOperations (declared : List OperationDecl) :
    (document.withOperations declared).operatorTypes.map OperatorType.name =
      document.operatorTypes.map OperatorTypeDecl.name := by
  simp only [withOperations, withOperatorTypes, List.map_map]
  rfl

/-- A table over operations, when one more operation is declared. -/
theorem record_declared {Value : Type} (value : OperationDecl → Option Value)
    (declared : List OperationDecl) (declaration : OperationDecl) :
    (Assignment.ofFunction fun operation : OperationId =>
        declared[operation.index]?.bind value).record ⟨declared.length⟩ (value declaration) =
      .ofFunction fun operation => (declared ++ [declaration])[operation.index]?.bind value := by
  ext1 operation
  obtain ⟨index⟩ := operation
  rw [Assignment.get?_record]
  simp only [Assignment.get?_ofFunction, OperationId.mk.injEq]
  split
  · rename_i last
    subst last
    simp
  · rename_i other
    rw [getElem?_append_singleton_of_ne declared declaration other]

/-- Registering an operation and decoding its properties. -/
theorem withOperations_append (declared : List OperationDecl) (declaration : OperationDecl) :
    Problem.annotateOperation
        ((document.withOperations declared).insertOperation declaration.results.length).2
        ((document.withOperations declared).insertOperation declaration.results.length).1
        (declaration.properties.getD []) =
      document.withOperations (declared ++ [declaration]) := by
  simp only [Problem.annotateOperation, Problem.insertOperation, withOperations, List.length_map,
    record_declared, List.map_append, List.map_cons, List.map_nil, declaredNode]

theorem declareOperations_eq_ok_iff {kinds : ProblemKinds} (builtIn : kinds.BuiltIn)
    {problem : Problem} (rest declared : List OperationDecl) (names values : List String) :
    Loading.declareOperations kinds names values rest (document.withOperations declared) =
        .ok problem ↔
      Fresh (names ++ document.operatorTypes.map OperatorTypeDecl.name)
        (rest.filterMap OperationDecl.name) ∧
      Fresh values (rest.flatMap OperationDecl.results) ∧
      (∀ declaration ∈ rest, Accepted kinds.operation declaration.properties) ∧
      problem = document.withOperations (declared ++ rest) := by
  -- operations are declared behind the others, their names and values are noted in front
  induction rest generalizing declared names values with
  | nil =>
    simp only [Loading.declareOperations, List.append_nil]
    constructor
    · intro same
      cases same
      exact ⟨fresh_nil, fresh_nil, nofun, rfl⟩
    · rintro ⟨_, _, _, rfl⟩
      rfl
  | cons declaration rest inductionHypothesis =>
    have next := inductionHypothesis (declared ++ [declaration])
      (declaration.name.toList ++ names) (declaration.results ++ values)
    rw [List.append_assoc declared, List.singleton_append, List.append_assoc] at next
    have registered := (document.withOperations declared).hasOperation_insertOperation
      declaration.results.length
    rw [filterMap_name_cons, List.flatMap_cons, fresh_append, fresh_append, List.forall_mem_cons]
    simp only [Loading.declareOperations, bind_eq_ok_iff, exists_unit, checkName_eq_ok_iff,
      checkResults_eq_ok_iff, builtIn.decodeOptional_operation registered, withOperations_append,
      names_operatorTypes_withOperations]
    constructor
    · rintro ⟨name, results, _, ⟨accepted, rfl⟩, loaded⟩
      obtain ⟨names, values, acceptedOthers, same⟩ := next.mp loaded
      exact ⟨⟨name, names⟩, ⟨results, values⟩, ⟨accepted, acceptedOthers⟩, same⟩
    · rintro ⟨⟨name, names⟩, ⟨results, values⟩, ⟨accepted, acceptedOthers⟩, same⟩
      exact ⟨name, results, _, ⟨accepted, rfl⟩,
        next.mpr ⟨names, values, acceptedOthers, same⟩⟩

end Instance

end StaticScheduling
