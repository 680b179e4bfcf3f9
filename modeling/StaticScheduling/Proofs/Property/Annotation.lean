import StaticScheduling.Proofs.Property.Decoding

/-! # Annotations

What decoding a property list does to a problem, for each sort of attachment
point: the last values in the list are recorded in the tables, whichever
built-in kinds are asked to decode them.
-/

namespace StaticScheduling

open PropertyKind

namespace Assignment

variable {Key Value : Type}

/-- The assignment that gives each key the value that a function has for it. -/
def ofFunction (values : Key → Option Value) : Assignment Key Value := values

@[simp] theorem get?_ofFunction (values : Key → Option Value) (key : Key) :
    (ofFunction values).get? key = values key := rfl

variable [DecidableEq Key]

/-- Gives a key a value, if there is one to give. -/
def record (assignment : Assignment Key Value) (key : Key) : Option Value → Assignment Key Value
  | none => assignment
  | some value => assignment.set key value

theorem get?_record (assignment : Assignment Key Value) (key other : Key) (value : Option Value) :
    (assignment.record key value).get? other =
      if other = key then value.or (assignment.get? other) else assignment.get? other := by
  cases value with
  | none => simp [record]
  | some value => simp [record, get?_set]

theorem get?_record_self (assignment : Assignment Key Value) (key : Key) (value : Option Value) :
    (assignment.record key value).get? key = value.or (assignment.get? key) := by
  rw [get?_record, if_pos rfl]

theorem get?_record_of_ne (assignment : Assignment Key Value) {key other : Key}
    (value : Option Value) (different : other ≠ key) :
    (assignment.record key value).get? other = assignment.get? other := by
  rw [get?_record, if_neg different]

/-- Recording nothing, or the value that a key has, changes nothing. -/
theorem record_eq_self {assignment : Assignment Key Value} {key : Key} {value : Option Value}
    (known : value = assignment.get? key ∨ value = none) : assignment.record key value = assignment := by
  ext1 other
  rw [get?_record]
  split
  · rename_i same
    rcases known with rfl | rfl
    · rw [same, Option.or_self]
    · rw [Option.none_or]
  · rfl

/-- Of two values recorded for a key the second one stays. -/
theorem record_record (assignment : Assignment Key Value) (key : Key)
    (first second : Option Value) :
    (assignment.record key first).record key second = assignment.record key (second.or first) := by
  ext1 other
  simp only [get?_record]
  split
  · rw [Option.or_assoc]
  · rfl

end Assignment

namespace Problem

/-- A registered operation has a node. -/
theorem operation_of_hasOperation {problem : Problem} {operation : OperationId}
    (registered : problem.hasOperation operation) :
    ∃ node, problem.operation operation = .ok node := by
  have inside : operation.index < problem.operations.length := of_decide_eq_true registered
  exact ⟨problem.operations[operation.index], by
    rw [Problem.operation, List.getElem?_eq_getElem inside]⟩

variable (problem : Problem)

/-- Records the last initiation interval in a property list. -/
def annotateInstance (properties : List Property) : Problem :=
  { problem with
    initiationInterval :=
      (Property.last? (Property.number? "II") properties).or problem.initiationInterval }

/-- Records the last latency and the last limit of an operator type. -/
def annotateOperatorType (operatorType : OperatorType) (properties : List Property) : Problem :=
  { problem with
    latencies := problem.latencies.record operatorType
      (Property.last? (Property.number? "latency") properties)
    limits := problem.limits.record operatorType
      (Property.last? (Property.number? "limit") properties) }

/-- Records the last link and the last start time of an operation. -/
def annotateOperation (operation : OperationId) (properties : List Property) : Problem :=
  { problem with
    links := problem.links.record operation (Property.last? Property.link? properties)
    startTimes := problem.startTimes.record operation
      (Property.last? (Property.number? "start_time") properties) }

/-- Records the last distance of a dependence. -/
def annotateDependence (dependence : Dependence) (properties : List Property) : Problem :=
  { problem with
    distances := problem.distances.record dependence
      (Property.last? (Property.number? "distance") properties) }

end Problem

namespace PropertyKind

theorem initiationInterval_carries : initiationInterval.Carries (Property.number? "II")
    (Property.ofNumber "II") fun problem _ => problem.initiationInterval :=
  ofNumber_carries _ _ _ _ _

theorem latency_carries :
    latency.Carries (Property.number? "latency") (Property.ofNumber "latency") Problem.latency :=
  ofNumber_carries _ _ _ _ _

theorem limit_carries :
    limit.Carries (Property.number? "limit") (Property.ofNumber "limit") Problem.limit :=
  ofNumber_carries _ _ _ _ _

theorem startTime_carries : startTime.Carries (Property.number? "start_time")
    (Property.ofNumber "start_time") Problem.startTime :=
  ofNumber_carries _ _ _ _ _

theorem distance_carries :
    distance.Carries (Property.number? "distance") (Property.ofNumber "distance")
      Problem.distance :=
  ofNumber_carries _ _ _ _ _

theorem latency_ignores : latency.Ignores (Property.number? "limit") :=
  latency_carries.ignores (Property.number?_of_ne (by decide))

theorem limit_ignores : limit.Ignores (Property.number? "latency") :=
  limit_carries.ignores (Property.number?_of_ne (by decide))

theorem link_ignores : link.Ignores (Property.number? "start_time") :=
  link_carries.ignores (Property.number?_ofLink (by decide))

theorem startTime_ignores : startTime.Ignores Property.link? :=
  startTime_carries.ignores (Property.link?_ofNumber (by decide))

/-- A property that a kind of numbers accepts sets its number, if the problem lets it. -/
theorem install_ofNumber {Point : Type} {name mnemonic : String} {label : Point → String}
    {set : Problem → Point → UInt32 → Except DocumentError Problem}
    {get : Problem → Point → Option UInt32} {problem : Problem} {point : Point}
    {property : Property} {changed : UInt32 → Problem}
    (accepts : (ofNumber name mnemonic label set get).accepts property)
    (sets : ∀ number, set problem point number = .ok (changed number)) :
    ∃ number, property.number? mnemonic = some number ∧
      (ofNumber name mnemonic label set get).install problem point property =
        (changed number, .ok ()) := by
  obtain ⟨number, found⟩ := Option.isSome_iff_exists.mp accepts
  refine ⟨number, found, ?_⟩
  simp only [ofNumber, found, sets, Edited.ofExcept]

end PropertyKind

namespace ProblemKinds.BuiltIn

variable {kinds : ProblemKinds} (builtIn : kinds.BuiltIn)

include builtIn

/-! ## Which kind says what -/

theorem singles_initiationInterval :
    Singles kinds.problem initiationInterval (Property.number? "II") := by
  intro kind member
  exact .inl (builtIn.problem kind member)

theorem singles_distance : Singles kinds.dependence distance (Property.number? "distance") := by
  intro kind member
  exact .inl (builtIn.dependence kind member)

theorem singles_latency : Singles kinds.operatorType latency (Property.number? "latency") := by
  intro kind member
  rcases builtIn.operatorType kind member with rfl | rfl
  · exact .inl rfl
  · exact .inr limit_ignores

theorem singles_limit : Singles kinds.operatorType limit (Property.number? "limit") := by
  intro kind member
  rcases builtIn.operatorType kind member with rfl | rfl
  · exact .inr latency_ignores
  · exact .inl rfl

theorem singles_link : Singles kinds.operation link Property.link? := by
  intro kind member
  rcases builtIn.operation kind member with rfl | rfl
  · exact .inl rfl
  · exact .inr startTime_ignores

theorem singles_startTime : Singles kinds.operation startTime (Property.number? "start_time") := by
  intro kind member
  rcases builtIn.operation kind member with rfl | rfl
  · exact .inr link_ignores
  · exact .inl rfl

/-! ## What is written is accepted -/

theorem accepted_encode_problem (problem : Problem) :
    Accepted kinds.problem (encode kinds.problem problem ()) := by
  apply accepted_encode
  intro kind member property query
  cases builtIn.problem kind member
  exact initiationInterval_carries.accepts_query query

theorem accepted_encode_operatorType (problem : Problem) (operatorType : OperatorType) :
    Accepted kinds.operatorType (encode kinds.operatorType problem operatorType) := by
  apply accepted_encode
  intro kind member property query
  rcases builtIn.operatorType kind member with rfl | rfl
  · exact latency_carries.accepts_query query
  · exact limit_carries.accepts_query query

theorem accepted_encode_operation (problem : Problem) (operation : OperationId) :
    Accepted kinds.operation (encode kinds.operation problem operation) := by
  apply accepted_encode
  intro kind member property query
  rcases builtIn.operation kind member with rfl | rfl
  · exact link_carries.accepts_query query
  · exact startTime_carries.accepts_query query

theorem accepted_encode_dependence (problem : Problem) (dependence : Dependence) :
    Accepted kinds.dependence (encode kinds.dependence problem dependence) := by
  apply accepted_encode
  intro kind member property query
  cases builtIn.dependence kind member
  exact distance_carries.accepts_query query

/-! ## Decoding -/

theorem interpreted_problem :
    Interpreted kinds.problem () (fun _ => True) Problem.annotateInstance := by
  -- a list is taken in property by property, and the last of several wins
  refine ⟨fun _ => rfl, ?_, fun _ _ _ => trivial, ?_⟩
  · intro problem first rest
    simp only [Problem.annotateInstance, Property.last?_cons, Property.last?_nil, Option.none_or,
      Option.or_assoc]
  · intro kind member problem property _ accepts
    cases builtIn.problem kind member
    obtain ⟨number, found, installs⟩ := install_ofNumber accepts fun _ => rfl
    rw [initiationInterval, installs]
    simp only [Problem.setInitiationInterval, Problem.annotateInstance, Property.last?_cons,
      Property.last?_nil, found, Option.none_or, Option.some_or]

theorem interpreted_operatorType (operatorType : OperatorType) :
    Interpreted kinds.operatorType operatorType (fun _ => True)
      fun problem => problem.annotateOperatorType operatorType := by
  refine ⟨fun _ => rfl, ?_, fun _ _ _ => trivial, ?_⟩
  · intro problem first rest
    simp only [Problem.annotateOperatorType, Property.last?_cons, Property.last?_nil,
      Option.none_or, Assignment.record_record]
  · intro kind member problem property _ accepts
    rcases builtIn.operatorType kind member with rfl | rfl
    -- a latency says nothing about the limit, and the other way round
    · have silent := latency_ignores.1 property accepts
      obtain ⟨number, found, installs⟩ := install_ofNumber accepts fun _ => rfl
      rw [latency, installs]
      simp only [Problem.setLatency, Problem.annotateOperatorType, Property.last?_cons,
        Property.last?_nil, found, silent, Option.none_or, Assignment.record]
    · have silent := limit_ignores.1 property accepts
      obtain ⟨number, found, installs⟩ := install_ofNumber accepts fun _ => rfl
      rw [limit, installs]
      simp only [Problem.setLimit, Problem.annotateOperatorType, Property.last?_cons,
        Property.last?_nil, found, silent, Option.none_or, Assignment.record]

/-- Links and start times can only be set on registered operations, which stay registered. -/
theorem interpreted_operation (operation : OperationId) :
    Interpreted kinds.operation operation (fun problem => problem.hasOperation operation)
      fun problem => problem.annotateOperation operation := by
  refine ⟨fun _ => rfl, ?_, fun _ _ registered => registered, ?_⟩
  · intro problem first rest
    simp only [Problem.annotateOperation, Property.last?_cons, Property.last?_nil,
      Option.none_or, Assignment.record_record]
  · intro kind member problem property registered accepts
    obtain ⟨node, known⟩ := Problem.operation_of_hasOperation registered
    rcases builtIn.operation kind member with rfl | rfl
    · have silent := link_ignores.1 property accepts
      obtain ⟨target, found⟩ := Option.isSome_iff_exists.mp accepts
      have linked : property.link? = some ⟨target⟩ := by rw [Property.link?, found]; rfl
      simp only [link, found, Problem.setLink, known]
      simp only [Problem.annotateOperation, Property.last?_cons, Property.last?_nil, linked,
        silent, Option.none_or, Assignment.record]
      rfl
    · have silent := startTime_ignores.1 property accepts
      have sets : ∀ number, ProblemError.within (problem.setStartTime operation number)
          (.scheduling operation) =
            .ok { problem with startTimes := problem.startTimes.set operation number } := by
        intro number
        simp only [within_eq_ok_iff, Problem.setStartTime, known]
        rfl
      obtain ⟨number, found, installs⟩ := install_ofNumber accepts sets
      rw [startTime, installs]
      simp only [Problem.annotateOperation, Property.last?_cons, Property.last?_nil, found,
        silent, Option.none_or, Assignment.record]

/-- Distances can only be set on dependences of the problem, which stay there. -/
theorem interpreted_dependence (dependence : Dependence) :
    Interpreted kinds.dependence dependence
      (fun problem => problem.containsDependence dependence)
      fun problem => problem.annotateDependence dependence := by
  refine ⟨fun _ => rfl, ?_, fun _ _ contained => contained, ?_⟩
  · intro problem first rest
    simp only [Problem.annotateDependence, Property.last?_cons, Property.last?_nil,
      Option.none_or, Assignment.record_record]
  · intro kind member problem property contained accepts
    cases builtIn.dependence kind member
    have sets : ∀ number, ProblemError.within (problem.setDistance dependence number)
        .settingDistance =
          .ok { problem with distances := problem.distances.set dependence number } := by
      intro number
      rw [within_eq_ok_iff, Problem.setDistance, if_pos contained]
    obtain ⟨number, found, installs⟩ := install_ofNumber accepts sets
    rw [distance, installs]
    simp only [Problem.annotateDependence, Property.last?_cons, Property.last?_nil, found,
      Option.none_or, Assignment.record]

theorem decodeOptional_problem {properties : Option (List Property)} {problem changed : Problem} :
    (decodeOptional kinds.problem () properties problem).toExcept = .ok changed ↔
      Accepted kinds.problem properties ∧
        changed = problem.annotateInstance (properties.getD []) :=
  builtIn.interpreted_problem.decodeOptional_eq_ok_iff trivial

theorem decodeOptional_operatorType {operatorType : OperatorType}
    {properties : Option (List Property)} {problem changed : Problem} :
    (decodeOptional kinds.operatorType operatorType properties problem).toExcept = .ok changed ↔
      Accepted kinds.operatorType properties ∧
        changed = problem.annotateOperatorType operatorType (properties.getD []) :=
  (builtIn.interpreted_operatorType operatorType).decodeOptional_eq_ok_iff trivial

theorem decodeOptional_operation {operation : OperationId} {properties : Option (List Property)}
    {problem changed : Problem} (registered : problem.hasOperation operation) :
    (decodeOptional kinds.operation operation properties problem).toExcept = .ok changed ↔
      Accepted kinds.operation properties ∧
        changed = problem.annotateOperation operation (properties.getD []) :=
  (builtIn.interpreted_operation operation).decodeOptional_eq_ok_iff registered

theorem decodeOptional_dependence {dependence : Dependence} {properties : Option (List Property)}
    {problem changed : Problem} (contained : problem.containsDependence dependence) :
    (decodeOptional kinds.dependence dependence properties problem).toExcept = .ok changed ↔
      Accepted kinds.dependence properties ∧
        changed = problem.annotateDependence dependence (properties.getD []) :=
  (builtIn.interpreted_dependence dependence).decodeOptional_eq_ok_iff contained

end ProblemKinds.BuiltIn

end StaticScheduling
