import Mathlib.Data.List.Forall2
import StaticScheduling.Proofs.Loading.Loaded

/-! # What a document says about a problem

A document gives names, and properties at some of its places; a problem has
positions, and values at some of its points.  Here it is said, without looking
at how documents are loaded, when a problem is the one that a document
describes.  A document describes at most one problem, and loading finds it.
-/

namespace StaticScheduling

/-- A table that has, where properties are stated, the last value in them, and nothing elsewhere. -/
structure Holds {Point Value : Type} (stated : Point → Option (List Property) → Prop)
    (read : Property → Option Value) (table : Point → Option Value) : Prop where
  last : ∀ point properties, stated point properties →
    table point = Property.last? read (properties.getD [])
  absent : ∀ point, (∀ properties, ¬ stated point properties) → table point = none

theorem Holds.unique {Point Value : Type} {stated : Point → Option (List Property) → Prop}
    {read : Property → Option Value} {first second : Point → Option Value}
    (firstHolds : Holds stated read first) (secondHolds : Holds stated read second) :
    first = second := by
  funext point
  by_cases found : ∃ properties, stated point properties
  · obtain ⟨properties, here⟩ := found
    rw [firstHolds.last point properties here, secondHolds.last point properties here]
  · have nowhere : ∀ properties, ¬ stated point properties := fun properties here =>
      found ⟨properties, here⟩
    rw [firstHolds.absent point nowhere, secondHolds.absent point nowhere]

/-- There are no two points that are the only one with a given name. -/
theorem rightUnique_only {Name Point : Type} {bears : Name → Point → Prop} :
    Relator.RightUnique fun name point => ∀ other, bears name other ↔ other = point := by
  intro name first second onlyFirst onlySecond
  exact (onlySecond first).mp ((onlyFirst first).mpr rfl)

/-- Where a function has a value for each element, the elements are related to their values. -/
theorem forall₂_filterMap {Element Image : Type} {related : Element → Image → Prop}
    {image : Element → Option Image} {elements : List Element}
    (total : ∀ element ∈ elements, ∃ value, image element = some value ∧ related element value) :
    List.Forall₂ related elements (elements.filterMap image) := by
  induction elements with
  | nil => exact .nil
  | cons first rest inductionHypothesis =>
    obtain ⟨⟨value, found, holds⟩, others⟩ := List.forall_mem_cons.mp total
    rw [List.filterMap_cons, found]
    exact .cons holds (inductionHypothesis others)

namespace Instance

variable (document : Instance)

/-! ## Operations -/

/-- The operation of a problem for a declaration: its operands are the only results with the names
that the declaration uses, and it comes after the only operations with the names in its records. -/
structure Realizes (declaration : OperationDecl) (node : Operation) : Prop where
  results : node.results = declaration.results.length
  operands : List.Forall₂ (fun name operand =>
    ∀ other, document.valueAt? other = some name ↔ other = operand)
      declaration.operands node.operands
  connected : node.connected = true
  auxiliarySources : List.Forall₂ (fun name source =>
    ∀ other, document.nameOf? other = some name ↔ other = source)
      declaration.sources node.auxiliarySources

/-- The dependence that a slot of an operation's operand list stands for. -/
inductive StandsFor (operation : OperationId) (operands : List String) : Slot → Dependence → Prop
    where
  | operand {index : Nat} {name : String} {operand : Operand} (used : operands[index]? = some name)
      (defined : document.valueAt? operand = some name) :
      StandsFor operation operands (.operand index)
        (.data operand.source operand.result operation index)
  | named {index : Nat} {name : String} {source : OperationId}
      (defined : document.nameOf? source = some name) :
      StandsFor operation operands (.named index name) (.auxiliary source operation)

/-! ## Properties -/

/-- The properties stated for an operator type, if any are. -/
def AtOperatorType (operatorType : OperatorType) (properties : Option (List Property)) : Prop :=
  ⟨operatorType.name, properties⟩ ∈ document.operatorTypes

/-- The properties stated for an operation, if any are. -/
def AtOperation (operation : OperationId) (properties : Option (List Property)) : Prop :=
  ∃ declaration, document.operations[operation.index]? = some declaration ∧
    declaration.properties = properties

/-- The properties in a record that stands for a dependence, if any are. -/
def AtDependence (dependence : Dependence) (properties : Option (List Property)) : Prop :=
  ∃ declaration, document.operations[dependence.destination.index]? = some declaration ∧
    ∃ record ∈ declaration.dependences,
      document.StandsFor dependence.destination declaration.operands record.slot dependence ∧
        record.properties = properties

/-! ## Problems -/

/-- A problem that is what the document says: nothing in it is missing, and nothing else is. -/
structure Describes (problem : Problem) : Prop where
  instanceName : problem.instanceName = document.name
  problemName : problem.problemName = document.problem
  operatorTypes : problem.operatorTypes =
    document.operatorTypes.map fun declaration => ⟨declaration.name⟩
  operations : List.Forall₂ document.Realizes document.operations problem.operations
  initiationInterval : problem.initiationInterval =
    Property.last? (Property.number? "II") (document.properties.getD [])
  latencies : Holds document.AtOperatorType (Property.number? "latency") problem.latency
  limits : Holds document.AtOperatorType (Property.number? "limit") problem.limit
  links : Holds document.AtOperation Property.link? problem.link
  startTimes : Holds document.AtOperation (Property.number? "start_time") problem.startTime
  distances : Holds document.AtDependence (Property.number? "distance") problem.distance

variable {document}

theorem rightUnique_realizes : Relator.RightUnique document.Realizes := by
  intro declaration first second firstRealizes secondRealizes
  have results : first.results = second.results :=
    firstRealizes.results.trans secondRealizes.results.symm
  have operands : first.operands = second.operands :=
    List.right_unique_forall₂' rightUnique_only firstRealizes.operands secondRealizes.operands
  have connected : first.connected = second.connected :=
    firstRealizes.connected.trans secondRealizes.connected.symm
  have sources : first.auxiliarySources = second.auxiliarySources :=
    List.right_unique_forall₂' rightUnique_only firstRealizes.auxiliarySources
      secondRealizes.auxiliarySources
  cases first
  cases second
  rw [Operation.mk.injEq]
  exact ⟨results, operands, connected, sources⟩

/-- A document describes one problem at most. -/
theorem Describes.unique {first second : Problem} (firstDescribed : document.Describes first)
    (secondDescribed : document.Describes second) : first = second := by
  have instanceName := firstDescribed.instanceName.trans secondDescribed.instanceName.symm
  have problemName := firstDescribed.problemName.trans secondDescribed.problemName.symm
  have operatorTypes := firstDescribed.operatorTypes.trans secondDescribed.operatorTypes.symm
  have operations : first.operations = second.operations :=
    List.right_unique_forall₂' rightUnique_realizes firstDescribed.operations
      secondDescribed.operations
  have initiationInterval :=
    firstDescribed.initiationInterval.trans secondDescribed.initiationInterval.symm
  -- a table is the function that looks values up in it
  have latencies : first.latencies = second.latencies :=
    firstDescribed.latencies.unique secondDescribed.latencies
  have limits : first.limits = second.limits :=
    firstDescribed.limits.unique secondDescribed.limits
  have links : first.links = second.links := firstDescribed.links.unique secondDescribed.links
  have startTimes : first.startTimes = second.startTimes :=
    firstDescribed.startTimes.unique secondDescribed.startTimes
  have distances : first.distances = second.distances :=
    firstDescribed.distances.unique secondDescribed.distances
  cases first
  cases second
  rw [Problem.mk.injEq]
  exact ⟨instanceName, problemName, operatorTypes, operations, initiationInterval, latencies, limits,
    links, startTimes, distances⟩

/-! ## The meaning of a loadable document -/

section Loadable

variable {kinds : ProblemKinds} (loadable : document.Loadable kinds)
include loadable

theorem Loadable.realizes {declaration : OperationDecl}
    (member : declaration ∈ document.operations) :
    document.Realizes declaration (document.connectedNode declaration) where
  results := rfl
  operands := by
    refine forall₂_filterMap fun name used => ?_
    have connectable := loadable.connectable declaration member
    obtain ⟨operand, found⟩ :=
      Option.isSome_iff_exists.mp (connectable.isSome_resolveValue? name used)
    refine ⟨operand, found, fun other => ?_⟩
    rw [← resolveValue?_eq_some_iff loadable.values, found, Option.some.injEq, eq_comm]
  connected := rfl
  auxiliarySources := by
    refine forall₂_filterMap fun name named => ?_
    have connectable := loadable.connectable declaration member
    obtain ⟨source, found⟩ := Option.isSome_iff_exists.mp
      (resolveOperation?_isSome_iff.mpr (connectable.sources name named))
    refine ⟨source, found, fun other => ?_⟩
    rw [← resolveOperation?_eq_some_iff loadable.names, found, Option.some.injEq, eq_comm]

/-- What a slot stands for is found by looking names up. -/
theorem Loadable.standsFor_iff {operation : OperationId} {operands : List String} {slot : Slot}
    {dependence : Dependence} : document.StandsFor operation operands slot dependence ↔
      document.dependenceAt? operation operands slot = some dependence := by
  constructor
  · rintro (⟨used, defined⟩ | ⟨defined⟩)
    · rw [dependenceAt?, used, Option.bind_some,
        (resolveValue?_eq_some_iff loadable.values).mpr defined, Option.map_some]
    · rw [dependenceAt?, (resolveOperation?_eq_some_iff loadable.names).mpr defined,
        Option.map_some]
  · intro describes
    cases slot with
    | operand index =>
      obtain ⟨operand, found, rfl⟩ := Option.map_eq_some_iff.mp describes
      obtain ⟨name, used, found⟩ := Option.bind_eq_some_iff.mp found
      exact .operand used (valueAt?_of_resolveValue? found)
    | named index name =>
      obtain ⟨source, found, rfl⟩ := Option.map_eq_some_iff.mp describes
      exact .named (nameOf?_of_resolveOperation? found)

theorem Loadable.holds_operatorType {Value : Type} (read : Property → Option Value) :
    Holds document.AtOperatorType read fun operatorType =>
      Property.last? read (propertiesOf document.operatorTypes operatorType) where
  last operatorType properties stated := by
    exact congrArg (Property.last? read) (propertiesOf_of_mem loadable.operatorTypes stated)
  absent operatorType nowhere := by
    apply Property.last?_eq_none
    intro property member
    obtain ⟨⟨name, properties⟩, kept, _⟩ := List.mem_flatMap.mp member
    obtain ⟨present, named⟩ := List.mem_filter.mp kept
    obtain rfl : name = operatorType.name := of_decide_eq_true named
    exact absurd present (nowhere properties)

omit loadable in
theorem holds_operation {Value : Type} (read : Property → Option Value) :
    Holds document.AtOperation read fun operation =>
      document.operations[operation.index]?.bind fun declaration =>
        Property.last? read (declaration.properties.getD []) where
  last := by
    rintro operation _ ⟨declaration, inside, rfl⟩
    rw [inside, Option.bind_some]
  absent operation nowhere := by
    cases inside : document.operations[operation.index]? with
    | none => rfl
    | some declaration => exact absurd ⟨declaration, inside, rfl⟩ (nowhere declaration.properties)

theorem Loadable.holds_dependence {Value : Type} (read : Property → Option Value) :
    Holds document.AtDependence read fun dependence =>
      document.operations[dependence.destination.index]?.bind fun declaration =>
        Property.last? read (document.propertiesAt declaration dependence) where
  last := by
    rintro dependence _ ⟨declaration, inside, record, member, stands, rfl⟩
    -- no other record of the operation stands for the same dependence
    have connectable := loadable.connectable declaration (List.mem_of_getElem? inside)
    rw [inside, Option.bind_some,
      connectable.propertiesAt_of_mem member (loadable.standsFor_iff.mp stands)]
  absent dependence nowhere := by
    cases inside : document.operations[dependence.destination.index]? with
    | none => rfl
    | some declaration =>
      have unrecorded : document.propertiesAt declaration dependence = [] :=
        propertiesAt_of_forall fun record member describes =>
          nowhere record.properties ⟨declaration, inside, record, member,
            loadable.standsFor_iff.mpr describes, rfl⟩
      rw [Option.bind_some, unrecorded, Property.last?_nil]

theorem Loadable.describes_meaning : document.Describes document.meaning where
  instanceName := rfl
  problemName := rfl
  operatorTypes := rfl
  operations := by
    have nodes : document.meaning.operations = document.operations.map document.connectedNode :=
      List.append_nil _
    rw [nodes, List.forall₂_map_right_iff, List.forall₂_same]
    exact fun declaration member => loadable.realizes member
  initiationInterval := rfl
  latencies := loadable.holds_operatorType _
  limits := loadable.holds_operatorType _
  links := holds_operation _
  startTimes := holds_operation _
  distances := loadable.holds_dependence _

end Loadable

/-- A loaded problem is what its document says, and no other problem is. -/
theorem describes_of_load {kinds : ProblemKinds} (builtIn : kinds.BuiltIn) {problem : Problem}
    (loads : document.load kinds = .ok problem) :
    document.Describes problem ∧ ∀ other, document.Describes other → other = problem := by
  obtain ⟨loadable, rfl⟩ := (document.load_eq_ok_iff builtIn).mp loads
  exact ⟨loadable.describes_meaning, fun other described =>
    described.unique loadable.describes_meaning⟩

/-- An operation that uses its own result and one from further down, with distances that are given
twice, behind an operation that it names. -/
def winding : Instance where
  name := "winding"
  problem := "CyclicProblem"
  properties := some [.ofNumber "II" 3, .ofNumber "II" 2]
  operatorTypes := [⟨"add", some [.ofNumber "latency" 1]⟩, ⟨"copy", none⟩]
  operations := [
    ⟨["sum"], some "late", ["last", "sum"],
      [⟨.operand 1, some [.ofNumber "distance" 4, .ofNumber "distance" 1]⟩,
        ⟨.named 2 "early", none⟩], some [.ofLink ⟨"add"⟩], []⟩,
    ⟨["first", "last"], some "early", [], [], some [.ofNumber "start_time" 7], []⟩]

theorem describes_of_load_winding :
    ProblemKinds.cyclic.BuiltIn ∧ ∃ problem, winding.load .cyclic = .ok problem ∧
      (winding.Describes problem ∧ ∀ other, winding.Describes other → other = problem) ∧
      problem.dependences ⟨0⟩ =
        [.data ⟨1⟩ 1 ⟨0⟩ 0, .data ⟨0⟩ 0 ⟨0⟩ 1, .auxiliary ⟨1⟩ ⟨0⟩] ∧
      problem.distance (.data ⟨0⟩ 0 ⟨0⟩ 1) = some 1 ∧
      problem.distance (.data ⟨1⟩ 1 ⟨0⟩ 0) = none := by
  have known : ProblemKinds.ofProblemName? "CyclicProblem" = some .cyclic := rfl
  have builtIn := ProblemKinds.builtIn_of_ofProblemName? known
  have loadable : winding.Loadable .cyclic := by decide
  have loads := (winding.load_eq_ok_iff builtIn).mpr ⟨loadable, rfl⟩
  exact ⟨builtIn, _, loads, describes_of_load builtIn loads, by decide, by decide, by decide⟩

end Instance

end StaticScheduling
