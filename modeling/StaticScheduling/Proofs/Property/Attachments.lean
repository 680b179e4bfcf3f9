import Mathlib.Data.List.Basic
import StaticScheduling.Proofs.Problem.Reachable
import StaticScheduling.Proofs.Property.Annotation

/-! # Property lists at one place

Properties can be attached to the problem itself, to an operator type, to an
operation and to a dependence.  Decoding a list at one of these places leaves there
the last property that each kind accepts, or what was there before, and changes
nothing anywhere else.
-/

namespace StaticScheduling

open PropertyKind

/-- A property list, which is absent rather than empty. -/
def Property.listed? : List Property → Option (List Property)
  | [] => none
  | properties@(_ :: _) => some properties

namespace Edited

theorem toExcept_eq_ok_iff {edited : Edited} {changed : Problem} :
    edited.toExcept = .ok changed ↔ edited = (changed, .ok ()) := by
  rcases edited with ⟨problem, _ | ⟨⟩⟩ <;> simp [toExcept]

theorem toExcept_of_ok {edited : Edited} (ok : edited.2 = .ok ()) : edited.toExcept = .ok edited.1 :=
  toExcept_eq_ok_iff.mpr (Prod.ext rfl ok)

theorem toExcept_eq_error_iff {edited : Edited} {error : DocumentError} :
    edited.toExcept = .error error ↔ edited.2 = .error error := by
  rcases edited with ⟨problem, _ | ⟨⟩⟩ <;> simp [toExcept]

end Edited

/-- The sorts of things that properties are attached to. -/
inductive AttachmentSort where
  | problem
  | operatorType
  | operation
  | dependence
deriving DecidableEq, Repr

namespace AttachmentSort

/-- The things of a sort. -/
def Point : AttachmentSort → Type
  | .problem => Unit
  | .operatorType => OperatorType
  | .operation => OperationId
  | .dependence => Dependence

instance : (sort : AttachmentSort) → AttachmentPoint sort.Point
  | .problem => inferInstanceAs (AttachmentPoint Unit)
  | .operatorType => inferInstanceAs (AttachmentPoint OperatorType)
  | .operation => inferInstanceAs (AttachmentPoint OperationId)
  | .dependence => inferInstanceAs (AttachmentPoint Dependence)

/-- The built-in kinds of a sort. -/
def builtIn : (sort : AttachmentSort) → List (PropertyKind sort.Point)
  | .problem => [initiationInterval]
  | .operatorType => [latency, limit]
  | .operation => [link, startTime]
  | .dependence => [distance]

end AttachmentSort

/-- A place that properties are attached to. -/
abbrev Attachment := (sort : AttachmentSort) × sort.Point

namespace Problem

/-- Whether something is there to attach properties to.  An operator type need not be registered. -/
def Has (problem : Problem) : (sort : AttachmentSort) → sort.Point → Prop
  | .problem, _ => True
  | .operatorType, _ => True
  | .operation, operation => problem.hasOperation operation
  | .dependence, dependence => problem.containsDependence dependence

/-- Records the last value of each kind in a property list. -/
def annotate (problem : Problem) : (sort : AttachmentSort) → sort.Point → List Property → Problem
  | .problem, _ => problem.annotateInstance
  | .operatorType, operatorType => problem.annotateOperatorType operatorType
  | .operation, operation => problem.annotateOperation operation
  | .dependence, dependence => problem.annotateDependence dependence

/-! Recording what is there already, or nothing, changes nothing. -/

section Again

variable {problem : Problem} {properties : List Property}

theorem annotateInstance_eq_self
    (interval : Property.last? (Property.number? "II") properties = problem.initiationInterval ∨
      Property.last? (Property.number? "II") properties = none) :
    problem.annotateInstance properties = problem := by
  have same : (Property.last? (Property.number? "II") properties).or problem.initiationInterval =
      problem.initiationInterval := by
    rcases interval with same | nothing
    · rw [same, Option.or_self]
    · rw [nothing, Option.none_or]
  rw [annotateInstance, same]

theorem annotateOperatorType_eq_self {operatorType : OperatorType}
    (latency : Property.last? (Property.number? "latency") properties = problem.latency operatorType ∨
      Property.last? (Property.number? "latency") properties = none)
    (limit : Property.last? (Property.number? "limit") properties = problem.limit operatorType ∨
      Property.last? (Property.number? "limit") properties = none) :
    problem.annotateOperatorType operatorType properties = problem := by
  rw [annotateOperatorType, Assignment.record_eq_self latency, Assignment.record_eq_self limit]

theorem annotateOperation_eq_self {operation : OperationId}
    (link : Property.last? Property.link? properties = problem.link operation ∨
      Property.last? Property.link? properties = none)
    (startTime : Property.last? (Property.number? "start_time") properties =
        problem.startTime operation ∨
      Property.last? (Property.number? "start_time") properties = none) :
    problem.annotateOperation operation properties = problem := by
  rw [annotateOperation, Assignment.record_eq_self link, Assignment.record_eq_self startTime]

theorem annotateDependence_eq_self {dependence : Dependence}
    (distance : Property.last? (Property.number? "distance") properties =
        problem.distance dependence ∨
      Property.last? (Property.number? "distance") properties = none) :
    problem.annotateDependence dependence properties = problem := by
  rw [annotateDependence, Assignment.record_eq_self distance]

end Again

theorem has_annotate {problem : Problem} {sort other : AttachmentSort} {point : sort.Point}
    {place : other.Point} {properties : List Property} :
    (problem.annotate sort point properties).Has other place ↔ problem.Has other place := by
  cases sort <;> cases other <;> exact Iff.rfl

theorem operations_annotate (problem : Problem) (sort : AttachmentSort) (point : sort.Point)
    (properties : List Property) :
    (problem.annotate sort point properties).operations = problem.operations := by
  cases sort <;> rfl

end Problem

namespace PropertyKind

section Values

variable {Point Value : Type} {kind : PropertyKind Point} {read : Property → Option Value}
  {write : Value → Property} {get : Problem → Point → Option Value}

theorem encode_eq_listed? (kinds : List (PropertyKind Point)) (problem : Problem) (point : Point) :
    encode kinds problem point =
      Property.listed? (kinds.filterMap fun kind => kind.query problem point) := by
  unfold encode
  cases kinds.filterMap fun kind => kind.query problem point <;> rfl

/-- The last property of a list that a kind accepts. -/
def lastAccepted? (kind : PropertyKind Point) (properties : Option (List Property)) :
    Option Property :=
  ((properties.getD []).filter kind.accepts).getLast?

theorem lastAccepted?_eq_none {properties : Option (List Property)}
    (refused : ∀ property ∈ properties.getD [], kind.accepts property = false) :
    kind.lastAccepted? properties = none := by
  have nothing : (properties.getD []).filter kind.accepts = [] :=
    List.filter_eq_nil_iff.mpr fun property member => by simp [refused property member]
  rw [lastAccepted?, nothing]
  rfl

theorem accepts_of_lastAccepted? {properties : Option (List Property)} {property : Property}
    (last : kind.lastAccepted? properties = some property) : kind.accepts property :=
  (List.mem_filter.mp (List.mem_of_getLast? last)).2

/-- Where the last value of a list is recorded, the last property that was accepted is answered. -/
theorem Carries.query_recorded (carries : kind.Carries read write get) {problem changed : Problem}
    {point : Point} {properties : Option (List Property)}
    (recorded : get changed point =
      (Property.last? read (properties.getD [])).or (get problem point)) :
    kind.query changed point = (kind.lastAccepted? properties).or (kind.query problem point) := by
  rw [carries.query, carries.query, recorded, Option.map_or,
    Property.map_last? carries.accepts carries.writes, lastAccepted?]

theorem Carries.query_congr (carries : kind.Carries read write get) {problem changed : Problem}
    {point : Point} (same : get changed point = get problem point) :
    kind.query changed point = kind.query problem point := by
  rw [carries.query, carries.query, same]

end Values

theorem KeptIf.eq_or_eq_none {Value : Type} {asked : Prop} {original kept : Option Value}
    (keptIf : KeptIf asked original kept) : kept = original ∨ kept = none := by
  by_cases ask : asked
  · exact .inl (keptIf.1 ask)
  · exact .inr (keptIf.2 ask)

end PropertyKind

namespace AttachmentSort

theorem mem_builtIn_problem {kind : PropertyKind Unit} :
    kind ∈ builtIn .problem ↔ kind = initiationInterval :=
  List.mem_singleton

theorem mem_builtIn_operatorType {kind : PropertyKind OperatorType} :
    kind ∈ builtIn .operatorType ↔ kind = latency ∨ kind = limit :=
  List.mem_cons.trans (or_congr_right List.mem_singleton)

theorem mem_builtIn_operation {kind : PropertyKind OperationId} :
    kind ∈ builtIn .operation ↔ kind = link ∨ kind = startTime :=
  List.mem_cons.trans (or_congr_right List.mem_singleton)

theorem mem_builtIn_dependence {kind : PropertyKind Dependence} :
    kind ∈ builtIn .dependence ↔ kind = distance :=
  List.mem_singleton

/-- A number that a built-in kind accepts is taken as it is. -/
theorem exists_word {sort : AttachmentSort} {kind : PropertyKind sort.Point}
    (known : kind ∈ sort.builtIn) {property : Property} {number : Int64}
    (accepted : kind.accepts property) (only : property.single? = some (.integer number)) :
    ∃ word : UInt32, (word.toNat : Int) = number.toInt ∧
      property = .ofNumber property.mnemonic word := by
  cases sort with
  | problem =>
    cases mem_builtIn_problem.mp known
    exact Property.exists_ofNumber_of_single? accepted only
  | operatorType =>
    rcases mem_builtIn_operatorType.mp known with rfl | rfl
    all_goals exact Property.exists_ofNumber_of_single? accepted only
  | operation =>
    rcases mem_builtIn_operation.mp known with rfl | rfl
    · -- a link holds no number
      obtain ⟨target, found⟩ := Option.isSome_iff_exists.mp
        ((link_carries.accepts property).symm.trans accepted)
      cases Property.ofLink_of_link? found
      cases only
    · exact Property.exists_ofNumber_of_single? accepted only
  | dependence =>
    cases mem_builtIn_dependence.mp known
    exact Property.exists_ofNumber_of_single? accepted only

/-! ## What is recorded where -/

section Recording

variable {sort other : AttachmentSort} {point : sort.Point} {problem : Problem}
  {properties : Option (List Property)}

/-- Each kind answers with the last property that it accepted, if it accepted one. -/
theorem query_annotate_self {kind : PropertyKind sort.Point} (known : kind ∈ sort.builtIn) :
    kind.query (problem.annotate sort point (properties.getD [])) point =
      (kind.lastAccepted? properties).or (kind.query problem point) := by
  cases sort with
  | problem =>
    cases mem_builtIn_problem.mp known
    exact initiationInterval_carries.query_recorded rfl
  | operatorType =>
    rcases mem_builtIn_operatorType.mp known with rfl | rfl
    · exact latency_carries.query_recorded (Assignment.get?_record_self ..)
    · exact limit_carries.query_recorded (Assignment.get?_record_self ..)
  | operation =>
    rcases mem_builtIn_operation.mp known with rfl | rfl
    · exact link_carries.query_recorded (Assignment.get?_record_self ..)
    · exact startTime_carries.query_recorded (Assignment.get?_record_self ..)
  | dependence =>
    cases mem_builtIn_dependence.mp known
    exact distance_carries.query_recorded (Assignment.get?_record_self ..)

/-- Every sort has tables of its own. -/
theorem query_annotate_of_sort_ne {place : other.Point} (different : other ≠ sort)
    {kind : PropertyKind other.Point} (known : kind ∈ other.builtIn) (values : List Property) :
    kind.query (problem.annotate sort point values) place = kind.query problem place := by
  cases other with
  | problem =>
    cases mem_builtIn_problem.mp known
    cases sort with
    | problem => contradiction
    | operatorType | operation | dependence => rfl
  | operatorType =>
    rcases mem_builtIn_operatorType.mp known with rfl | rfl
    all_goals
      cases sort with
      | operatorType => contradiction
      | problem | operation | dependence => rfl
  | operation =>
    rcases mem_builtIn_operation.mp known with rfl | rfl
    all_goals
      cases sort with
      | operation => contradiction
      | problem | operatorType | dependence => rfl
  | dependence =>
    cases mem_builtIn_dependence.mp known
    cases sort with
    | dependence => contradiction
    | problem | operatorType | operation => rfl

theorem query_annotate_of_point_ne {place : sort.Point} (different : place ≠ point)
    {kind : PropertyKind sort.Point} (known : kind ∈ sort.builtIn) (values : List Property) :
    kind.query (problem.annotate sort point values) place = kind.query problem place := by
  cases sort with
  | problem => exact absurd rfl different
  | operatorType =>
    rcases mem_builtIn_operatorType.mp known with rfl | rfl
    · exact latency_carries.query_congr (Assignment.get?_record_of_ne _ _ different)
    · exact limit_carries.query_congr (Assignment.get?_record_of_ne _ _ different)
  | operation =>
    rcases mem_builtIn_operation.mp known with rfl | rfl
    · exact link_carries.query_congr (Assignment.get?_record_of_ne _ _ different)
    · exact startTime_carries.query_congr (Assignment.get?_record_of_ne _ _ different)
  | dependence =>
    cases mem_builtIn_dependence.mp known
    exact distance_carries.query_congr (Assignment.get?_record_of_ne _ _ different)

/-- What is recorded at one place is not seen at another one. -/
theorem query_annotate_of_ne {place : other.Point}
    (different : (⟨other, place⟩ : Attachment) ≠ ⟨sort, point⟩) {kind : PropertyKind other.Point}
    (known : kind ∈ other.builtIn) (values : List Property) :
    kind.query (problem.annotate sort point values) place = kind.query problem place := by
  by_cases same : other = sort
  · subst same
    have apart : place ≠ point := fun equal => different (by rw [equal])
    exact query_annotate_of_point_ne apart known values
  · exact query_annotate_of_sort_ne same known values

end Recording

/-! ## Decoding -/

/-- Lists of kinds that are empty for all sorts but one. -/
def alone : (sort : AttachmentSort) → List (PropertyKind sort.Point) → ProblemKinds
  | .problem, kinds => { ProblemKinds.none with problem := kinds }
  | .operatorType, kinds => { ProblemKinds.none with operatorType := kinds }
  | .operation, kinds => { ProblemKinds.none with operation := kinds }
  | .dependence, kinds => { ProblemKinds.none with dependence := kinds }

variable {sort : AttachmentSort} {kinds : List (PropertyKind sort.Point)} {point : sort.Point}
  (known : ∀ kind ∈ kinds, kind ∈ sort.builtIn)

include known

theorem builtIn_alone : (sort.alone kinds).BuiltIn := by
  cases sort with
  | problem => exact ⟨nofun, nofun, nofun, fun kind member => mem_builtIn_problem.mp (known kind member)⟩
  | operatorType =>
    exact ⟨nofun, fun kind member => mem_builtIn_operatorType.mp (known kind member), nofun, nofun⟩
  | operation =>
    exact ⟨fun kind member => mem_builtIn_operation.mp (known kind member), nofun, nofun, nofun⟩
  | dependence =>
    exact ⟨nofun, nofun, fun kind member => mem_builtIn_dependence.mp (known kind member), nofun⟩

/-- Built-in kinds record the last values, where there is something to attach them to. -/
theorem interpreted (point : sort.Point) : Interpreted kinds point (fun problem => problem.Has sort point)
    fun problem => problem.annotate sort point := by
  have builtIn := builtIn_alone known
  cases sort with
  | problem => exact builtIn.interpreted_problem
  | operatorType => exact builtIn.interpreted_operatorType point
  | operation => exact builtIn.interpreted_operation point
  | dependence => exact builtIn.interpreted_dependence point

theorem accepts_encoded (problem : Problem) : Accepted kinds (encode kinds problem point) := by
  have builtIn := builtIn_alone known
  cases sort with
  | problem => exact builtIn.accepted_encode_problem problem
  | operatorType => exact builtIn.accepted_encode_operatorType problem point
  | operation => exact builtIn.accepted_encode_operation problem point
  | dependence => exact builtIn.accepted_encode_dependence problem point

/-- What a problem has at a place can be recorded there again. -/
theorem annotate_encode (problem : Problem) :
    problem.annotate sort point ((encode kinds problem point).getD []) = problem := by
  have builtIn := builtIn_alone known
  cases sort with
  | problem =>
    exact Problem.annotateInstance_eq_self
      (initiationInterval_carries.keptIf_last?_encode builtIn.singles_initiationInterval ..).eq_or_eq_none
  | operatorType =>
    exact Problem.annotateOperatorType_eq_self
      (latency_carries.keptIf_last?_encode builtIn.singles_latency ..).eq_or_eq_none
      (limit_carries.keptIf_last?_encode builtIn.singles_limit ..).eq_or_eq_none
  | operation =>
    exact Problem.annotateOperation_eq_self
      (link_carries.keptIf_last?_encode builtIn.singles_link ..).eq_or_eq_none
      (startTime_carries.keptIf_last?_encode builtIn.singles_startTime ..).eq_or_eq_none
  | dependence =>
    exact Problem.annotateDependence_eq_self
      (distance_carries.keptIf_last?_encode builtIn.singles_distance ..).eq_or_eq_none

end AttachmentSort

/-! ## Lists of built-in kinds -/

namespace PropertyKind

open AttachmentSort (accepts_encoded annotate_encode exists_word interpreted query_annotate_of_ne
  query_annotate_self)

variable {sort : AttachmentSort} {kinds : List (PropertyKind sort.Point)} {point : sort.Point}
  {properties : Option (List Property)} {problem : Problem}

/-- What decoding a list makes of a problem. -/
structure Recorded (sort : AttachmentSort) (kinds : List (PropertyKind sort.Point))
    (point : sort.Point) (properties : Option (List Property)) (problem changed : Problem) :
    Prop where
  /-- Each kind has the last property that it accepts, as it stands in the list, or what it had. -/
  encoded : encode kinds changed point = Property.listed? (kinds.filterMap fun kind =>
    (kind.lastAccepted? properties).or (kind.query problem point))
  settled : decodeOptional kinds point (encode kinds changed point) changed = (changed, .ok ())
  /-- The 32-bit number that a problem has is the 64-bit number in the property. -/
  whole : ∀ kind ∈ kinds, ∀ property number, kind.lastAccepted? properties = some property →
    property.single? = some (.integer number) → ∃ word : UInt32,
      (word.toNat : Int) = number.toInt ∧
        kind.query changed point = some (.ofNumber property.mnemonic word)
  names : changed.instanceName = problem.instanceName ∧ changed.problemName = problem.problemName
  operatorTypes : changed.operatorTypes = problem.operatorTypes
  operations : changed.operations = problem.operations
  dependences : ∀ operation, changed.dependences operation = problem.dependences operation
  here : ∀ kind ∈ sort.builtIn,
    (∀ property ∈ properties.getD [], kind.accepts property = false) →
      kind.query changed point = kind.query problem point
  elsewhere : ∀ (other : AttachmentSort) (place : other.Point),
    (⟨other, place⟩ : Attachment) ≠ ⟨sort, point⟩ →
      ∀ kind ∈ other.builtIn, kind.query changed place = kind.query problem place

theorem recorded_annotate (known : ∀ kind ∈ kinds, kind ∈ sort.builtIn)
    (has : problem.Has sort point) : Recorded sort kinds point properties problem
      (problem.annotate sort point (properties.getD [])) where
  encoded := by
    rw [encode_eq_listed?]
    congr 1
    exact List.filterMap_congr fun kind member => query_annotate_self (known kind member)
  settled := by
    rw [← Edited.toExcept_eq_ok_iff, (interpreted known point).decodeOptional_eq_ok_iff
      (Problem.has_annotate.mpr has)]
    exact ⟨accepts_encoded known _, (annotate_encode known _).symm⟩
  whole := by
    intro kind member property number last only
    have accepted : kind.accepts property := accepts_of_lastAccepted? last
    obtain ⟨word, same, written⟩ := exists_word (known kind member) accepted only
    refine ⟨word, same, ?_⟩
    rw [query_annotate_self (known kind member), last, ← written]
    rfl
  names := by cases sort <;> exact ⟨rfl, rfl⟩
  operatorTypes := by cases sort <;> rfl
  operations := problem.operations_annotate sort point _
  dependences := by
    intro operation
    rw [Problem.dependences, Problem.operations_annotate, Problem.dependences]
  here := by
    intro kind member refused
    rw [query_annotate_self member, lastAccepted?_eq_none refused, Option.none_or]
  elsewhere := by
    intro other place different kind member
    exact query_annotate_of_ne different member _

/-- Decoding at a place that is there only fails at a property that no kind accepts, and otherwise
records the properties. -/
theorem decodeOptional_records (known : ∀ kind ∈ kinds, kind ∈ sort.builtIn)
    (has : problem.Has sort point) (properties : Option (List Property)) :
    ((decodeOptional kinds point properties problem).2 = .ok () ↔ Accepted kinds properties) ∧
      (¬ Accepted kinds properties → ∃ property ∈ properties.getD [],
        (∀ kind ∈ kinds, ¬ kind.accepts property) ∧
          (decodeOptional kinds point properties problem).2 =
            .error (.unrecognizedProperty (AttachmentPoint.describe point) property)) ∧
      (Accepted kinds properties → Recorded sort kinds point properties problem
        (decodeOptional kinds point properties problem).1) := by
  have interpreted := AttachmentSort.interpreted known point
  have succeeds : Accepted kinds properties → decodeOptional kinds point properties problem =
      (problem.annotate sort point (properties.getD []), .ok ()) := by
    intro accepted
    rw [← Edited.toExcept_eq_ok_iff, interpreted.decodeOptional_eq_ok_iff has]
    exact ⟨accepted, rfl⟩
  have accepts : (decodeOptional kinds point properties problem).2 = .ok () →
      Accepted kinds properties := by
    intro ok
    exact ((interpreted.decodeOptional_eq_ok_iff has).mp (Edited.toExcept_of_ok ok)).1
  refine ⟨⟨accepts, ?ok⟩, ?error, ?recorded⟩
  case ok =>
    intro accepted
    rw [succeeds accepted]
  case error =>
    intro refused
    cases ending : (decodeOptional kinds point properties problem).2 with
    | ok _ => exact absurd (accepts ending) refused
    | error error =>
      obtain ⟨property, member, unaccepted, same⟩ := interpreted.failsOnly_decodeOptional has error
        (Edited.toExcept_eq_error_iff.mpr ending)
      exact ⟨property, member, unaccepted, congrArg _ same⟩
  case recorded =>
    intro accepted
    rw [succeeds accepted]
    exact recorded_annotate known has

/-- Two operations, the second one scheduled and behind the first one, which is linked. -/
def scheduled : List ProblemCall :=
  [.insertOperatorType ⟨"alu"⟩, .insertOperation 1, .insertOperation 0,
    .setOperands ⟨1⟩ [⟨⟨0⟩, 0⟩], .setLink ⟨0⟩ ⟨"alu"⟩, .setStartTime ⟨1⟩ 4,
    .setDistance (.data ⟨0⟩ 0 ⟨1⟩ 0) 1]

/-- A second link replaces the first one, and the start time the one there was.  A latency is refused
behind a link that stays. -/
theorem decodeOptional_records_rescheduled :
    let problem := scheduled.foldl Problem.after (Problem.empty "scheduled" "CyclicProblem")
    let second : AttachmentSort.Point .operation := OperationId.mk 1
    let kinds : List (PropertyKind (AttachmentSort.Point .operation)) := [startTime, link]
    let properties : List Property := [.ofLink ⟨"mul"⟩, .ofNumber "start_time" 7, .ofLink ⟨"add"⟩]
    let refused : List Property := [.ofLink ⟨"mul"⟩, .ofNumber "latency" 7]
    let changed := (decodeOptional kinds second (some properties) problem).1
    problem.Reachable ∧ problem.Has .operation second ∧
      (decodeOptional kinds second (some properties) problem).2 = .ok () ∧
      Recorded .operation kinds second (some properties) problem changed ∧
      encode kinds changed second = some [.ofNumber "start_time" 7, .ofLink ⟨"add"⟩] ∧
      problem.startTime ⟨1⟩ = some 4 ∧ changed.startTime ⟨1⟩ = some 7 ∧
      changed.link ⟨0⟩ = some ⟨"alu"⟩ ∧ changed.distance (.data ⟨0⟩ 0 ⟨1⟩ 0) = some 1 ∧
      ∃ property ∈ refused, (∀ kind ∈ kinds, ¬ kind.accepts property) ∧
        (decodeOptional kinds second (some refused) problem).2 =
          .error (.unrecognizedProperty "operation#1" property) ∧
        (decodeOptional kinds second (some refused) problem).1.link ⟨1⟩ = some ⟨"mul"⟩ := by
  intro problem second kinds properties refused changed
  have known : ∀ kind ∈ kinds, kind ∈ AttachmentSort.builtIn .operation :=
    List.forall_mem_cons.mpr ⟨.tail _ (.head _), List.forall_mem_singleton.mpr (.head _)⟩
  have has : problem.Has .operation second := rfl
  have accepted : Accepted kinds (some properties) := by decide
  have unaccepted : ¬ Accepted kinds (some refused) := by decide
  obtain ⟨succeeds, _, records⟩ := decodeOptional_records known has (some properties)
  obtain ⟨_, fails, _⟩ := decodeOptional_records known has (some refused)
  obtain ⟨property, member, none, ending⟩ := fails unaccepted
  have described : AttachmentPoint.describe second = "operation#1" := by decide
  rw [described] at ending
  exact ⟨⟨_, _, _, rfl⟩, has, succeeds.mpr accepted, records accepted, rfl, rfl, rfl, rfl, rfl,
    property, member, none, ending, rfl⟩

end PropertyKind

end StaticScheduling
