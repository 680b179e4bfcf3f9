import StaticScheduling.Proofs.Loading.Connections
import StaticScheduling.Proofs.Problem.Reachable

/-! # Problems of loadable documents

In a loadable document each operator type is declared once and each dependence
has at most one record, so the tables of its problem can be read off single
property lists.  The problem is well formed.
-/

namespace StaticScheduling

attribute [ext] Problem

/-- Where the images of a list are distinct, only one element has a given image. -/
theorem filter_eq_singleton_of_nodup_filterMap {Element Image : Type} [DecidableEq Image]
    {image : Element → Option Image} {elements : List Element}
    (distinct : (elements.filterMap image).Nodup) {element : Element} (member : element ∈ elements)
    {value : Image} (here : image element = some value) :
    elements.filter (fun other => image other = some value) = [element] := by
  induction elements with
  | nil => cases member
  | cons first rest inductionHypothesis =>
    -- the element is the first one with this image, or one of the rest, and never both
    have absent (found : image first = some value) : ∀ other ∈ rest, image other ≠ some value := by
      intro other present same
      rw [List.filterMap_cons, found, List.nodup_cons] at distinct
      exact distinct.1 (List.mem_filterMap.mpr ⟨other, present, same⟩)
    by_cases found : image first = some value
    · have none : rest.filter (fun other => image other = some value) = [] := by
        rw [List.filter_eq_nil_iff]
        intro other present
        rw [decide_eq_true_eq]
        exact absent found other present
      rcases List.mem_cons.mp member with rfl | member
      · rw [List.filter_cons, if_pos (decide_eq_true found), none]
      · exact absurd here (absent found element member)
    · have restDistinct : (rest.filterMap image).Nodup := by
        rw [List.filterMap_cons] at distinct
        split at distinct
        · exact distinct
        · exact (List.nodup_cons.mp distinct).2
      rw [List.filter_cons, if_neg (by simpa using found)]
      rcases List.mem_cons.mp member with rfl | member
      · exact absurd here found
      · exact inductionHypothesis restDistinct member

namespace Instance

/-! ## Operator types -/

/-- The properties of an operator type are those of its declaration. -/
theorem propertiesOf_of_mem {declarations : List OperatorTypeDecl}
    (distinct : (declarations.map OperatorTypeDecl.name).Nodup) {declaration : OperatorTypeDecl}
    (member : declaration ∈ declarations) :
    propertiesOf declarations ⟨declaration.name⟩ = declaration.properties.getD [] := by
  have images : (declarations.filterMap fun other => some other.name).Nodup := by
    rw [List.filterMap_eq_map']
    exact distinct
  have only := filter_eq_singleton_of_nodup_filterMap images member (Eq.refl (some declaration.name))
  simp only [Option.some.injEq] at only
  rw [propertiesOf, only, List.flatMap_singleton]

end Instance

/-! ## Records and dependences -/

namespace DependenceRecord

theorem le_index_of_mem_ofSources {record : DependenceRecord} {number : Nat}
    {sources : List (String × Option (List Property))} (member : record ∈ ofSources number sources) :
    number ≤ record.slot.index := by
  induction sources generalizing number with
  | nil => cases member
  | cons first sources inductionHypothesis =>
    rcases List.mem_cons.mp member with rfl | member
    · exact Nat.le_refl _
    · exact Nat.le_of_succ_le (inductionHypothesis member)

theorem increasing_ofSources (number : Nat) (sources : List (String × Option (List Property))) :
    (ofSources number sources).Pairwise fun first second =>
      first.slot.index < second.slot.index := by
  induction sources generalizing number with
  | nil => exact .nil
  | cons first sources inductionHypothesis =>
    refine .cons ?_ (inductionHypothesis (number + 1))
    intro record member
    exact le_index_of_mem_ofSources member

/-- Records in order have increasing indices. -/
theorem InOrder.increasing {operands : Nat} {records : List DependenceRecord}
    (inOrder : InOrder operands records) :
    records.Pairwise fun first second => first.slot.index < second.slot.index := by
  obtain ⟨marks, sources, increasing, bounds, rfl⟩ := inOrder
  rw [List.pairwise_append]
  refine ⟨?_, increasing_ofSources operands sources, ?_⟩
  · rw [ofOperands, List.pairwise_map]
    exact List.pairwise_map.mp increasing
  · intro first firstMember second secondMember
    obtain ⟨mark, present, rfl⟩ := List.mem_map.mp firstMember
    exact Nat.lt_of_lt_of_le (bounds mark present) (le_index_of_mem_ofSources secondMember)

end DependenceRecord

namespace Instance

variable {document : Instance} {kinds : ProblemKinds} {declaration : OperationDecl}
  {operation : OperationId} {dependence : Dependence}

theorem destination_of_dependenceAt? {operands : List String} {slot : Slot}
    (describes : document.dependenceAt? operation operands slot = some dependence) :
    dependence.destination = operation := by
  cases slot with
  | operand index =>
    obtain ⟨_, _, rfl⟩ := Option.map_eq_some_iff.mp describes
    rfl
  | named index source =>
    obtain ⟨_, _, rfl⟩ := Option.map_eq_some_iff.mp describes
    rfl

/-- Slots with different indices that name different sources stand for different dependences. -/
theorem slot_eq_of_dependenceAt? {operands : List String} {first second : Slot}
    (firstDescribes : document.dependenceAt? operation operands first = some dependence)
    (secondDescribes : document.dependenceAt? operation operands second = some dependence) :
    first.index = second.index ∨ ∃ source, first.source? = some source ∧
      second.source? = some source := by
  cases first with
  | operand firstIndex =>
    obtain ⟨_, _, rfl⟩ := Option.map_eq_some_iff.mp firstDescribes
    cases second with
    | operand secondIndex =>
      obtain ⟨_, _, same⟩ := Option.map_eq_some_iff.mp secondDescribes
      exact .inl (Dependence.data.inj same).2.2.2.symm
    | named secondIndex secondSource =>
      obtain ⟨_, _, same⟩ := Option.map_eq_some_iff.mp secondDescribes
      cases same
  | named firstIndex firstSource =>
    obtain ⟨_, firstFound, rfl⟩ := Option.map_eq_some_iff.mp firstDescribes
    cases second with
    | operand secondIndex =>
      obtain ⟨_, _, same⟩ := Option.map_eq_some_iff.mp secondDescribes
      cases same
    | named secondIndex secondSource =>
      obtain ⟨_, secondFound, same⟩ := Option.map_eq_some_iff.mp secondDescribes
      cases same
      have firstNamed := nameOf?_of_resolveOperation? firstFound
      rw [nameOf?_of_resolveOperation? secondFound] at firstNamed
      exact .inr ⟨firstSource, rfl, firstNamed⟩

theorem Connectable.isSome_resolveValue? (connectable : document.Connectable kinds declaration) :
    ∀ name ∈ declaration.operands, (document.resolveValue? name).isSome := by
  intro name used
  exact resolveValue?_isSome_iff.mpr (connectable.operands name used)

/-- The records of a connectable operation describe different dependences. -/
theorem Connectable.nodup_dependences (connectable : document.Connectable kinds declaration)
    (operation : OperationId) :
    (declaration.dependences.filterMap fun record =>
      document.dependenceAt? operation declaration.operands record.slot).Nodup := by
  -- two slots for one dependence would have the same index or name the same source
  have increasing := (recordFault?_eq_none_iff.mp connectable.records).increasing
  have distinct := List.pairwise_filterMap.mp connectable.distinct
  refine List.pairwise_filterMap.mpr ((increasing.and distinct).imp ?_)
  rintro first second ⟨before, apart⟩ dependence firstDescribes _ secondDescribes rfl
  rcases slot_eq_of_dependenceAt? firstDescribes secondDescribes with same | ⟨source, one, other⟩
  · exact Nat.lt_irrefl _ (same ▸ before)
  · exact apart source one source other rfl

/-- The properties of a dependence are those of the record that describes it. -/
theorem Connectable.propertiesAt_of_mem (connectable : document.Connectable kinds declaration)
    {record : DependenceRecord} (member : record ∈ declaration.dependences)
    (describes : document.dependenceAt? operation declaration.operands record.slot =
      some dependence) :
    document.propertiesAt declaration dependence = record.properties.getD [] := by
  have ends := destination_of_dependenceAt? describes
  have only := filter_eq_singleton_of_nodup_filterMap (connectable.nodup_dependences operation)
    member describes
  rw [propertiesAt, ends, only, List.flatMap_singleton]

/-- A dependence that no record describes has no properties. -/
theorem propertiesAt_of_forall (absent : ∀ record ∈ declaration.dependences,
    document.dependenceAt? dependence.destination declaration.operands record.slot ≠
      some dependence) : document.propertiesAt declaration dependence = [] := by
  have none : declaration.dependences.filter (fun record =>
      document.dependenceAt? dependence.destination declaration.operands record.slot =
        some dependence) = [] := by
    rw [List.filter_eq_nil_iff]
    intro record member describes
    exact absent record member (of_decide_eq_true describes)
  rw [propertiesAt, none, List.flatMap_nil]

/-! ## The problem -/

theorem getElem?_meaning (document : Instance) (index : Nat) :
    document.meaning.operations[index]? =
      document.operations[index]?.map document.connectedNode := by
  simp [meaning, withDependences]

theorem resultCounts_meaning (document : Instance) :
    document.meaning.resultCounts =
      document.operations.map fun declaration => declaration.results.length := by
  simp only [Problem.resultCounts, meaning, withDependences, List.map_nil, List.append_nil,
    List.map_map]
  rfl

theorem link_meaning (inside : document.operations[operation.index]? = some declaration) :
    document.meaning.link operation =
      Property.last? Property.link? (declaration.properties.getD []) := by
  show (document.operations[operation.index]?.bind fun declaration =>
    Property.last? Property.link? (declaration.properties.getD [])) = _
  rw [inside, Option.bind_some]

theorem startTime_meaning (inside : document.operations[operation.index]? = some declaration) :
    document.meaning.startTime operation =
      Property.last? (Property.number? "start_time") (declaration.properties.getD []) := by
  show (document.operations[operation.index]?.bind fun declaration =>
    Property.last? (Property.number? "start_time") (declaration.properties.getD [])) = _
  rw [inside, Option.bind_some]

theorem distance_meaning
    (inside : document.operations[dependence.destination.index]? = some declaration) :
    document.meaning.distance dependence =
      Property.last? (Property.number? "distance")
        (document.propertiesAt declaration dependence) := by
  show (document.operations[dependence.destination.index]?.bind fun declaration =>
    Property.last? (Property.number? "distance")
      (document.propertiesAt declaration dependence)) = _
  rw [inside, Option.bind_some]

/-- A record describes a dependence of the problem. -/
theorem Connectable.containsDependence (connectable : document.Connectable kinds declaration)
    (inside : document.operations[operation.index]? = some declaration)
    {record : DependenceRecord} (member : record ∈ declaration.dependences)
    (describes : document.dependenceAt? operation declaration.operands record.slot =
      some dependence) : document.meaning.containsDependence dependence := by
  have node : document.meaning.operations[operation.index]? =
      some (document.connectedNode declaration) := by
    rw [getElem?_meaning, inside, Option.map_some]
  cases slot : record.slot with
  | operand index =>
    rw [slot] at describes
    obtain ⟨operand, found, rfl⟩ := Option.map_eq_some_iff.mp describes
    refine Problem.containsDependence_data_iff.mpr ⟨_, node, ?_⟩
    exact (getElem?_filterMap_of_isSome connectable.isSome_resolveValue? index).trans found
  | named index name =>
    rw [slot] at describes
    obtain ⟨source, found, rfl⟩ := Option.map_eq_some_iff.mp describes
    refine Problem.containsDependence_auxiliary_iff.mpr ⟨_, node, ?_⟩
    refine List.mem_filterMap.mpr ⟨name, ?_, found⟩
    exact List.mem_filterMap.mpr ⟨record, member, by rw [slot]; rfl⟩

theorem Connectable.consistent (connectable : document.Connectable kinds declaration) :
    Problem.Consistent document.meaning.resultCounts (document.connectedNode declaration) := by
  rw [resultCounts_meaning]
  refine ⟨?_, ?_, ?_, nofun⟩
  · intro operand member
    obtain ⟨name, _, found⟩ := List.mem_filterMap.mp member
    obtain ⟨source, inside, bears⟩ :=
      Option.bind_eq_some_iff.mp (valueAt?_of_resolveValue? found)
    exact ⟨source.results.length, by rw [List.getElem?_map, inside, Option.map_some],
      (List.getElem?_eq_some_iff.mp bears).1⟩
  · intro source member
    obtain ⟨name, _, found⟩ := List.mem_filterMap.mp member
    obtain ⟨_, inside, _⟩ := Option.bind_eq_some_iff.mp (nameOf?_of_resolveOperation? found)
    rw [List.length_map]
    exact (List.getElem?_eq_some_iff.mp inside).1
  · refine List.pairwise_filterMap.mpr (connectable.distinct.imp ?_)
    rintro first second different source firstFound _ secondFound rfl
    have named := nameOf?_of_resolveOperation? firstFound
    rw [nameOf?_of_resolveOperation? secondFound] at named
    exact different (Option.some.inj named).symm

theorem Loadable.wellFormed_meaning (loadable : document.Loadable kinds) :
    document.meaning.WellFormed := by
  have inside {Value : Type} {value : OperationDecl → Option Value} {operation : OperationId}
      (found : (document.operations[operation.index]?.bind value).isSome) :
      document.meaning.hasOperation operation := by
    obtain ⟨_, found⟩ := Option.isSome_iff_exists.mp found
    obtain ⟨declaration, here, _⟩ := Option.bind_eq_some_iff.mp found
    exact Problem.hasOperation_iff.mpr ⟨_, by rw [getElem?_meaning, here, Option.map_some]⟩
  refine ⟨?_, ?_, fun operation found => inside found, fun operation found => inside found, ?_⟩
  · have distinct := List.pairwise_map.mp loadable.operatorTypes
    refine List.pairwise_map.mpr (distinct.imp ?_)
    intro first second different same
    exact different (congrArg OperatorType.name same)
  · intro node member
    obtain ⟨declaration, present, rfl⟩ := List.mem_map.mp
      (show node ∈ document.operations.map document.connectedNode by
        simpa [meaning, withDependences] using member)
    exact (loadable.connectable declaration present).consistent
  · intro dependence found
    -- a distance was in a property, and the record that holds it describes the dependence
    obtain ⟨value, found⟩ := Option.isSome_iff_exists.mp found
    obtain ⟨declaration, here, last⟩ := Option.bind_eq_some_iff.mp found
    obtain ⟨property, member, _⟩ := Property.exists_of_last? last
    obtain ⟨record, kept, _⟩ := List.mem_flatMap.mp member
    obtain ⟨present, describes⟩ := List.mem_filter.mp kept
    exact (loadable.connectable declaration (List.mem_of_getElem? here)).containsDependence here
      present (of_decide_eq_true describes)

end Instance

end StaticScheduling
