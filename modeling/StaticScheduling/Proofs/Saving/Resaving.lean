import StaticScheduling.Proofs.Loading.Registration
import StaticScheduling.Proofs.Saving.Identity
import StaticScheduling.Proofs.Saving.Validity

/-! # Saving what was loaded

A problem that was loaded holds no values but those that its kinds are about.
So nothing is lost when it is saved, under whatever names, and loaded again: the
problem is the same as before.
-/

namespace StaticScheduling

open PropertyKind (KeptIf Accepted Singles)

/-- Values that are kept where they are asked for, that are nowhere else, and of which there are
none unless they are asked for, are the same as before. -/
theorem PropertyKind.eq_of_keptIf {Key Value : Type} {asked : Prop} {registered : Key → Prop}
    {original loaded : Key → Option Value}
    (kept : ∀ key, registered key → KeptIf asked (original key) (loaded key))
    (absent : ¬ asked → ∀ key, original key = none)
    (inside : ∀ key, (original key).isSome ∨ (loaded key).isSome → registered key) (key : Key) :
    loaded key = original key := by
  -- a key that is not registered has no value on either side
  by_cases here : registered key
  · by_cases ask : asked
    · exact (kept key here).1 ask
    · rw [(kept key here).2 ask, absent ask key]
  · obtain ⟨before, after⟩ := not_or.mp (mt (inside key) here)
    rw [Option.not_isSome_iff_eq_none.mp before, Option.not_isSome_iff_eq_none.mp after]

/-- Which dependences a problem contains is said by its operations. -/
theorem Problem.containsDependence_congr {first second : Problem}
    (same : first.operations = second.operations) (dependence : Dependence) :
    first.containsDependence dependence ↔ second.containsDependence dependence := by
  cases dependence with
  | data source result destination slot =>
    rw [containsDependence_data_iff, containsDependence_data_iff, same]
  | auxiliary source destination =>
    rw [containsDependence_auxiliary_iff, containsDependence_auxiliary_iff, same]

namespace Instance

variable {document : Instance} {kinds : ProblemKinds}

/-! ## Values that no kind is about -/

section Absent

variable (loadable : document.Loadable kinds) (builtIn : kinds.BuiltIn)

include loadable

theorem Loadable.accepted_propertiesOf (operatorType : OperatorType) :
    Accepted kinds.operatorType (some (propertiesOf document.operatorTypes operatorType)) := by
  intro property member
  obtain ⟨declaration, kept, stated⟩ := List.mem_flatMap.mp member
  exact loadable.operatorTypeProperties declaration (List.mem_filter.mp kept).1 property stated

theorem Loadable.accepted_propertiesAt {declaration : OperationDecl}
    (present : declaration ∈ document.operations) (dependence : Dependence) :
    Accepted kinds.dependence (some (document.propertiesAt declaration dependence)) := by
  intro property member
  obtain ⟨record, kept, stated⟩ := List.mem_flatMap.mp member
  have connectable := loadable.connectable declaration present
  exact connectable.accepted record (List.mem_filter.mp kept).1 property stated

include builtIn

theorem Loadable.latency_eq_none (absent : PropertyKind.latency ∉ kinds.operatorType)
    (operatorType : OperatorType) : document.meaning.latency operatorType = none :=
  builtIn.singles_latency.last?_of_not_mem absent (loadable.accepted_propertiesOf operatorType)

theorem Loadable.limit_eq_none (absent : PropertyKind.limit ∉ kinds.operatorType)
    (operatorType : OperatorType) : document.meaning.limit operatorType = none :=
  builtIn.singles_limit.last?_of_not_mem absent (loadable.accepted_propertiesOf operatorType)

theorem Loadable.link_eq_none (absent : PropertyKind.link ∉ kinds.operation)
    (operation : OperationId) : document.meaning.link operation = none := by
  cases inside : document.operations[operation.index]? with
  | none => exact congrArg (Option.bind · _) inside
  | some declaration =>
    rw [link_meaning inside]
    exact builtIn.singles_link.last?_of_not_mem absent
      (loadable.operationProperties declaration (List.mem_of_getElem? inside))

theorem Loadable.startTime_eq_none (absent : PropertyKind.startTime ∉ kinds.operation)
    (operation : OperationId) : document.meaning.startTime operation = none := by
  cases inside : document.operations[operation.index]? with
  | none => exact congrArg (Option.bind · _) inside
  | some declaration =>
    rw [startTime_meaning inside]
    exact builtIn.singles_startTime.last?_of_not_mem absent
      (loadable.operationProperties declaration (List.mem_of_getElem? inside))

theorem Loadable.distance_eq_none (absent : PropertyKind.distance ∉ kinds.dependence)
    (dependence : Dependence) : document.meaning.distance dependence = none := by
  cases inside : document.operations[dependence.destination.index]? with
  | none => exact congrArg (Option.bind · _) inside
  | some declaration =>
    rw [distance_meaning inside]
    exact builtIn.singles_distance.last?_of_not_mem absent
      (loadable.accepted_propertiesAt (List.mem_of_getElem? inside) dependence)

end Absent

/-! ## Loading again -/

/-- All operations of a loaded problem are connected. -/
theorem operations_meaning (document : Instance) :
    document.meaning.operations.map (fun node => { node with connected := true }) =
      document.meaning.operations := by
  have connected : document.meaning.operations = document.operations.map document.connectedNode := by
    simp [meaning, withDependences]
  rw [connected, List.map_map]
  rfl

/-- A loaded problem that is saved, under whatever names, and loaded again is the same problem. -/
theorem Loadable.meaning_document (loadable : document.Loadable kinds) (builtIn : kinds.BuiltIn)
    {names : NameTable} {supplied : OperationId → Option String}
    (named : names.Names document.meaning supplied) :
    (Problem.document document.meaning kinds names document.name document.problem).meaning =
      document.meaning := by
  have wellFormed := loadable.wellFormed_meaning
  have again : (Problem.document document.meaning kinds names document.name
      document.problem).Loadable kinds := Problem.loadable_document wellFormed named builtIn
  have loaded := again.wellFormed_meaning
  -- what is kept of the problem is all of it, as there is nothing the kinds are not about
  have kept : Problem.KeptUnder kinds document.meaning
      (Problem.document document.meaning kinds names document.name document.problem).meaning :=
    Problem.keptUnder_document wellFormed named builtIn
  have operations := kept.operations.trans document.operations_meaning
  have registered (operation : OperationId) : (Problem.document document.meaning kinds names
      document.name document.problem).meaning.hasOperation operation →
        document.meaning.hasOperation operation := by
    rw [Problem.hasOperation, operations]
    exact id
  have contained (dependence : Dependence) := Problem.containsDependence_congr operations dependence
  ext1
  · rfl
  · rfl
  · exact kept.operatorTypes
  · exact operations
  · by_cases asked : PropertyKind.initiationInterval ∈ kinds.problem
    · exact kept.initiationInterval.1 asked
    · rw [kept.initiationInterval.2 asked]
      exact (builtIn.singles_initiationInterval.last?_of_not_mem asked loadable.properties).symm
  · ext1 operatorType
    refine PropertyKind.eq_of_keptIf kept.latency (loadable.latency_eq_none builtIn) ?_ operatorType
    rintro operatorType (found | found)
    · exact mem_operatorTypes_meaning found
    · exact kept.operatorTypes ▸ mem_operatorTypes_meaning found
  · ext1 operatorType
    refine PropertyKind.eq_of_keptIf kept.limit (loadable.limit_eq_none builtIn) ?_ operatorType
    rintro operatorType (found | found)
    · exact mem_operatorTypes_meaning found
    · exact kept.operatorTypes ▸ mem_operatorTypes_meaning found
  · ext1 operation
    refine PropertyKind.eq_of_keptIf kept.link (loadable.link_eq_none builtIn) ?_ operation
    rintro operation (found | found)
    · exact wellFormed.links operation found
    · exact registered operation (loaded.links operation found)
  · ext1 operation
    refine PropertyKind.eq_of_keptIf kept.startTime (loadable.startTime_eq_none builtIn) ?_ operation
    rintro operation (found | found)
    · exact wellFormed.startTimes operation found
    · exact registered operation (loaded.startTimes operation found)
  · ext1 dependence
    refine PropertyKind.eq_of_keptIf kept.distance (loadable.distance_eq_none builtIn) ?_ dependence
    rintro dependence (found | found)
    · exact wellFormed.distances dependence found
    · exact (contained dependence).mp (loaded.distances dependence found)

end Instance

end StaticScheduling
