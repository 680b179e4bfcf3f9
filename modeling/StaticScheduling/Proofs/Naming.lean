import Mathlib.Data.List.Nodup
import StaticScheduling.Naming
import StaticScheduling.Proofs.Instance.Resolution
import StaticScheduling.Proofs.Problem.Reachable

/-! # Name tables

A table gives each operation at most one name, and each name to at most one
operation.  The names that the caller supplies are kept, the sources of
auxiliary dependences all have names, and no other operation has one.
-/

namespace StaticScheduling

/-! ## Made-up names -/

theorem toString_injective {first second : Nat} (same : toString first = toString second) :
    first = second := by
  have digits := congrArg (fun text => Nat.ofDigitChars 10 text.toList 0) same
  simpa [Nat.toString_eq_ofList_toDigits] using digits

theorem candidate_injective (stem : String) :
    Function.Injective fun number : Nat => stem ++ toString number :=
  fun _ _ same => toString_injective ((String.append_right_inj stem).mp same)

/-- The search ends at a label that is not taken: the labels struck off the list belong to smaller
numbers. -/
theorem freshIndex_spec {label : Nat → String}
    (injective : ∀ first second, label first = label second → first = second)
    (taken : List String) (index : Nat) :
    index ≤ freshIndex label taken index ∧ label (freshIndex label taken index) ∉ taken := by
  induction taken, index using freshIndex.induct label with
  | case1 taken index member inductionHypothesis =>
    rw [freshIndex, dif_pos member]
    obtain ⟨above, absent⟩ := inductionHypothesis
    refine ⟨Nat.le_of_succ_le above, ?_⟩
    intro present
    refine absent ((List.mem_erase_of_ne ?_).mpr present)
    intro same
    have := injective _ _ same
    omega
  | case2 taken index absent =>
    rw [freshIndex, dif_neg absent]
    exact ⟨Nat.le_refl _, absent⟩

namespace NameTable

theorem freshName_not_mem (table : NameTable) (stem : String) (reserved : List String) :
    table.freshName stem reserved ∉ reserved ++ table.entries.map Prod.snd :=
  (freshIndex_spec (fun _ _ same => candidate_injective stem same)
    (reserved ++ table.entries.map Prod.snd) table.size).2

/-! ## Giving names -/

variable {table : NameTable} {operation other : OperationId} {name : String}

theorem mem_entries_of_get? (found : table.get? operation = some name) :
    (operation, name) ∈ table.entries := by
  obtain ⟨before, after, split, _⟩ := List.lookup_eq_some_iff.mp found
  rw [split]
  exact List.mem_append_right _ (.head _)

theorem get?_assign (name : String) :
    (table.assign operation name).get? other =
      (table.get? other).or (if other = operation then some name else none) := by
  unfold assign
  split
  · rename_i known
    split
    · rename_i same
      subst same
      obtain ⟨old, found⟩ := Option.isSome_iff_exists.mp known
      rw [found, Option.some_or]
    · rw [Option.or_none]
  · rw [get?, get?, List.lookup_append]
    by_cases same : other = operation
    · subst same
      rw [if_pos rfl, List.lookup_cons_self]
    · rw [if_neg same, List.lookup_cons, beq_eq_false_iff_ne.mpr same, List.lookup_nil]

theorem contains_assign_self (table : NameTable) (operation : OperationId) (name : String) :
    (table.assign operation name).contains operation := by
  rw [contains, get?_assign, if_pos rfl, Option.isSome_or, Option.isSome_some, Bool.or_true]

theorem contains_assign (known : table.contains other) (operation : OperationId) (name : String) :
    (table.assign operation name).contains other := by
  rw [contains] at known
  rw [contains, get?_assign, Option.isSome_or, known, Bool.true_or]

/-! ## The invariant of naming -/

/-- What is known of a table while operations are given names: an entry is about one of the given
operations; its name is the supplied one, or a made-up one for a source; and no name is given
twice. -/
structure Sound (policy : Policy) (operations sources : List OperationId) (table : NameTable) :
    Prop where
  known : ∀ entry ∈ table.entries, entry.1 ∈ operations
  origin : ∀ entry ∈ table.entries, policy.supplied entry.1 = some entry.2 ∨
    (policy.supplied entry.1 = none ∧ entry.2 ∉ policy.reserved ∧ entry.1 ∈ sources)
  distinct : (table.entries.map Prod.snd).Nodup

/-- Supplied names can be given: they are reserved, and no two operations have the same. -/
structure Policy.Suppliable (policy : Policy) (operations : List OperationId) : Prop where
  reserved : ∀ operation ∈ operations, ∀ name, policy.supplied operation = some name →
    name ∈ policy.reserved
  injective : ∀ first ∈ operations, ∀ second ∈ operations, ∀ name,
    policy.supplied first = some name → policy.supplied second = some name → first = second

section Steps

variable {policy : Policy} {operations sources : List OperationId}

theorem sound_empty : Sound policy operations sources empty := ⟨nofun, nofun, .nil⟩

theorem Sound.assign (sound : Sound policy operations sources table)
    (registered : operation ∈ operations)
    (origin : policy.supplied operation = some name ∨
      (policy.supplied operation = none ∧ name ∉ policy.reserved ∧ operation ∈ sources))
    (new : ¬ table.contains operation → name ∉ table.entries.map Prod.snd) :
    Sound policy operations sources (table.assign operation name) := by
  unfold NameTable.assign
  split
  -- a name that is given is never changed
  · exact sound
  · rename_i unnamed
    refine ⟨?_, ?_, ?_⟩
    · intro entry member
      rcases List.mem_append.mp member with member | member
      · exact sound.known entry member
      · rw [List.mem_singleton.mp member]
        exact registered
    · intro entry member
      rcases List.mem_append.mp member with member | member
      · exact sound.origin entry member
      · rw [List.mem_singleton.mp member]
        exact origin
    · rw [List.map_append]
      exact Problem.nodup_append_singleton sound.distinct (new unnamed)

variable (suppliable : policy.Suppliable operations)

include suppliable

/-- A supplied name is free until its operation gets it: other operations are supplied other names,
and made-up names keep clear of it. -/
theorem Sound.assign_supplied (sound : Sound policy operations sources table)
    (registered : operation ∈ operations) (supplied : policy.supplied operation = some name) :
    Sound policy operations sources (table.assign operation name) := by
  refine sound.assign registered (.inl supplied) ?_
  intro unnamed taken
  obtain ⟨⟨holder, _⟩, member, rfl⟩ := List.mem_map.mp taken
  rcases sound.origin _ member with given | ⟨_, clear, _⟩
  · have same := suppliable.injective holder (sound.known _ member) operation registered _ given
      supplied
    subst same
    refine unnamed (List.lookup_isSome_iff.mpr ?_)
    exact ⟨_, member, beq_self_eq_true _⟩
  · exact clear (suppliable.reserved operation registered _ supplied)

theorem Sound.nameSource (sound : Sound policy operations sources table) {source : OperationId}
    (registered : source ∈ operations) (member : source ∈ sources) :
    Sound policy operations sources (NameTable.nameSource policy table source) := by
  unfold NameTable.nameSource
  cases supplied : policy.supplied source with
  | some name => exact sound.assign_supplied suppliable registered supplied
  | none =>
    have fresh := table.freshName_not_mem policy.stem policy.reserved
    rw [List.mem_append, not_or] at fresh
    exact sound.assign registered (.inr ⟨supplied, fresh.1, member⟩) fun _ => fresh.2

theorem Sound.nameSupplied (sound : Sound policy operations sources table)
    (registered : operation ∈ operations) :
    Sound policy operations sources (NameTable.nameSupplied policy table operation) := by
  unfold NameTable.nameSupplied
  cases supplied : policy.supplied operation with
  | some name => exact sound.assign_supplied suppliable registered supplied
  | none => exact sound

theorem Sound.foldl_nameSource (sound : Sound policy operations sources table)
    (named : List OperationId) (registered : ∀ source ∈ named, source ∈ operations)
    (member : ∀ source ∈ named, source ∈ sources) :
    Sound policy operations sources (named.foldl (NameTable.nameSource policy) table) := by
  -- the invariant is `Sound`; one source is one step
  induction named generalizing table with
  | nil => exact sound
  | cons source named inductionHypothesis =>
    obtain ⟨registeredHere, registered⟩ := List.forall_mem_cons.mp registered
    obtain ⟨memberHere, member⟩ := List.forall_mem_cons.mp member
    exact inductionHypothesis (sound.nameSource suppliable registeredHere memberHere) registered
      member

end Steps

/-! ## Nothing is unnamed again -/

section Kept

variable {policy : Policy}

theorem contains_nameSource_self (table : NameTable) (source : OperationId) :
    (nameSource policy table source).contains source := by
  unfold nameSource
  cases policy.supplied source <;> exact contains_assign_self _ _ _

theorem contains_nameSource (known : table.contains other) (source : OperationId) :
    (nameSource policy table source).contains other := by
  unfold nameSource
  cases policy.supplied source <;> exact contains_assign known _ _

theorem contains_nameSupplied (known : table.contains other) (operation : OperationId) :
    (nameSupplied policy table operation).contains other := by
  unfold nameSupplied
  cases policy.supplied operation with
  | some name => exact contains_assign known _ _
  | none => exact known

theorem contains_foldl_nameSource (named : List OperationId)
    (known : table.contains other ∨ other ∈ named) :
    (named.foldl (nameSource policy) table).contains other := by
  -- once named, named for good: a name is either there or its source is still to come
  induction named generalizing table with
  | nil => exact known.resolve_right (List.not_mem_nil)
  | cons source named inductionHypothesis =>
    rcases known with known | member
    · exact inductionHypothesis (.inl (contains_nameSource known source))
    · rcases List.mem_cons.mp member with rfl | member
      · exact inductionHypothesis (.inl (contains_nameSource_self table other))
      · exact inductionHypothesis (.inr member)

end Kept

end NameTable

/-! ## The table of a problem -/

namespace Problem

variable {problem : Problem} {operation : OperationId}

/-- The sources of the auxiliary dependences that end at an operation. -/
def sourcesOf (problem : Problem) (operation : OperationId) : List OperationId :=
  ((problem.dependences operation).filter Dependence.isAuxiliary).map Dependence.source

theorem sourcesOf_eq {node : Operation}
    (known : problem.operations[operation.index]? = some node) :
    problem.sourcesOf operation = node.auxiliarySources := by
  -- the data dependences are filtered out, the auxiliary ones all stay
  have data : (node.operands.mapIdx fun slot operand =>
      Dependence.data operand.source operand.result operation slot).filter
        Dependence.isAuxiliary = [] := by
    rw [List.filter_eq_nil_iff]
    intro dependence member
    obtain ⟨slot, _, rfl⟩ := List.mem_mapIdx.mp member
    nofun
  have auxiliary : (node.auxiliarySources.map fun source =>
      Dependence.auxiliary source operation).filter Dependence.isAuxiliary =
        node.auxiliarySources.map fun source => .auxiliary source operation := by
    rw [List.filter_eq_self]
    intro dependence member
    obtain ⟨source, _, rfl⟩ := List.mem_map.mp member
    rfl
  simp only [sourcesOf, dependences, known, List.filter_append, data, auxiliary, List.nil_append,
    List.map_map]
  exact List.map_id _

/-- The sources are the operations that an auxiliary dependence leads from. -/
theorem mem_sourcesOf_iff {source : OperationId} :
    source ∈ problem.sourcesOf operation ↔
      problem.containsDependence (.auxiliary source operation) := by
  rw [containsDependence_auxiliary_iff]
  constructor
  · intro member
    cases known : problem.operations[operation.index]? with
    | none =>
      rw [sourcesOf, dependences, known] at member
      cases member
    | some node =>
      rw [sourcesOf_eq known] at member
      exact ⟨node, rfl, member⟩
  · rintro ⟨node, known, member⟩
    rw [sourcesOf_eq known]
    exact member

theorem WellFormed.hasOperation_of_mem_sourcesOf (wellFormed : problem.WellFormed)
    (registered : problem.hasOperation operation) {source : OperationId}
    (member : source ∈ problem.sourcesOf operation) : problem.hasOperation source := by
  obtain ⟨node, known⟩ := hasOperation_iff.mp registered
  rw [sourcesOf_eq known] at member
  have inside := (wellFormed.nodes node (List.mem_of_getElem? known)).sources source member
  rw [resultCounts, List.length_map] at inside
  exact decide_eq_true inside

end Problem

namespace NameTable

variable {problem : Problem} {supplied : OperationId → Option String} {stem : String}
  {table : NameTable}

/-- What the table of a problem is good for: supplied names are kept, sources have names, other
operations have none, no two operations share a name, and none is named like an operator type. -/
structure Names (problem : Problem) (supplied : OperationId → Option String) (table : NameTable) :
    Prop where
  keeps : ∀ operation, problem.hasOperation operation → ∀ name,
    supplied operation = some name → table.get? operation = some name
  sources : ∀ operation, problem.hasOperation operation →
    ∀ source ∈ problem.sourcesOf operation, (table.get? source).isSome
  origin : ∀ operation name, table.get? operation = some name →
    problem.hasOperation operation ∧ (supplied operation = some name ∨
      (supplied operation = none ∧
        ∃ destination, problem.hasOperation destination ∧
          operation ∈ problem.sourcesOf destination))
  distinct : ∀ first second name, table.get? first = some name → table.get? second = some name →
    first = second
  apart : ∀ operation name, table.get? operation = some name →
    name ∉ problem.operatorTypes.map OperatorType.name

/-- The names that are supplied for the operations of a problem. -/
def suppliedNames (problem : Problem) (supplied : OperationId → Option String) : List String :=
  problem.operationIds.filterMap supplied

/-- How the operations of a problem are named. -/
def policyOf (problem : Problem) (supplied : OperationId → Option String) (stem : String) :
    Policy :=
  ⟨supplied, stem, problem.operatorTypes.map OperatorType.name ++ suppliedNames problem supplied⟩

/-- A table is refused only if a name is supplied twice, or is that of an operator type. -/
theorem build_eq_ok_iff :
    build problem supplied stem = .ok table ↔
      Fresh (problem.operatorTypes.map OperatorType.name) (suppliedNames problem supplied) ∧
        table = problem.operationIds.foldl
          (nameOperation (policyOf problem supplied stem) problem) empty := by
  rw [← firstRepeated?_eq_none_iff]
  unfold build policyOf suppliedNames
  simp only
  cases firstRepeated? (problem.operatorTypes.map OperatorType.name)
      (problem.operationIds.filterMap supplied) with
  | none => simp [eq_comm]
  | some name => simp

theorem suppliable_policyOf (distinct : (suppliedNames problem supplied).Nodup) (stem : String) :
    (policyOf problem supplied stem).Suppliable problem.operationIds where
  reserved operation member name found :=
    List.mem_append_right _ (List.mem_filterMap.mpr ⟨operation, member, found⟩)
  injective first firstMember second secondMember name firstFound secondFound := by
    obtain ⟨firstIndex, firstAt⟩ := List.getElem?_of_mem firstMember
    obtain ⟨secondIndex, secondAt⟩ := List.getElem?_of_mem secondMember
    have same : firstIndex = secondIndex :=
      index_eq_of_nodup_filterMap distinct (by rw [firstAt, Option.bind_some]; exact firstFound)
        (by rw [secondAt, Option.bind_some]; exact secondFound)
    rw [same, secondAt] at firstAt
    exact (Option.some.inj firstAt).symm

/-- A name that cannot be given as it is supplied: two operations are to have it, or one is and it is
the name of an operator type. -/
def Clashes (problem : Problem) (supplied : OperationId → Option String) (name : String) : Prop :=
  (∃ first second, problem.hasOperation first ∧ problem.hasOperation second ∧ first ≠ second ∧
    supplied first = some name ∧ supplied second = some name) ∨
  ∃ operation, problem.hasOperation operation ∧ supplied operation = some name ∧
    problem.hasOperatorType ⟨name⟩

theorem mem_suppliedNames {name : String} :
    name ∈ suppliedNames problem supplied ↔
      ∃ operation, problem.hasOperation operation ∧ supplied operation = some name := by
  simp only [suppliedNames, List.mem_filterMap, Problem.mem_operationIds]

theorem Clashes.not_fresh {name : String} (clashes : Clashes problem supplied name) :
    ¬ Fresh (problem.operatorTypes.map OperatorType.name) (suppliedNames problem supplied) := by
  rintro ⟨distinct, apart⟩
  rcases clashes with ⟨first, second, firstKnown, secondKnown, different, firstNamed, secondNamed⟩ |
    ⟨operation, registered, given, isType⟩
  · exact different ((suppliable_policyOf distinct "").injective first
      (Problem.mem_operationIds.mpr firstKnown) second (Problem.mem_operationIds.mpr secondKnown)
      name firstNamed secondNamed)
  · exact apart name (mem_suppliedNames.mpr ⟨operation, registered, given⟩)
      (List.mem_map_of_mem (of_decide_eq_true isType))

/-- The name that a table is refused for clashes. -/
theorem clashes_of_build {error : DocumentError}
    (fails : build problem supplied stem = .error error) :
    ∃ name, error = .duplicateName name ∧ Clashes problem supplied name := by
  unfold build at fails
  simp only at fails
  split at fails
  · rename_i name repeated
    cases fails
    refine ⟨name, rfl, ?_⟩
    obtain ⟨before, after, whole, old⟩ := split_of_firstRepeated? repeated
    rcases old with isType | earlier
    · -- the operator type of this name is registered
      have member : name ∈ suppliedNames problem supplied := by
        rw [suppliedNames, whole]
        exact List.mem_append_right _ (.head _)
      obtain ⟨operation, registered, given⟩ := mem_suppliedNames.mp member
      obtain ⟨operatorType, present, rfl⟩ := List.mem_map.mp isType
      exact .inr ⟨operation, registered, given, decide_eq_true present⟩
    · -- one operation with this name is among those before, another one behind them
      obtain ⟨front, back, split, named, rest⟩ := List.filterMap_eq_append_iff.mp whole
      rw [← named] at earlier
      obtain ⟨first, firstMember, firstNamed⟩ := List.mem_filterMap.mp earlier
      have here : name ∈ back.filterMap supplied := by
        rw [rest]
        exact .head _
      obtain ⟨second, secondMember, secondNamed⟩ := List.mem_filterMap.mp here
      have increasing := problem.increasing_operationIds
      rw [split] at increasing
      have ahead := (List.pairwise_append.mp increasing).2.2 first firstMember second secondMember
      refine .inl ⟨first, second, ?_, ?_, ?_, firstNamed, secondNamed⟩
      · rw [← Problem.mem_operationIds, split]
        exact List.mem_append_left _ firstMember
      · rw [← Problem.mem_operationIds, split]
        exact List.mem_append_right _ secondMember
      · rintro rfl
        exact Nat.lt_irrefl _ ahead
  · cases fails

/-- Naming operation after operation: the table stays sound, and the operations that are done have
their supplied names and their sources are named. -/
theorem sound_foldl_nameOperation (problem : Problem) {policy : Policy} {operations sources : List OperationId}
    (suppliable : policy.Suppliable operations) (sound : Sound policy operations sources table)
    (rest : List OperationId) (registered : ∀ operation ∈ rest, operation ∈ operations)
    (known : ∀ operation ∈ rest, ∀ source ∈ problem.sourcesOf operation, source ∈ operations)
    (member : ∀ operation ∈ rest, ∀ source ∈ problem.sourcesOf operation, source ∈ sources) :
    Sound policy operations sources (rest.foldl (nameOperation policy problem) table) := by
  -- induction on the operations that are left to name, for any table so far
  induction rest generalizing table with
  | nil => exact sound
  | cons operation rest inductionHypothesis =>
    obtain ⟨registeredHere, registered⟩ := List.forall_mem_cons.mp registered
    obtain ⟨knownHere, known⟩ := List.forall_mem_cons.mp known
    obtain ⟨memberHere, member⟩ := List.forall_mem_cons.mp member
    refine inductionHypothesis ?_ registered known member
    exact (sound.nameSupplied suppliable registeredHere).foldl_nameSource suppliable _ knownHere
      memberHere

theorem contains_foldl_nameOperation {policy : Policy} {other : OperationId}
    (rest : List OperationId)
    (known : table.contains other ∨ ∃ operation ∈ rest,
      (operation = other ∧ (policy.supplied other).isSome) ∨ other ∈ problem.sourcesOf operation) :
    (rest.foldl (nameOperation policy problem) table).contains other := by
  -- whoever has a name keeps it, so it is enough to reach the operation that asks for it
  induction rest generalizing table with
  | nil => exact known.resolve_right (by simp)
  | cons operation rest inductionHypothesis =>
    refine inductionHypothesis ?_
    rcases known with known | ⟨here, member, named⟩
    · exact .inl (contains_foldl_nameSource _ (.inl (contains_nameSupplied known operation)))
    · rcases List.mem_cons.mp member with rfl | member
      · refine .inl (contains_foldl_nameSource _ ?_)
        rcases named with ⟨rfl, supplied⟩ | source
        · obtain ⟨name, supplied⟩ := Option.isSome_iff_exists.mp supplied
          refine .inl ?_
          simp only [nameSupplied, supplied]
          exact contains_assign_self _ _ _
        · exact .inr source
      · exact .inr ⟨here, member, named⟩

/-- The table that is built for a problem names what it has to name. -/
theorem names_of_build (wellFormed : problem.WellFormed)
    (built : build problem supplied stem = .ok table) : Names problem supplied table := by
  obtain ⟨fresh, same⟩ := build_eq_ok_iff.mp built
  -- the invariant of the whole run, and what the run does not leave out
  have sound : Sound (policyOf problem supplied stem) problem.operationIds
      (problem.operationIds.flatMap problem.sourcesOf) table := by
    rw [same]
    refine sound_foldl_nameOperation problem (suppliable_policyOf fresh.1 stem) sound_empty
      problem.operationIds (fun _ member => member) ?_ ?_
    · intro operation registered source member
      exact Problem.mem_operationIds.mpr (wellFormed.hasOperation_of_mem_sourcesOf
        (Problem.mem_operationIds.mp registered) member)
    · intro operation registered source member
      exact List.mem_flatMap.mpr ⟨operation, registered, member⟩
  have named (other : OperationId) (reason : ∃ operation ∈ problem.operationIds,
      (operation = other ∧ (supplied other).isSome) ∨ other ∈ problem.sourcesOf operation) :
      (table.get? other).isSome := by
    rw [same]
    exact contains_foldl_nameOperation problem.operationIds (.inr reason)
  have origin (operation : OperationId) (name : String)
      (found : table.get? operation = some name) := sound.origin _ (mem_entries_of_get? found)
  -- `sound` says what a name can be, `named` that there is one
  refine ⟨?_, ?_, ?_, ?_, ?_⟩
  · intro operation registered name given
    have present := named operation ⟨operation, Problem.mem_operationIds.mpr registered,
      .inl ⟨rfl, by rw [given, Option.isSome_some]⟩⟩
    obtain ⟨other, found⟩ := Option.isSome_iff_exists.mp present
    rcases origin operation other found with kept | ⟨absent, _⟩
    · exact found.trans (kept.symm.trans given)
    · cases given.symm.trans absent
  · intro operation registered source member
    exact named source ⟨operation, Problem.mem_operationIds.mpr registered, .inr member⟩
  · intro operation name found
    refine ⟨Problem.mem_operationIds.mp (sound.known _ (mem_entries_of_get? found)), ?_⟩
    refine (origin operation name found).imp id fun ⟨absent, _, member⟩ => ⟨absent, ?_⟩
    obtain ⟨destination, registered, source⟩ := List.mem_flatMap.mp member
    exact ⟨destination, Problem.mem_operationIds.mp registered, source⟩
  · intro first second name firstFound secondFound
    have pairs := List.inj_on_of_nodup_map sound.distinct (mem_entries_of_get? firstFound)
      (mem_entries_of_get? secondFound) rfl
    exact congrArg Prod.fst pairs
  · intro operation name found reserved
    rcases origin operation name found with kept | ⟨_, clear, _⟩
    · have member : name ∈ suppliedNames problem supplied :=
        List.mem_filterMap.mpr ⟨operation, sound.known _ (mem_entries_of_get? found), kept⟩
      exact fresh.2 name member reserved
    · exact clear (List.mem_append_left _ reserved)

/-- Nothing but a clash of supplied names keeps a table from being built. -/
theorem build_fails_iff :
    (∃ error, build problem supplied stem = .error error) ↔
      ∃ name, Clashes problem supplied name := by
  constructor
  · rintro ⟨error, fails⟩
    obtain ⟨name, _, clashes⟩ := clashes_of_build fails
    exact ⟨name, clashes⟩
  · rintro ⟨name, clashes⟩
    cases built : build problem supplied stem with
    | error error => exact ⟨error, rfl⟩
    | ok table => exact absurd (build_eq_ok_iff.mp built).1 clashes.not_fresh

/-- The operations that have a name are those that are supplied one and the sources of auxiliary
dependences. -/
theorem Names.contains_iff (names : Names problem supplied table) {operation : OperationId} :
    table.contains operation ↔
      problem.hasOperation operation ∧ ((supplied operation).isSome ∨
        ∃ destination, problem.containsDependence (.auxiliary operation destination)) := by
  constructor
  · intro named
    obtain ⟨name, found⟩ := Option.isSome_iff_exists.mp named
    obtain ⟨registered, kept | ⟨_, destination, _, source⟩⟩ := names.origin operation name found
    · exact ⟨registered, .inl (Option.isSome_iff_exists.mpr ⟨name, kept⟩)⟩
    · exact ⟨registered, .inr ⟨destination, Problem.mem_sourcesOf_iff.mp source⟩⟩
  · rintro ⟨registered, supply | ⟨destination, contained⟩⟩
    · obtain ⟨name, given⟩ := Option.isSome_iff_exists.mp supply
      exact Option.isSome_iff_exists.mpr ⟨name, names.keeps operation registered name given⟩
    · exact names.sources destination (Problem.hasOperation_destination contained) operation
        (Problem.mem_sourcesOf_iff.mpr contained)

/-- A table is refused exactly if supplied names clash.  Otherwise it names the operations that are
supplied a name, by that name, and the sources of auxiliary dependences, and nothing else; no two
operations share a name, and none is named like an operator type. -/
theorem build_names_exactly (reachable : problem.Reachable)
    (supplied : OperationId → Option String) (stem : String) :
    ((∃ error, build problem supplied stem = .error error) ↔
      ∃ name, Clashes problem supplied name) ∧
    ∀ table, build problem supplied stem = .ok table →
      (∀ operation, table.contains operation ↔
        problem.hasOperation operation ∧ ((supplied operation).isSome ∨
          ∃ destination, problem.containsDependence (.auxiliary operation destination))) ∧
      (∀ operation, problem.hasOperation operation → ∀ name, supplied operation = some name →
        table.get? operation = some name) ∧
      (∀ first second name, table.get? first = some name → table.get? second = some name →
        first = second) ∧
      ∀ operation name, table.get? operation = some name → ¬ problem.hasOperatorType ⟨name⟩ := by
  refine ⟨build_fails_iff, fun table built => ?_⟩
  have names := names_of_build reachable.wellFormed built
  refine ⟨fun operation => names.contains_iff, names.keeps, names.distinct, ?_⟩
  intro operation name found isType
  exact names.apart operation name found (List.mem_map_of_mem (of_decide_eq_true isType))

/-- The first operation comes after the last one, which comes after the second one.  An operator type
is named like a made-up name. -/
def interleaved : Problem :=
  [ProblemCall.insertOperatorType ⟨"n2"⟩, .insertOperation 0, .insertOperation 0, .insertOperation 0,
    .insertDependence (.auxiliary ⟨2⟩ ⟨0⟩), .insertDependence (.auxiliary ⟨1⟩ ⟨2⟩)].foldl
      Problem.after (Problem.empty "interleaved" "Problem")

/-- Only the last operation is supplied a name, which could be a made-up one. -/
def lastNamed (operation : OperationId) : Option String :=
  if operation = ⟨2⟩ then some "n1" else none

theorem build_names_exactly_interleaved :
    interleaved.Reachable ∧
      (∃ table, build interleaved lastNamed "n" = .ok table ∧ table.get? ⟨2⟩ = some "n1" ∧
        table.contains ⟨1⟩ ∧ ¬ table.contains ⟨0⟩ ∧ table.get? ⟨1⟩ ≠ some "n1" ∧
        table.get? ⟨1⟩ ≠ some "n2") ∧
      ∃ error, build interleaved (fun _ => some "a") "n" = .error error := by
  have reachable : interleaved.Reachable := ⟨"interleaved", "Problem", _, rfl⟩
  obtain ⟨fails, builds⟩ := build_names_exactly reachable lastNamed "n"
  have only {operation : OperationId} {name : String} (given : lastNamed operation = some name) :
      operation = ⟨2⟩ ∧ name = "n1" := by
    simpa [lastNamed, eq_comm] using given
  have harmless : ¬ ∃ name, Clashes interleaved lastNamed name := by
    rintro ⟨name, ⟨first, second, _, _, different, one, other⟩ | ⟨operation, _, given, isType⟩⟩
    · exact different ((only one).1.trans (only other).1.symm)
    · rw [(only given).2] at isType
      cases isType
  have unreferenced : ∀ node ∈ interleaved.operations, ⟨0⟩ ∉ node.auxiliarySources := by decide
  refine ⟨reachable, ?_, ?_⟩
  · cases built : build interleaved lastNamed "n" with
    | error error => exact absurd (fails.mp ⟨error, built⟩) harmless
    | ok table =>
      obtain ⟨domain, keeps, distinct, apart⟩ := builds table built
      have last : table.get? ⟨2⟩ = some "n1" := keeps ⟨2⟩ rfl "n1" rfl
      refine ⟨table, rfl, last, (domain ⟨1⟩).mpr ⟨rfl, .inr ⟨⟨2⟩, rfl⟩⟩, ?_, ?_, ?_⟩
      · intro named
        obtain ⟨_, supply | ⟨destination, contained⟩⟩ := (domain ⟨0⟩).mp named
        · cases supply
        · obtain ⟨node, known, member⟩ := Problem.containsDependence_auxiliary_iff.mp contained
          exact unreferenced node (List.mem_of_getElem? known) member
      · intro stolen
        cases distinct ⟨1⟩ ⟨2⟩ "n1" stolen last
      · intro clashing
        exact apart ⟨1⟩ "n2" clashing rfl
  · refine (build_names_exactly reachable (fun _ => some "a") "n").1.mpr ⟨"a", .inl ?_⟩
    exact ⟨⟨0⟩, ⟨1⟩, rfl, rfl, nofun, rfl, rfl⟩

end NameTable

end StaticScheduling
