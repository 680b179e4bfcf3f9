import Mathlib.Data.Finmap
import Mathlib.Order.Bounds.Basic
import Mathlib.Order.Interval.Finset.Nat
import StaticScheduling.Proofs.Naming

/-! # Naming in place

Names may be given in place.  The names that operations have are written over as one
goes on, and the names that were given are kept apart, to look them up.  A name is made
up by a loop that takes one number after the other, until its label is neither reserved
nor given.

Nothing in the loop bounds it.  It is told how many rounds it may take, and to run out
of these is an outcome of its own, so that it can be shown how many rounds it takes.
-/

namespace StaticScheduling

/-- What is kept where names are given in place. -/
structure NameMemory where
  /-- The names that operations have. -/
  names : Finmap fun _ : OperationId => String
  /-- The names that were given, to whatever operation. -/
  taken : Finset String
deriving DecidableEq

/-- What making up a name comes to: the name, and the candidates that were looked at for it. -/
structure MadeUpName where
  name : String
  examined : List String
deriving DecidableEq, Repr

namespace NameMemory

def empty : NameMemory := ⟨∅, ∅⟩

def contains (memory : NameMemory) (operation : OperationId) : Bool :=
  (memory.names.lookup operation).isSome

def size (memory : NameMemory) : Nat := memory.names.keys.card

/-- Gives a name to an operation, in place of the one it had. -/
def assign (memory : NameMemory) (operation : OperationId) (name : String) : NameMemory :=
  ⟨memory.names.insert operation name, insert name memory.taken⟩

/-- Looks at one candidate a round, from a number on, and ends with the first that is free. -/
def synthesizeFrom (memory : NameMemory) (stem : String) (reserved : Finset String) :
    (rounds counter : Nat) → Option MadeUpName
  | 0, _ => none
  | rounds + 1, counter =>
    let candidate := stem ++ toString counter
    if candidate ∉ reserved ∧ candidate ∉ memory.taken then
      some ⟨candidate, [candidate]⟩
    else
      (memory.synthesizeFrom stem reserved rounds (counter + 1)).map fun found =>
        { found with examined := candidate :: found.examined }

/-- Makes up a name.  There is a round for every name to avoid, and one more finds a name. -/
def synthesize (memory : NameMemory) (stem : String) (reserved : Finset String) :
    Option MadeUpName :=
  memory.synthesizeFrom stem reserved ((reserved ∪ memory.taken).card + 1) memory.size

/-- Gives a name to an operation that a dependence refers to, unless it has one. -/
def nameSource (policy : NameTable.Policy) (memory : NameMemory) (source : OperationId) :
    Option NameMemory :=
  if memory.contains source then
    some memory
  else
    match policy.supplied source with
    | some name => some (memory.assign source name)
    | none => (memory.synthesize policy.stem policy.reserved.toFinset).map fun found =>
      memory.assign source found.name

def nameSupplied (policy : NameTable.Policy) (memory : NameMemory) (operation : OperationId) :
    NameMemory :=
  match policy.supplied operation with
  | some name => memory.assign operation name
  | none => memory

def nameOperation (policy : NameTable.Policy) (problem : Problem) (memory : NameMemory)
    (operation : OperationId) : Option NameMemory :=
  (problem.sourcesOf operation).foldlM (nameSource policy) (memory.nameSupplied policy operation)

/-- Names the operations of a problem, unless a name that is made up takes too many rounds. -/
def ofProblem (policy : NameTable.Policy) (problem : Problem) : Option NameMemory :=
  problem.operationIds.foldlM (nameOperation policy problem) empty

end NameMemory

/-! ## The first free label -/

section Labels

variable {label : Nat → String}

theorem freshIndex_le_of_not_mem {taken : List String} {index other : Nat} (above : index ≤ other)
    (absent : label other ∉ taken) : freshIndex label taken index ≤ other := by
  induction taken, index using freshIndex.induct label with
  | case1 taken index member inductionHypothesis =>
    rw [freshIndex, dif_pos member]
    have later : index < other := by
      refine Nat.lt_of_le_of_ne above ?_
      rintro rfl
      exact absent member
    exact inductionHypothesis later fun present => absent (List.mem_of_mem_erase present)
  | case2 taken index free =>
    rw [freshIndex, dif_neg free]
    exact above

theorem isLeast_freshIndex (injective : Function.Injective label) (taken : List String)
    (index : Nat) :
    IsLeast {other | index ≤ other ∧ label other ∉ taken} (freshIndex label taken index) :=
  ⟨freshIndex_spec (fun _ _ same => injective same) taken index,
    fun _ ⟨above, absent⟩ => freshIndex_le_of_not_mem above absent⟩

/-- The labels in front of the first free one are different names to avoid. -/
theorem sub_le_card_of_isLeast (injective : Function.Injective label) {avoided : Finset String}
    {first number : Nat}
    (least : IsLeast {index | first ≤ index ∧ label index ∉ avoided} number) :
    number - first ≤ avoided.card := by
  rw [← Nat.card_Ico first number]
  refine Finset.card_le_card_of_injOn label ?_ injective.injOn
  intro index inside
  obtain ⟨above, below⟩ := Finset.mem_Ico.mp inside
  by_contra free
  exact Nat.not_le.mpr below (least.2 ⟨above, free⟩)

theorem exists_isLeast_free (stem : String) (avoided : Finset String) (first : Nat) :
    ∃ number, IsLeast {index : Nat | first ≤ index ∧ stem ++ toString index ∉ avoided} number := by
  have least := isLeast_freshIndex (candidate_injective stem) avoided.toList first
  simp only [Finset.mem_toList] at least
  exact ⟨_, least⟩

end Labels

namespace NameMemory

variable {memory : NameMemory} {stem : String} {reserved : Finset String}

/-! ## Rounds -/

/-- The candidates of some numbers, from the first one on. -/
def candidates (stem : String) (first count : Nat) : List String :=
  (List.range' first count).map fun number => stem ++ toString number

theorem synthesizeFrom_of_free {counter : Nat}
    (free : stem ++ toString counter ∉ reserved ∪ memory.taken) (rounds : Nat) :
    memory.synthesizeFrom stem reserved (rounds + 1) counter =
      some ⟨stem ++ toString counter, candidates stem counter 1⟩ := by
  rw [Finset.mem_union, not_or] at free
  exact if_pos free

theorem synthesizeFrom_of_avoided {counter : Nat}
    (avoided : stem ++ toString counter ∈ reserved ∪ memory.taken) (rounds : Nat) :
    memory.synthesizeFrom stem reserved (rounds + 1) counter =
      (memory.synthesizeFrom stem reserved rounds (counter + 1)).map fun found =>
        { found with examined := (stem ++ toString counter) :: found.examined } := by
  refine if_neg ?_
  rwa [← not_or, ← Finset.mem_union, not_not]

/-- The loop looks at all candidates up to the first free one, and takes a round for each. -/
theorem synthesizeFrom_eq {counter count number : Nat}
    (least : IsLeast {index | counter ≤ index ∧
      stem ++ toString index ∉ reserved ∪ memory.taken} number)
    (last : counter + count = number + 1) (rounds : Nat) :
    memory.synthesizeFrom stem reserved rounds counter =
      if count ≤ rounds then some ⟨stem ++ toString number, candidates stem counter count⟩
      else none := by
  -- one round is one candidate; the first free number stays the same as long as none was found
  induction rounds generalizing counter count with
  | zero =>
    have above : counter ≤ number := least.1.1
    have positive : ¬ count ≤ 0 := by omega
    rw [if_neg positive, synthesizeFrom]
  | succ rounds inductionHypothesis =>
    obtain ⟨⟨above, freeThere⟩, below⟩ := least
    by_cases free : stem ++ toString counter ∉ reserved ∪ memory.taken
    · obtain rfl : number = counter := Nat.le_antisymm (below ⟨Nat.le_refl _, free⟩) above
      obtain rfl : count = 1 := by omega
      rw [synthesizeFrom_of_free free, if_pos (by omega)]
    · have later : counter < number := by
        refine Nat.lt_of_le_of_ne above ?_
        rintro rfl
        exact free freeThere
      have leastOnward : IsLeast {index | counter + 1 ≤ index ∧
          stem ++ toString index ∉ reserved ∪ memory.taken} number :=
        ⟨⟨later, freeThere⟩, fun _ ⟨behind, absent⟩ => below ⟨Nat.le_of_succ_le behind, absent⟩⟩
      obtain ⟨more, rfl⟩ : ∃ more, count = more + 1 := ⟨count - 1, by omega⟩
      have lastOnward : counter + 1 + more = number + 1 := by omega
      rw [synthesizeFrom_of_avoided (not_not.mp free), inductionHypothesis leastOnward lastOnward]
      by_cases enough : more ≤ rounds
      · rw [if_pos enough, if_pos (Nat.succ_le_succ enough)]
        rfl
      · rw [if_neg enough, if_neg fun reached => enough (Nat.le_of_succ_le_succ reached)]
        rfl

/-! ## Tables that are kept in place -/

section Assigning

variable {operation : OperationId} {name : String}

theorem lookup_assign (memory : NameMemory) (operation other : OperationId) (name : String) :
    (memory.assign operation name).names.lookup other =
      if other = operation then some name else memory.names.lookup other := by
  by_cases same : other = operation
  · rw [same, if_pos rfl]
    exact Finmap.lookup_insert _
  · rw [if_neg same]
    exact Finmap.lookup_insert_of_ne _ same

theorem keys_assign (memory : NameMemory) (operation : OperationId) (name : String) :
    (memory.assign operation name).names.keys = insert operation memory.names.keys := by
  ext other
  rw [Finmap.mem_keys, Finset.mem_insert, Finmap.mem_keys]
  exact Finmap.mem_insert

theorem mem_keys_iff (memory : NameMemory) (operation : OperationId) :
    operation ∈ memory.names.keys ↔ memory.contains operation := by
  rw [Finmap.mem_keys, ← Finmap.lookup_isSome, contains]

theorem size_assign_of_unnamed (unnamed : ¬ memory.contains operation) :
    (memory.assign operation name).size = memory.size + 1 := by
  have new : operation ∉ memory.names.keys := mt (memory.mem_keys_iff operation).mp unnamed
  rw [size, keys_assign, Finset.card_insert_of_notMem new, size]

theorem size_assign_of_named (named : memory.contains operation) :
    (memory.assign operation name).size = memory.size := by
  have old : operation ∈ memory.names.keys := (memory.mem_keys_iff operation).mpr named
  rw [size, keys_assign, Finset.insert_eq_of_mem old, size]

end Assigning

/-- A memory keeps a table: the names of its operations, how many there are, and which names these
are. -/
structure Holds (memory : NameMemory) (table : NameTable) : Prop where
  lookup : ∀ operation, memory.names.lookup operation = table.get? operation
  size : memory.size = table.size
  taken : ∀ name, name ∈ memory.taken ↔ name ∈ table.entries.map Prod.snd

namespace Holds

variable {table : NameTable} {operation : OperationId} {name : String}

theorem empty : NameMemory.empty.Holds NameTable.empty where
  lookup _ := Finmap.lookup_empty _
  size := rfl
  taken _ := by simp [NameMemory.empty, NameTable.empty]

theorem contains (holds : memory.Holds table) (operation : OperationId) :
    memory.contains operation = table.contains operation := by
  rw [NameMemory.contains, holds.lookup, NameTable.contains]

theorem assign (holds : memory.Holds table) (unnamed : ¬ table.contains operation) (name : String) :
    (memory.assign operation name).Holds (table.assign operation name) where
  lookup other := by
    rw [lookup_assign, NameTable.get?_assign, holds.lookup]
    by_cases same : other = operation
    · subst same
      rw [if_pos rfl, if_pos rfl, Option.not_isSome_iff_eq_none.mp unnamed, Option.none_or]
    · rw [if_neg same, if_neg same, Option.or_none]
  size := by
    rw [size_assign_of_unnamed (by rwa [holds.contains]), holds.size, NameTable.assign,
      if_neg unnamed]
    simp only [NameTable.size, List.length_append, List.length_singleton]
  taken other := by
    rw [NameTable.assign, if_neg unnamed, List.map_append, List.mem_append, ← holds.taken]
    exact Finset.mem_insert.trans (by rw [List.map_singleton, List.mem_singleton, or_comm])

/-- To give an operation the name that it has changes nothing. -/
theorem assign_again (holds : memory.Holds table) (named : table.get? operation = some name) :
    (memory.assign operation name).Holds table where
  lookup other := by
    rw [lookup_assign, holds.lookup]
    by_cases same : other = operation
    · rw [if_pos same, same, named]
    · rw [if_neg same]
  size := by
    rw [size_assign_of_named, holds.size]
    rw [holds.contains, NameTable.contains, named, Option.isSome_some]
  taken other := by
    have old : name ∈ memory.taken :=
      (holds.taken name).mpr (List.mem_map_of_mem (NameTable.mem_entries_of_get? named))
    rw [NameMemory.assign, Finset.insert_eq_of_mem old]
    exact holds.taken other

/-- The first free candidate is the name that is made up for the table. -/
theorem freshName_eq (holds : memory.Holds table) {listed : List String}
    (same : listed.toFinset = reserved) {number : Nat}
    (least : IsLeast {index | memory.size ≤ index ∧
      stem ++ toString index ∉ reserved ∪ memory.taken} number) :
    table.freshName stem listed = stem ++ toString number := by
  have first := isLeast_freshIndex (candidate_injective stem)
    (listed ++ table.entries.map Prod.snd) table.size
  have avoided (name : String) :
      name ∈ listed ++ table.entries.map Prod.snd ↔ name ∈ reserved ∪ memory.taken := by
    rw [List.mem_append, Finset.mem_union, holds.taken, ← same, List.mem_toFinset]
  simp only [avoided, ← holds.size] at first
  rw [NameTable.freshName, ← holds.size]
  exact congrArg (fun number => stem ++ toString number) (first.unique least)

end Holds

/-! ## Names that are made up -/

/-- A candidate is free before there are more candidates than names to avoid. -/
theorem exists_first_free (memory : NameMemory) (stem : String) (reserved : Finset String) :
    ∃ number count,
      IsLeast {index | memory.size ≤ index ∧
        stem ++ toString index ∉ reserved ∪ memory.taken} number ∧
      memory.size + count = number + 1 ∧ count ≤ (reserved ∪ memory.taken).card + 1 := by
  obtain ⟨number, least⟩ := exists_isLeast_free stem (reserved ∪ memory.taken) memory.size
  have few := sub_le_card_of_isLeast (candidate_injective stem) least
  have above : memory.size ≤ number := least.1.1
  exact ⟨number, number + 1 - memory.size, least, by omega, by omega⟩

theorem Holds.synthesize {table : NameTable} (holds : memory.Holds table) (stem : String)
    (listed : List String) :
    ∃ examined, memory.synthesize stem listed.toFinset =
      some ⟨table.freshName stem listed, examined⟩ := by
  obtain ⟨number, count, least, last, few⟩ := exists_first_free memory stem listed.toFinset
  refine ⟨candidates stem memory.size count, ?_⟩
  rw [NameMemory.synthesize, synthesizeFrom_eq least last, if_pos few, holds.freshName_eq rfl least]

/-- Making up a name ends, whatever names were given and are reserved.  The loop looks at the
candidates from the number of names on, at one more of them at most than there are names to avoid.
The name is the first candidate that is neither reserved nor given; where a table is kept in place,
it is the name that is made up for the table. -/
theorem synthesize_first_free (memory : NameMemory) (stem : String) (reserved : Finset String) :
    ∃ number count,
      IsLeast {index | memory.size ≤ index ∧
        stem ++ toString index ∉ reserved ∪ memory.taken} number ∧
      memory.size + count = number + 1 ∧ count ≤ (reserved ∪ memory.taken).card + 1 ∧
      (∀ rounds, memory.synthesizeFrom stem reserved rounds memory.size =
        if count ≤ rounds then
          some ⟨stem ++ toString number, candidates stem memory.size count⟩
        else none) ∧
      ∀ table listed, memory.Holds table → listed.toFinset = reserved →
        table.freshName stem listed = stem ++ toString number := by
  obtain ⟨number, count, least, last, few⟩ := exists_first_free memory stem reserved
  refine ⟨number, count, least, last, few, synthesizeFrom_eq least last, ?_⟩
  intro table listed holds same
  exact holds.freshName_eq same least

/-- Two operations have names that end in digits, as does the stem of the next name. -/
def crowded : NameMemory := (empty.assign ⟨0⟩ "n12").assign ⟨1⟩ "n13"

theorem synthesize_first_free_crowded :
    let table : NameTable := ⟨[(⟨0⟩, "n12"), (⟨1⟩, "n13")]⟩
    let reserved : Finset String := {"n14", "alu"}
    crowded.Holds table ∧ ["alu", "n14"].toFinset = reserved ∧
      (∀ rounds, 4 ≤ rounds → crowded.synthesizeFrom "n1" reserved rounds crowded.size =
        some ⟨"n15", ["n12", "n13", "n14", "n15"]⟩) ∧
      crowded.synthesizeFrom "n1" reserved 3 crowded.size = none ∧
      table.freshName "n1" ["alu", "n14"] = "n15" := by
  intro table reserved
  have holds : crowded.Holds table := (Holds.empty.assign (by decide) _).assign (by decide) _
  have listed : ["alu", "n14"].toFinset = reserved := by decide
  obtain ⟨number, count, _, _, _, ends, fresh⟩ := synthesize_first_free crowded "n1" reserved
  have four : crowded.synthesizeFrom "n1" reserved 4 crowded.size =
      some ⟨"n15", ["n12", "n13", "n14", "n15"]⟩ := by decide +kernel
  have enough : count ≤ 4 := by
    by_contra more
    rw [ends, if_neg more] at four
    cases four
  rw [ends, if_pos enough] at four
  refine ⟨holds, listed, ?_, by decide +kernel, ?_⟩
  · intro rounds reached
    rw [ends, if_pos (Nat.le_trans enough reached), four]
  · rw [fresh table _ holds listed]
    exact congrArg MadeUpName.name (Option.some.inj four)

/-! ## Naming a problem -/

/-- A memory keeps a table where an operation that is supplied a name has no other. -/
structure InStep (policy : NameTable.Policy) (memory : NameMemory) (table : NameTable) : Prop
    extends Holds memory table where
  supplied : ∀ operation name given, table.get? operation = some name →
    policy.supplied operation = some given → name = given

namespace InStep

variable {policy : NameTable.Policy} {table : NameTable} {operation : OperationId} {name : String}

theorem empty : NameMemory.empty.InStep policy NameTable.empty := ⟨.empty, nofun⟩

theorem assign (inStep : memory.InStep policy table) (unnamed : ¬ table.contains operation)
    (right : ∀ given, policy.supplied operation = some given → name = given) :
    (memory.assign operation name).InStep policy (table.assign operation name) where
  toHolds := inStep.toHolds.assign unnamed name
  supplied other found given named supply := by
    rw [NameTable.get?_assign, Option.or_eq_some_iff] at named
    rcases named with old | ⟨_, new⟩
    · exact inStep.supplied other found given old supply
    · obtain ⟨rfl, rfl⟩ : other = operation ∧ name = found := by simpa using new
      exact right given supply

theorem assign_supplied (inStep : memory.InStep policy table)
    (unnamed : ¬ table.contains operation) (supply : policy.supplied operation = some name) :
    (memory.assign operation name).InStep policy (table.assign operation name) := by
  refine inStep.assign unnamed ?_
  intro given supplied
  exact Option.some.inj (supply.symm.trans supplied)

theorem nameSource (inStep : memory.InStep policy table) (source : OperationId) :
    ∃ after, memory.nameSource policy source = some after ∧
      after.InStep policy (NameTable.nameSource policy table source) := by
  unfold NameMemory.nameSource NameTable.nameSource
  rw [inStep.contains]
  by_cases named : table.contains source
  · -- a name that is there is kept, whatever would be given
    rw [if_pos named]
    refine ⟨memory, rfl, ?_⟩
    cases policy.supplied source <;> simpa only [NameTable.assign, if_pos named] using inStep
  · rw [if_neg named]
    cases supply : policy.supplied source with
    | some name => exact ⟨_, rfl, inStep.assign_supplied named supply⟩
    | none =>
      obtain ⟨examined, ends⟩ := inStep.synthesize policy.stem policy.reserved
      simp only [ends, Option.map_some]
      refine ⟨_, rfl, inStep.assign named ?_⟩
      intro given supplied
      cases supply.symm.trans supplied

theorem nameSupplied (inStep : memory.InStep policy table) (operation : OperationId) :
    (memory.nameSupplied policy operation).InStep policy
      (NameTable.nameSupplied policy table operation) := by
  unfold NameMemory.nameSupplied NameTable.nameSupplied
  cases supply : policy.supplied operation with
  | none => exact inStep
  | some name =>
    by_cases named : table.contains operation
    · -- it was a source before, and got the name that it is supplied with
      obtain ⟨old, found⟩ := Option.isSome_iff_exists.mp named
      obtain rfl := inStep.supplied operation old name found supply
      simp only [NameTable.assign, if_pos named]
      exact ⟨inStep.toHolds.assign_again found, inStep.supplied⟩
    · exact inStep.assign_supplied named supply

/-- Memory and table stay in step over a list if they do so over each item. -/
theorem foldlM {Item : Type} {change : NameMemory → Item → Option NameMemory}
    {changed : NameTable → Item → NameTable}
    (step : ∀ {memory table}, memory.InStep policy table → ∀ item,
      ∃ after, change memory item = some after ∧ after.InStep policy (changed table item))
    (inStep : memory.InStep policy table) (items : List Item) :
    ∃ after, items.foldlM change memory = some after ∧
      after.InStep policy (items.foldl changed table) := by
  induction items generalizing memory table with
  | nil => exact ⟨memory, rfl, inStep⟩
  | cons item items inductionHypothesis =>
    obtain ⟨next, ends, inStepNext⟩ := step inStep item
    obtain ⟨after, othersEnd, inStepAfter⟩ := inductionHypothesis inStepNext
    refine ⟨after, ?_, inStepAfter⟩
    rw [List.foldlM_cons, ends]
    exact othersEnd

theorem nameOperation (inStep : memory.InStep policy table) (problem : Problem)
    (operation : OperationId) :
    ∃ after, memory.nameOperation policy problem operation = some after ∧
      after.InStep policy (NameTable.nameOperation policy problem table operation) :=
  foldlM nameSource (inStep.nameSupplied operation) (problem.sourcesOf operation)

end InStep

/-- A table that can be built is built in place as well: no name that is made up on the way takes
too many rounds. -/
theorem exists_ofProblem {problem : Problem} {supplied : OperationId → Option String}
    {stem : String} {table : NameTable}
    (built : NameTable.build problem supplied stem = .ok table) :
    ∃ memory, ofProblem (NameTable.policyOf problem supplied stem) problem = some memory ∧
      memory.Holds table := by
  obtain ⟨_, rfl⟩ := NameTable.build_eq_ok_iff.mp built
  have start : empty.InStep (NameTable.policyOf problem supplied stem) .empty := .empty
  obtain ⟨memory, ends, inStep⟩ := InStep.foldlM
    (fun inStep operation => inStep.nameOperation problem operation) start problem.operationIds
  exact ⟨memory, ends, inStep.toHolds⟩

end NameMemory

end StaticScheduling
