import StaticScheduling.Instance.Entry

/-! # The order of dependence records

`recordFault?` checks records in one pass and remembers nothing but the last
index.  Here its acceptance is shown to be the declarative order
`DependenceRecord.InOrder`: records of operands, their indices increasing and
below the number of operands, then records of named sources, numbered on from
that number.  In this order an operand list can be put together and taken apart
again without loss.
-/

namespace StaticScheduling

namespace DependenceRecord

/-- The records of operands with the given indices and properties. -/
def ofOperands (marks : List (Nat × Option (List Property))) : List DependenceRecord :=
  marks.map fun entry => ⟨.operand entry.1, entry.2⟩

/-- The records of named sources, numbered from `index` on. -/
def ofSources (index : Nat) : List (String × Option (List Property)) → List DependenceRecord
  | [] => []
  | (source, properties) :: rest =>
    ⟨.named index source, properties⟩ :: ofSources (index + 1) rest

/-- Records of operands in increasing order, then records of named sources numbered from the number
of operands on. -/
def InOrder (operands : Nat) (records : List DependenceRecord) : Prop :=
  ∃ marks sources, (marks.map Prod.fst).Pairwise (· < ·) ∧ (∀ mark ∈ marks, mark.1 < operands) ∧
    records = ofOperands marks ++ ofSources operands sources

variable {operands last index : Nat} {source : String} {properties : Option (List Property)}

theorem fault?_operand_eq_none_iff {previous : Option Nat} :
    fault? operands previous ⟨.operand index, properties⟩ = none ↔
      comesAfter previous index ∧ index < operands := by
  simp only [fault?]
  split
  · simp only [reduceCtorEq, false_iff]
    omega
  · split
    · rename_i after
      exact ⟨fun _ => ⟨after, by omega⟩, fun _ => rfl⟩
    · rename_i before
      exact ⟨nofun, fun both => absurd both.1 before⟩

theorem fault?_first_source_eq_none_iff {previous : Option Nat}
    (below : previous.all (· < operands)) :
    fault? operands previous ⟨.named index source, properties⟩ = none ↔ index = operands := by
  cases previous with
  | none =>
    simp only [fault?, comesAfter, Option.any_none, Option.all_none, Bool.false_or, Bool.true_and,
      decide_eq_true_eq]
    split
    · simp only [reduceCtorEq, false_iff]
      omega
    · split <;> simp [*]
  | some last =>
    simp only [Option.all_some, decide_eq_true_eq] at below
    simp only [fault?, comesAfter, Option.any_some, Option.all_some, Bool.or_eq_true,
      Bool.and_eq_true, decide_eq_true_eq]
    split
    · simp only [reduceCtorEq, false_iff]
      omega
    · split
      · simp only [true_iff]
        omega
      · simp only [reduceCtorEq, false_iff]
        omega

theorem fault?_next_source_eq_none_iff (above : operands ≤ last) :
    fault? operands (some last) ⟨.named index source, properties⟩ = none ↔ index = last + 1 := by
  simp only [fault?, comesAfter, Option.any_some, Option.all_some, Bool.or_eq_true,
    Bool.and_eq_true, decide_eq_true_eq]
  split
  · simp only [reduceCtorEq, false_iff]
    omega
  · split
    · simp only [true_iff]
      omega
    · simp only [reduceCtorEq, false_iff]
      omega

theorem firstFault?_cons_eq_none_iff {previous : Option Nat} {record : DependenceRecord}
    {rest : List DependenceRecord} :
    firstFault? operands previous (record :: rest) = none ↔
      record.fault? operands previous = none ∧
        firstFault? operands (some record.slot.index) rest = none := by
  simp only [firstFault?]
  split
  · rename_i faulty
    simp [faulty]
  · rename_i fine
    simp [fine]

/-- Behind a named source with index `last` only more named sources may come. -/
theorem firstFault?_behind_source (records : List DependenceRecord) (above : operands ≤ last) :
    firstFault? operands (some last) records = none ↔
      ∃ sources, records = ofSources (last + 1) sources := by
  -- the last index goes up by one with each source
  induction records generalizing last with
  | nil => exact ⟨fun _ => ⟨[], rfl⟩, fun _ => rfl⟩
  | cons record rest inductionHypothesis =>
    obtain ⟨slot, properties⟩ := record
    rw [firstFault?_cons_eq_none_iff]
    cases slot with
    | operand index =>
      rw [fault?_operand_eq_none_iff]
      constructor
      · rintro ⟨⟨after, inside⟩, _⟩
        simp only [comesAfter, Option.all_some, decide_eq_true_eq] at after
        omega
      · rintro ⟨sources, same⟩
        cases sources <;> cases same
    | named index source =>
      rw [fault?_next_source_eq_none_iff above]
      constructor
      · rintro ⟨rfl, fine⟩
        obtain ⟨sources, rfl⟩ := (inductionHypothesis (Nat.le_succ_of_le above)).mp fine
        exact ⟨(source, properties) :: sources, rfl⟩
      · rintro ⟨sources, same⟩
        cases sources with
        | nil => cases same
        | cons first sources =>
          cases same
          exact ⟨rfl, (inductionHypothesis (Nat.le_succ_of_le above)).mpr ⟨sources, rfl⟩⟩

/-- An index behind one that comes after the last index comes after it too. -/
theorem comesAfter_trans {previous : Option Nat} (after : comesAfter previous last)
    (later : last < index) : comesAfter previous index := by
  cases previous with
  | none => rfl
  | some first =>
    simp only [comesAfter, Option.all_some, decide_eq_true_eq] at after ⊢
    omega

/-- Records in order whose operands all come after the last index. -/
def InOrderBehind (operands : Nat) (previous : Option Nat) (records : List DependenceRecord) :
    Prop :=
  ∃ marks sources, (marks.map Prod.fst).Pairwise (· < ·) ∧
    (∀ mark ∈ marks, comesAfter previous mark.1 ∧ mark.1 < operands) ∧
    records = ofOperands marks ++ ofSources operands sources

theorem inOrderBehind_nil {previous : Option Nat} : InOrderBehind operands previous [] :=
  ⟨[], [], .nil, nofun, rfl⟩

/-- The record of an operand comes after the last index, and the others come after its index. -/
theorem inOrderBehind_operand {previous : Option Nat} {rest : List DependenceRecord} :
    InOrderBehind operands previous (⟨.operand index, properties⟩ :: rest) ↔
      (comesAfter previous index ∧ index < operands) ∧
        InOrderBehind operands (some index) rest := by
  constructor
  · rintro ⟨marks, sources, increasing, bounds, same⟩
    cases marks with
    | nil => cases sources <;> cases same
    | cons mark marks =>
      cases same
      obtain ⟨later, increasing⟩ := List.pairwise_cons.mp increasing
      refine ⟨bounds mark (.head _), marks, sources, increasing, ?_, rfl⟩
      intro next member
      have behind := later next.1 (List.mem_map_of_mem member)
      exact ⟨decide_eq_true behind, (bounds next (.tail _ member)).2⟩
  · rintro ⟨⟨after, inside⟩, marks, sources, increasing, bounds, rfl⟩
    refine ⟨(index, properties) :: marks, sources, ?_, ?_, rfl⟩
    · refine List.Pairwise.cons ?_ increasing
      intro later member
      obtain ⟨mark, present, rfl⟩ := List.mem_map.mp member
      exact of_decide_eq_true (bounds mark present).1
    · intro mark member
      rcases List.mem_cons.mp member with rfl | member
      · exact ⟨after, inside⟩
      · obtain ⟨later, inside⟩ := bounds mark member
        exact ⟨comesAfter_trans after (of_decide_eq_true later), inside⟩

/-- The record of a source has the first index that is not of an operand, and only sources follow. -/
theorem inOrderBehind_source {previous : Option Nat} {rest : List DependenceRecord} :
    InOrderBehind operands previous (⟨.named index source, properties⟩ :: rest) ↔
      index = operands ∧ ∃ sources, rest = ofSources (operands + 1) sources := by
  constructor
  · rintro ⟨marks, sources, _, _, same⟩
    cases marks with
    | cons mark marks => cases same
    | nil =>
      cases sources with
      | nil => cases same
      | cons first sources =>
        cases same
        exact ⟨rfl, sources, rfl⟩
  · rintro ⟨rfl, sources, rfl⟩
    exact ⟨[], (source, properties) :: sources, .nil, nofun, rfl⟩

/-- Before the first named source, only the last operand index matters. -/
theorem firstFault?_eq_none_iff (records : List DependenceRecord) {previous : Option Nat}
    (below : previous.all (· < operands)) :
    firstFault? operands previous records = none ↔ InOrderBehind operands previous records := by
  -- operands keep the check in this state, the first named source hands over to the other one
  induction records generalizing previous with
  | nil => exact ⟨fun _ => inOrderBehind_nil, fun _ => rfl⟩
  | cons record rest inductionHypothesis =>
    obtain ⟨slot, properties⟩ := record
    rw [firstFault?_cons_eq_none_iff]
    cases slot with
    | operand index =>
      rw [fault?_operand_eq_none_iff, inOrderBehind_operand]
      refine and_congr_right ?_
      rintro ⟨_, inside⟩
      exact inductionHypothesis (decide_eq_true inside)
    | named index source =>
      rw [fault?_first_source_eq_none_iff below, inOrderBehind_source]
      refine and_congr_right ?_
      rintro rfl
      exact firstFault?_behind_source rest (Nat.le_refl _)

end DependenceRecord

/-- The check accepts exactly the records that are in order. -/
theorem recordFault?_eq_none_iff {operands : Nat} {records : List DependenceRecord} :
    recordFault? operands records = none ↔ DependenceRecord.InOrder operands records := by
  unfold recordFault?
  rw [DependenceRecord.firstFault?_eq_none_iff records rfl]
  simp only [DependenceRecord.InOrderBehind, DependenceRecord.comesAfter, Option.all_none, true_and]
  rfl

/-! ## Where the check adds

The index of a source is compared with the one behind the last index.
-/

namespace DependenceRecord

variable {operands : Nat} {last : Option Nat} {record : DependenceRecord}

/-- The records that the check comes to, each with the last index before it. -/
def visited (operands : Nat) (last : Option Nat) :
    List DependenceRecord → List (Option Nat × DependenceRecord)
  | [] => []
  | record :: rest =>
    (last, record) ::
      match record.fault? operands last with
      | some _ => []
      | none => visited operands (some record.slot.index) rest

/-- The check looks at these records and at no others. -/
theorem firstFault?_eq_findSome?_visited (records : List DependenceRecord) :
    firstFault? operands last records =
      (visited operands last records).findSome? fun step => step.2.fault? operands step.1 := by
  induction records generalizing last with
  | nil => rfl
  | cons record rest inductionHypothesis =>
    rw [firstFault?, visited, List.findSome?_cons]
    cases fault : record.fault? operands last with
    | some found => rfl
    | none => exact inductionHypothesis

/-- An accepted record goes at most one index further. -/
theorem index_le_of_fault?_eq_none {bound : Nat} (below : last.all (· < bound))
    (inside : operands ≤ bound) (accepted : record.fault? operands last = none) :
    record.slot.index ≤ bound := by
  obtain ⟨slot, properties⟩ := record
  cases slot with
  | operand index =>
    have smaller := (fault?_operand_eq_none_iff.mp accepted).2
    exact Nat.le_trans (Nat.le_of_lt smaller) inside
  | named index source =>
    simp only [fault?] at accepted
    split at accepted
    · cases accepted
    · split at accepted
      · rename_i consecutive
        cases last with
        | none => simp_all [Slot.index]
        | some previous =>
          simp only [Option.all_some, decide_eq_true_eq, Option.any_some, Bool.or_eq_true,
            Bool.and_eq_true] at below consecutive
          simp only [Slot.index]
          omega
      · cases accepted

/-- With every accepted record the last index grows by no more than one, so it has a successor below
the number of operands and records. -/
theorem succ_lt_of_mem_visited {bound limit : Nat} (records : List DependenceRecord)
    (below : last.all (· < bound)) (inside : operands ≤ bound)
    (fits : bound + records.length < limit) :
    ∀ step ∈ visited operands last records, ∀ index, step.1 = some index → index + 1 < limit := by
  -- the last index stays below a bound that grows by one with each record
  induction records generalizing last bound with
  | nil => nofun
  | cons record rest inductionHypothesis =>
    rw [List.length_cons] at fits
    rw [visited, List.forall_mem_cons]
    refine ⟨?_, ?_⟩
    · rintro index rfl
      simp only [Option.all_some, decide_eq_true_eq] at below
      omega
    · cases accepted : record.fault? operands last with
      | some _ => nofun
      | none =>
        have next := index_le_of_fault?_eq_none below inside accepted
        have bounded : (some record.slot.index).all (· < bound + 1) :=
          decide_eq_true (Nat.lt_succ_of_le next)
        exact inductionHypothesis bounded (by omega) (by omega)

end DependenceRecord

theorem DependenceRecord.isNamed_of_mem_ofSources {record : DependenceRecord} {index : Nat}
    {sources : List (String × Option (List Property))} (member : record ∈ ofSources index sources) :
    record.slot.isNamed := by
  induction sources generalizing index with
  | nil => cases member
  | cons first sources inductionHypothesis =>
    rcases List.mem_cons.mp member with rfl | member
    · rfl
    · exact inductionHypothesis member

/-- Records that are accepted are about operands that exist. -/
theorem operand_lt_of_recordFault? {operands : Nat} {records : List DependenceRecord}
    (fine : recordFault? operands records = none) :
    ∀ record ∈ records, ∀ index, record.slot = .operand index → index < operands := by
  intro record member index slot
  obtain ⟨marks, sources, _, bounds, rfl⟩ := recordFault?_eq_none_iff.mp fine
  rcases List.mem_append.mp member with member | member
  · obtain ⟨mark, present, rfl⟩ := List.mem_map.mp member
    cases slot
    exact bounds mark present
  · have isNamed := DependenceRecord.isNamed_of_mem_ofSources member
    rw [slot] at isNamed
    cases isNamed

/-! ## Taking operand lists apart -/

namespace Entry

open DependenceRecord

variable {marks : List (Nat × Option (List Property))}
  {sources : List (String × Option (List Property))}

/-- The entries of named sources. -/
def ofSources (sources : List (String × Option (List Property))) : List Entry :=
  sources.map fun entry => .symbol entry.1 entry.2

/-- The entries of operands whose first has the given index, with the properties marked there. -/
def ofOperands (marks : List (Nat × Option (List Property))) (index : Nat) :
    (operands : List String) → List Entry
  | [] => []
  | name :: rest => .value name (marks.lookup index).join :: ofOperands marks (index + 1) rest

theorem propertiesAt_inOrder (number index : Nat) :
    propertiesAt (DependenceRecord.ofOperands marks ++ DependenceRecord.ofSources number sources)
      index = (marks.lookup index).join := by
  induction marks with
  | nil =>
    simp only [DependenceRecord.ofOperands, List.map_nil, List.nil_append, propertiesAt,
      List.lookup_nil, Option.join_none]
    induction sources generalizing number with
    | nil => rfl
    | cons first sources inductionHypothesis =>
      simp only [DependenceRecord.ofSources, List.find?_cons, reduceCtorEq, decide_false]
      exact inductionHypothesis (number + 1)
  | cons mark marks inductionHypothesis =>
    obtain ⟨place, properties⟩ := mark
    simp only [DependenceRecord.ofOperands, List.map_cons, List.cons_append, propertiesAt,
      List.find?_cons, Slot.operand.injEq, List.lookup_cons] at inductionHypothesis ⊢
    by_cases same : place = index
    · subst same
      simp
    · have differs : (index == place) = false := by simpa using Ne.symm same
      simp only [same, decide_false, differs]
      exact inductionHypothesis

theorem mapIdx_value (operands : List String) (start : Nat) :
    operands.mapIdx (fun index name => Entry.value name (marks.lookup (start + index)).join) =
      ofOperands marks start operands := by
  induction operands generalizing start with
  | nil => rfl
  | cons name operands inductionHypothesis =>
    simp only [List.mapIdx_cons, ofOperands, Nat.add_zero, List.cons.injEq, true_and]
    rw [← inductionHypothesis (start + 1)]
    congr 1
    funext index name
    rw [Nat.add_assoc, Nat.add_comm 1 index]

/-- The properties an entry holds. -/
def properties : Entry → Option (List Property)
  | .value _ properties => properties
  | .symbol _ properties => properties

/-- The property lists of an operand list are those of the records. -/
theorem forall_properties_join (holds : Option (List Property) → Prop) (absent : holds none)
    {dependences : List DependenceRecord} (records : ∀ record ∈ dependences, holds record.properties)
    (operands : List String) : ∀ entry ∈ join operands dependences, holds entry.properties := by
  intro entry member
  rcases List.mem_append.mp member with member | member
  · obtain ⟨index, _, rfl⟩ := List.mem_mapIdx.mp member
    simp only [Entry.properties, propertiesAt]
    cases found : dependences.find? fun record => record.slot = .operand index with
    | none => exact absent
    | some record => exact records record (List.mem_of_find?_eq_some found)
  · obtain ⟨record, present, named⟩ := List.mem_filterMap.mp member
    obtain ⟨source, _, rfl⟩ := Option.map_eq_some_iff.mp named
    exact records record present

theorem mem_operands_of_mem_join {operands : List String} {dependences : List DependenceRecord}
    {name : String} {properties : Option (List Property)}
    (member : .value name properties ∈ join operands dependences) : name ∈ operands := by
  rcases List.mem_append.mp member with member | member
  · obtain ⟨index, inside, same⟩ := List.mem_mapIdx.mp member
    cases same
    exact List.getElem_mem inside
  · obtain ⟨record, _, named⟩ := List.mem_filterMap.mp member
    obtain ⟨source, _, same⟩ := Option.map_eq_some_iff.mp named
    cases same

/-- Records in order, put together with operands. -/
theorem join_inOrder (operands : List String) (number : Nat) :
    join operands
        (DependenceRecord.ofOperands marks ++ DependenceRecord.ofSources number sources) =
      ofOperands marks 0 operands ++ ofSources sources := by
  have named : (DependenceRecord.ofOperands marks).filterMap ofNamed? = [] := by
    simp [DependenceRecord.ofOperands, ofNamed?, Slot.source?]
  have symbols : (DependenceRecord.ofSources number sources).filterMap ofNamed? =
      ofSources sources := by
    induction sources generalizing number with
    | nil => rfl
    | cons first sources inductionHypothesis =>
      simp only [DependenceRecord.ofSources, List.filterMap_cons, ofNamed?, Slot.source?,
        Option.map_some, ofSources, List.map_cons] at inductionHypothesis ⊢
      rw [inductionHypothesis]
  have values : operands.mapIdx
      (fun index name => Entry.value name (marks.lookup (0 + index)).join) =
        ofOperands marks 0 operands := mapIdx_value operands 0
  simp only [Nat.zero_add] at values
  simp only [join, propertiesAt_inOrder, List.filterMap_append, named, symbols, List.nil_append,
    values]

theorem operands_ofSources : operands (ofSources sources) = [] := by
  induction sources with
  | nil => rfl
  | cons first sources inductionHypothesis => exact inductionHypothesis

theorem records_ofSources (index : Nat) :
    records index (ofSources sources) = DependenceRecord.ofSources index sources := by
  induction sources generalizing index with
  | nil => rfl
  | cons first sources inductionHypothesis =>
    simp only [ofSources, List.map_cons, records, DependenceRecord.ofSources] at inductionHypothesis ⊢
    rw [inductionHypothesis]

theorem operands_ofOperands (names : List String) (index : Nat) (rest : List Entry) :
    operands (ofOperands marks index names ++ rest) = names ++ operands rest := by
  induction names generalizing index with
  | nil => rfl
  | cons name names inductionHypothesis =>
    simp only [ofOperands, List.cons_append, operands, inductionHypothesis]

/-- Marks behind an index do not change the entries from there on. -/
theorem ofOperands_congr {others : List (Nat × Option (List Property))} (names : List String)
    (index : Nat) (same : ∀ place, index ≤ place → marks.lookup place = others.lookup place) :
    ofOperands marks index names = ofOperands others index names := by
  induction names generalizing index with
  | nil => rfl
  | cons name names inductionHypothesis =>
    simp only [ofOperands, same index (Nat.le_refl _)]
    rw [inductionHypothesis (index + 1) fun place above => same place (by omega)]

/-- An operand before all marks is not marked. -/
theorem ofOperands_unmarked {index : Nat} (later : ∀ mark ∈ marks, index < mark.1) (name : String)
    (names : List String) :
    ofOperands marks index (name :: names) =
      .value name none :: ofOperands marks (index + 1) names := by
  have unmarked : marks.lookup index = none := by
    rw [List.lookup_eq_none_iff]
    intro mark member
    rw [bne_iff_ne]
    exact Nat.ne_of_lt (later mark member)
  rw [ofOperands, unmarked, Option.join_none]

/-- The first mark is for its operand only. -/
theorem ofOperands_marked (index : Nat) (properties : Option (List Property)) (name : String)
    (names : List String) :
    ofOperands ((index, properties) :: marks) index (name :: names) =
      .value name properties :: ofOperands marks (index + 1) names := by
  have others : ofOperands ((index, properties) :: marks) (index + 1) names =
      ofOperands marks (index + 1) names := by
    apply ofOperands_congr
    intro place above
    have differs : (place == index) = false := beq_eq_false_iff_ne.mpr (by omega)
    rw [List.lookup_cons, differs]
  rw [ofOperands, List.lookup_cons_self, Option.join_some, others]

/-- Marked operands give back their marks, if these are in order and none is without properties. -/
theorem records_ofOperands (names : List String) (index : Nat) (rest : List Entry)
    (increasing : (marks.map Prod.fst).Pairwise (· < ·))
    (bounds : ∀ mark ∈ marks, index ≤ mark.1 ∧ mark.1 < index + names.length)
    (marked : ∀ mark ∈ marks, mark.2.isSome) :
    records index (ofOperands marks index names ++ rest) =
      DependenceRecord.ofOperands marks ++ records (index + names.length) rest := by
  induction names generalizing index marks with
  | nil =>
    cases marks with
    | nil => rfl
    | cons mark marks =>
      have inside := bounds mark (.head _)
      rw [List.length_nil] at inside
      omega
  | cons name names inductionHypothesis =>
    have total : index + (name :: names).length = index + 1 + names.length := by
      rw [List.length_cons]
      omega
    rw [total] at bounds ⊢
    cases marks with
    | nil =>
      rw [ofOperands_unmarked (List.forall_mem_nil _) name names]
      exact inductionHypothesis (index + 1) .nil (List.forall_mem_nil _) (List.forall_mem_nil _)
    | cons mark marks =>
      obtain ⟨place, properties⟩ := mark
      obtain ⟨behind, increasingRest⟩ := List.pairwise_cons.mp increasing
      have later : ∀ mark ∈ marks, place < mark.1 := fun mark member =>
        behind mark.1 (List.mem_map_of_mem member)
      -- only the first mark can be for this operand, the others come after it
      by_cases here : place = index
      · subst here
        obtain ⟨list, rfl⟩ := Option.isSome_iff_exists.mp (marked (place, properties) (.head _))
        have others := inductionHypothesis (place + 1) increasingRest
          (fun mark member => ⟨later mark member, (bounds mark (.tail _ member)).2⟩)
          (fun mark member => marked mark (.tail _ member))
        rw [ofOperands_marked, List.cons_append, records, others]
        rfl
      · have above := (bounds (place, properties) (.head _)).1
        have before : index < place := Nat.lt_of_le_of_ne above (Ne.symm here)
        have allLater : ∀ mark ∈ (place, properties) :: marks, index < mark.1 :=
          List.forall_mem_cons.mpr
            ⟨before, fun mark member => Nat.lt_trans before (later mark member)⟩
        rw [ofOperands_unmarked allLater name names]
        exact inductionHypothesis (index + 1) increasing
          (fun mark member => ⟨allLater mark member, (bounds mark member).2⟩) marked

/-- Records in order, each of an operand with a property list, are not lost when an operand list is
put together. -/
theorem split_join {names : List String} {dependences : List DependenceRecord}
    (fine : recordFault? names.length dependences = none)
    (marked : ∀ record ∈ dependences, record.slot.isNamed ∨ record.properties.isSome) :
    split (join names dependences) = (names, dependences) := by
  obtain ⟨marks, sources, increasing, bounds, rfl⟩ := recordFault?_eq_none_iff.mp fine
  have markedOperands : ∀ mark ∈ marks, mark.2.isSome := by
    intro mark member
    have present : (⟨.operand mark.1, mark.2⟩ : DependenceRecord) ∈
        DependenceRecord.ofOperands marks ++ DependenceRecord.ofSources names.length sources :=
      List.mem_append_left _ (List.mem_map_of_mem member)
    exact (marked _ present).resolve_left (by simp [Slot.isNamed, Slot.source?])
  have inside : ∀ mark ∈ marks, 0 ≤ mark.1 ∧ mark.1 < 0 + names.length := by
    intro mark member
    exact ⟨Nat.zero_le _, by simpa using bounds mark member⟩
  rw [join_inOrder, split, operands_ofOperands, operands_ofSources, List.append_nil,
    records_ofOperands names 0 _ increasing inside markedOperands, Nat.zero_add, records_ofSources]

end Entry

end StaticScheduling
