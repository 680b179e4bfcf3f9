import StaticScheduling.Proofs.Instance.RecordOrder
import StaticScheduling.Proofs.Verification

/-! # Operand lists and dependence records

An operand list is taken apart into operands and records, and put together from
them.  The records that come out are in order exactly if the list has its
operands in front, and then it is the list that they are put together to.  The
other way around only records that say nothing are lost: those of operands that
have no property list.
-/

namespace StaticScheduling

namespace Entry

open DependenceRecord

variable {index : Nat} {name : String} {properties : Option (List Property)}
  {entries rest : List Entry} {sources : List (String × Option (List Property))}
  {marks : List (Nat × Option (List Property))}

/-! ## Operands in front -/

def isOperand : Entry → Bool
  | .value _ _ => true
  | .symbol _ _ => false

/-- No operand comes behind a source. -/
def OperandsFirst (entries : List Entry) : Prop :=
  entries.Pairwise fun first second => second.isOperand → first.isOperand

instance (entries : List Entry) : Decidable (OperandsFirst entries) :=
  inferInstanceAs (Decidable (entries.Pairwise _))

theorem operandsFirst_value_cons :
    OperandsFirst (.value name properties :: rest) ↔ OperandsFirst rest := by
  simp [OperandsFirst, isOperand]

/-- A list without operands is a list of sources. -/
theorem exists_ofSources_iff :
    (∃ sources, entries = ofSources sources) ↔ ∀ entry ∈ entries, ¬ entry.isOperand := by
  induction entries with
  | nil => exact ⟨fun _ => nofun, fun _ => ⟨[], rfl⟩⟩
  | cons entry rest inductionHypothesis =>
    rw [List.forall_mem_cons, ← inductionHypothesis]
    constructor
    · rintro ⟨sources, same⟩
      cases sources with
      | nil => cases same
      | cons source sources =>
        cases same
        exact ⟨nofun, sources, rfl⟩
    · rintro ⟨noOperand, sources, rfl⟩
      cases entry with
      | value name properties => exact absurd rfl noOperand
      | symbol name properties => exact ⟨(name, properties) :: sources, rfl⟩

/-- Behind a source there are sources only. -/
theorem operandsFirst_symbol_cons :
    OperandsFirst (.symbol name properties :: rest) ↔ ∃ sources, rest = ofSources sources := by
  rw [exists_ofSources_iff, OperandsFirst, List.pairwise_cons]
  constructor
  · rintro ⟨behind, _⟩ entry member operand
    cases behind entry member operand
  · intro noOperand
    refine ⟨fun entry member operand => absurd operand (noOperand entry member), ?_⟩
    exact List.pairwise_of_forall_mem_list fun first _ second member operand =>
      absurd operand (noOperand second member)

theorem operands_eq_nil_iff : operands entries = [] ↔ ∃ sources, entries = ofSources sources := by
  constructor
  · intro none
    induction entries with
    | nil => exact ⟨[], rfl⟩
    | cons entry rest inductionHypothesis =>
      cases entry with
      | value name properties => cases none
      | symbol name properties =>
        obtain ⟨sources, rfl⟩ := inductionHypothesis none
        exact ⟨(name, properties) :: sources, rfl⟩
  · rintro ⟨sources, rfl⟩
    exact operands_ofSources

/-! ## Taking apart, then putting together -/

/-- The records of entries behind some others are in order if the operands among them come first. -/
theorem firstFault?_records_eq_none_iff (entries : List Entry) {previous : Option Nat}
    (below : previous.all (· < index)) :
    firstFault? (index + (operands entries).length) previous (records index entries) = none ↔
      OperandsFirst entries := by
  -- every entry takes an index, also an operand that leaves no record
  induction entries generalizing index previous with
  | nil => exact ⟨fun _ => .nil, fun _ => rfl⟩
  | cons entry rest inductionHypothesis =>
    have above (bound : Nat) (larger : index ≤ bound) : previous.all (· < bound) := by
      cases previous with
      | none => rfl
      | some last => simp_all; omega
    cases entry with
    | value name properties =>
      have counted : index + (operands (.value name properties :: rest)).length =
          index + 1 + (operands rest).length := by
        simp only [operands, List.length_cons]
        omega
      rw [operandsFirst_value_cons, counted]
      cases properties with
      | none => exact inductionHypothesis (above (index + 1) (by omega))
      | some properties =>
        have here : fault? (index + 1 + (operands rest).length) previous
            ⟨.operand index, some properties⟩ = none :=
          fault?_operand_eq_none_iff.mpr ⟨below, by omega⟩
        rw [records, firstFault?_cons_eq_none_iff, and_iff_right here]
        exact inductionHypothesis (by simp [Slot.index])
    | symbol name properties =>
      have here : fault? (index + (operands rest).length) previous
          ⟨.named index name, properties⟩ = none ↔ index = index + (operands rest).length :=
        fault?_first_source_eq_none_iff (above (index + (operands rest).length) (by omega))
      rw [operandsFirst_symbol_cons, records, firstFault?_cons_eq_none_iff, operands, here]
      constructor
      · rintro ⟨last, _⟩
        rw [← operands_eq_nil_iff, ← List.length_eq_zero_iff]
        omega
      · rintro ⟨sources, rfl⟩
        rw [operands_ofSources, records_ofSources]
        exact ⟨rfl, (firstFault?_behind_source _ (Nat.le_refl _)).mpr ⟨sources, rfl⟩⟩

/-- The marks and the sources in a list that has its operands in front. -/
theorem OperandsFirst.exists_marks (first : OperandsFirst entries) (index : Nat) :
    ∃ marks sources, (∀ mark ∈ marks, index ≤ mark.1) ∧
      records index entries = DependenceRecord.ofOperands marks ++
        DependenceRecord.ofSources (index + (operands entries).length) sources ∧
      entries = ofOperands marks index (operands entries) ++ ofSources sources := by
  induction entries generalizing index with
  | nil => exact ⟨[], [], nofun, rfl, rfl⟩
  | cons entry rest inductionHypothesis =>
    cases entry with
    | value name properties =>
      obtain ⟨marks, sources, later, inOrder, same⟩ :=
        inductionHypothesis (operandsFirst_value_cons.mp first) (index + 1)
      have counted : index + (operands (.value name properties :: rest)).length =
          index + 1 + (operands rest).length := by
        simp only [operands, List.length_cons]
        omega
      rw [counted]
      cases properties with
      | none =>
        refine ⟨marks, sources, fun mark member => Nat.le_of_succ_le (later mark member), inOrder, ?_⟩
        rw [operands, ofOperands_unmarked later, List.cons_append, ← same]
      | some properties =>
        refine ⟨(index, some properties) :: marks, sources, ?_, ?_, ?_⟩
        · exact List.forall_mem_cons.mpr
            ⟨Nat.le_refl index, fun mark member => Nat.le_of_succ_le (later mark member)⟩
        · rw [records, inOrder]
          rfl
        · rw [operands, ofOperands_marked, List.cons_append, ← same]
    | symbol name properties =>
      obtain ⟨sources, rfl⟩ := operandsFirst_symbol_cons.mp first
      refine ⟨[], (name, properties) :: sources, nofun, ?_, ?_⟩
      · rw [records, records_ofSources, operands, operands_ofSources]
        rfl
      · rw [operands, operands_ofSources]
        rfl

/-- What was taken apart is put together again. -/
theorem OperandsFirst.join_split (first : OperandsFirst entries) :
    join (split entries).1 (split entries).2 = entries := by
  obtain ⟨marks, sources, _, inOrder, same⟩ := first.exists_marks 0
  rw [split, inOrder, join_inOrder, ← same]

/-! ## Putting together, then taking apart -/

/-- The records that leave a trace in an operand list. -/
def traced (dependences : List DependenceRecord) : List DependenceRecord :=
  dependences.filter fun record => record.slot.isNamed || record.properties.isSome

theorem traced_eq_self_iff {dependences : List DependenceRecord} :
    traced dependences = dependences ↔
      ∀ record ∈ dependences, record.slot.isNamed ∨ record.properties.isSome := by
  simp only [traced, List.filter_eq_self, Bool.or_eq_true]

theorem traced_inOrder (number : Nat) :
    traced (DependenceRecord.ofOperands marks ++ DependenceRecord.ofSources number sources) =
      DependenceRecord.ofOperands (marks.filter fun mark => mark.2.isSome) ++
        DependenceRecord.ofSources number sources := by
  have named : traced (DependenceRecord.ofSources number sources) =
      DependenceRecord.ofSources number sources :=
    traced_eq_self_iff.mpr fun record member => .inl (isNamed_of_mem_ofSources member)
  have marked : traced (DependenceRecord.ofOperands marks) =
      DependenceRecord.ofOperands (marks.filter fun mark => mark.2.isSome) := by
    rw [traced, DependenceRecord.ofOperands, List.filter_map]
    rfl
  calc traced (DependenceRecord.ofOperands marks ++ DependenceRecord.ofSources number sources)
      = traced (DependenceRecord.ofOperands marks) ++
          traced (DependenceRecord.ofSources number sources) := List.filter_append ..
    _ = _ := by rw [marked, named]

/-- A mark without properties is as good as none. -/
theorem join_lookup_filter (increasing : (marks.map Prod.fst).Pairwise (· < ·)) (index : Nat) :
    ((marks.filter fun mark => mark.2.isSome).lookup index).join = (marks.lookup index).join := by
  induction marks with
  | nil => rfl
  | cons mark marks inductionHypothesis =>
    obtain ⟨place, properties⟩ := mark
    obtain ⟨later, increasing⟩ := List.pairwise_cons.mp increasing
    have others := inductionHypothesis increasing
    by_cases here : index = place
    · subst here
      cases properties with
      | some properties => simp
      | none =>
        -- the marks behind are for later operands
        have absent : marks.lookup index = none := by
          rw [List.lookup_eq_none_iff]
          intro mark member
          rw [bne_iff_ne]
          exact Nat.ne_of_lt (later mark.1 (List.mem_map_of_mem member))
        simpa [List.lookup_cons, absent] using others
    · have differs : (index == place) = false := beq_eq_false_iff_ne.mpr here
      cases properties <;> simpa [List.lookup_cons, differs] using others

theorem ofOperands_filter (increasing : (marks.map Prod.fst).Pairwise (· < ·)) (index : Nat)
    (names : List String) :
    ofOperands (marks.filter fun mark => mark.2.isSome) index names =
      ofOperands marks index names := by
  induction names generalizing index with
  | nil => rfl
  | cons name names inductionHypothesis =>
    rw [ofOperands, ofOperands, join_lookup_filter increasing, inductionHypothesis]

theorem join_traced {dependences : List DependenceRecord} {number : Nat}
    (inOrder : InOrder number dependences) (names : List String) :
    join names (traced dependences) = join names dependences := by
  obtain ⟨marks, sources, increasing, _, rfl⟩ := inOrder
  rw [traced_inOrder, join_inOrder, join_inOrder, ofOperands_filter increasing]

theorem inOrder_traced {dependences : List DependenceRecord} {number : Nat}
    (inOrder : InOrder number dependences) : InOrder number (traced dependences) := by
  obtain ⟨marks, sources, increasing, bounds, rfl⟩ := inOrder
  refine ⟨_, sources, ?_, ?_, traced_inOrder number⟩
  · exact increasing.sublist (List.filter_sublist.map Prod.fst)
  · intro mark member
    exact bounds mark (List.mem_filter.mp member).1

/-- What was put together is taken apart again, up to the records that left no trace. -/
theorem split_join_traced {names : List String} {dependences : List DependenceRecord}
    (fine : recordFault? names.length dependences = none) :
    split (join names dependences) = (names, traced dependences) := by
  have inOrder := recordFault?_eq_none_iff.mp fine
  rw [← join_traced inOrder]
  refine split_join (recordFault?_eq_none_iff.mpr (inOrder_traced inOrder)) ?_
  intro record member
  simpa using (List.mem_filter.mp member).2

/-! ## The correspondence -/

/-- Operand lists with the operands in front correspond to operands and records in order, where
every operand that has a record has a property list there.  Records in order without a property list
are all that an operand list cannot hold. -/
theorem operandLists_correspond (label : String) :
    (∀ entries,
      (checkRecords label (split entries).1.length (split entries).2 = .ok () ↔
        OperandsFirst entries) ∧
      (OperandsFirst entries → join (split entries).1 (split entries).2 = entries)) ∧
    ∀ names dependences, checkRecords label names.length dependences = .ok () →
      split (join names dependences) = (names, traced dependences) ∧
      ((∀ record ∈ dependences, record.slot.isNamed ∨ record.properties.isSome) →
        split (join names dependences) = (names, dependences)) := by
  refine ⟨fun entries => ⟨?_, OperandsFirst.join_split⟩, fun names dependences checked => ?_⟩
  · have accepted := @firstFault?_records_eq_none_iff 0 entries none rfl
    rw [Nat.zero_add] at accepted
    exact checkRecords_eq_ok_iff.trans accepted
  · have fine := checkRecords_eq_ok_iff.mp checked
    refine ⟨split_join_traced fine, fun marked => ?_⟩
    rw [split_join_traced fine, traced_eq_self_iff.mpr marked]

/-- An operand list with lists of properties that are empty, absent and filled. -/
def assorted : List Entry :=
  [.value "x" (some []), .value "y" none, .value "x" (some [.ofNumber "distance" 1]),
    .symbol "first" none, .symbol "first" (some [])]

/-- An operand list in which an operand comes behind a source, without properties. -/
def trailing : List Entry := assorted ++ [.value "z" none]

/-- Records in order, the first of which says nothing. -/
def partlySilent : List DependenceRecord :=
  [⟨.operand 0, none⟩, ⟨.operand 2, some []⟩, ⟨.named 3 "first", none⟩]

theorem operandLists_correspond_assorted :
    (OperandsFirst assorted ∧ join (split assorted).1 (split assorted).2 = assorted) ∧
      (¬ OperandsFirst trailing ∧
        checkRecords "@a" (split trailing).1.length (split trailing).2 ≠ .ok ()) ∧
      checkRecords "@a" 3 partlySilent = .ok () ∧
      split (join ["x", "y", "z"] partlySilent) = (["x", "y", "z"], partlySilent.tail) := by
  have inFront : OperandsFirst assorted := by decide
  have behind : ¬ OperandsFirst trailing := by decide
  have checked : checkRecords "@a" 3 partlySilent = .ok () := rfl
  obtain ⟨lists, records⟩ := operandLists_correspond "@a"
  exact ⟨⟨inFront, (lists assorted).2 inFront⟩, ⟨behind, mt (lists trailing).1.mp behind⟩, checked,
    (records ["x", "y", "z"] partlySilent checked).1⟩

end Entry

end StaticScheduling
