import StaticScheduling.Proofs.Instance.RecordOrder
import StaticScheduling.Proofs.Instance.Resolution
import StaticScheduling.Proofs.Success

/-! # What verification accepts

Verification goes through a document and stops at the first violation.  Here its
acceptance is a predicate on the document as a whole, in the terms that loading
uses: names and values that are defined once, and references to them.
-/

namespace StaticScheduling

/-! ## Symbol tables -/

/-- Where no key comes twice, looking a key up finds the value it stands beside. -/
theorem lookup_eq_some_iff_mem {Key Value : Type} [DecidableEq Key] {entries : List (Key × Value)}
    (distinct : (entries.map Prod.fst).Nodup) {key : Key} {value : Value} :
    entries.lookup key = some value ↔ (key, value) ∈ entries := by
  constructor
  · intro found
    obtain ⟨before, after, split, _⟩ := List.lookup_eq_some_iff.mp found
    rw [split]
    exact List.mem_append_right _ (List.mem_cons_self ..)
  · intro member
    induction entries with
    | nil => cases member
    | cons first rest inductionHypothesis =>
      obtain ⟨absent, distinct⟩ := List.nodup_cons.mp distinct
      rcases List.mem_cons.mp member with rfl | member
      · rw [List.lookup_cons_self]
      · have different : (key == first.1) = false := by
          rw [beq_eq_false_iff_ne]
          intro same
          exact absent (List.mem_map.mpr ⟨(key, value), member, same⟩)
        rw [List.lookup_cons, different]
        exact inductionHypothesis distinct member

namespace SymbolTable

variable {table changed : SymbolTable} {name : String} {kind : SymbolKind}

theorem define_eq_ok_iff :
    table.define name kind = .ok changed ↔
      name ∉ table.symbols.map Prod.fst ∧ changed = ⟨table.symbols ++ [(name, kind)]⟩ := by
  have known : table.lookup name = none ↔ name ∉ table.symbols.map Prod.fst := by
    rw [lookup, List.lookup_eq_none_iff, List.mem_map]
    constructor
    · rintro absent ⟨symbol, member, rfl⟩
      exact absurd (absent symbol member) (by simp)
    · intro absent symbol member
      rw [bne_iff_ne]
      rintro rfl
      exact absent ⟨symbol, member, rfl⟩
  rw [← known, define]
  cases table.lookup name with
  | none => simp [eq_comm]
  | some found => simp

/-- Symbols are defined one after the other as long as they are new. -/
theorem foldlM_define_eq_ok_iff {definitions : List (String × SymbolKind)} :
    definitions.foldlM (fun table definition => table.define definition.1 definition.2) table =
        .ok changed ↔
      Fresh (table.symbols.map Prod.fst) (definitions.map Prod.fst) ∧
        changed = ⟨table.symbols ++ definitions⟩ := by
  -- the table grows at its end with every symbol that is defined
  induction definitions generalizing table with
  | nil =>
    rw [List.append_nil]
    constructor
    · intro same
      cases same
      exact ⟨fresh_nil, rfl⟩
    · rintro ⟨_, rfl⟩
      rfl
  | cons first rest inductionHypothesis =>
    rw [List.foldlM_cons, bind_eq_ok_iff, List.map_cons, fresh_cons,
      ← fresh_map_concat Prod.fst table.symbols first]
    constructor
    · rintro ⟨middle, defined, more⟩
      obtain ⟨new, rfl⟩ := define_eq_ok_iff.mp defined
      obtain ⟨fresh, rfl⟩ := inductionHypothesis.mp more
      exact ⟨⟨new, fresh⟩, by rw [List.append_assoc, List.singleton_append]⟩
    · rintro ⟨⟨new, fresh⟩, rfl⟩
      refine ⟨_, define_eq_ok_iff.mpr ⟨new, rfl⟩, inductionHypothesis.mpr ⟨fresh, ?_⟩⟩
      rw [List.append_assoc, List.singleton_append]

theorem resolve_eq_ok_iff {referrer : String} :
    table.resolve referrer name kind = .ok () ↔ table.lookup name = some kind := by
  unfold resolve
  cases table.lookup name with
  | none => exact ⟨nofun, nofun⟩
  | some found =>
    by_cases same : found = kind
    · simp [same]
    · simp [same]

end SymbolTable

/-! ## Records -/

open DependenceRecord (InOrder visited)

theorem checkRecords_eq_ok_iff {label : String} {operands : Nat} {records : List DependenceRecord} :
    checkRecords label operands records = .ok () ↔ recordFault? operands records = none := by
  unfold checkRecords
  cases recordFault? operands records <;> simp

/-- Records are accepted exactly if those of operands come first, their indices increasing and below
the number of operands, and those of sources follow, numbered on from that number.  Accepted or not,
no index that the check adds to is the last one of 32 bits. -/
theorem checkRecords_accepts_inOrder (label : String) {operands : Nat}
    {records : List DependenceRecord} (fits : operands + records.length < UInt32.size) :
    (checkRecords label operands records = .ok () ↔ InOrder operands records) ∧
      recordFault? operands records =
        (visited operands none records).findSome? (fun step => step.2.fault? operands step.1) ∧
      ∀ step ∈ visited operands none records, ∀ last, step.1 = some last →
        last + 1 < UInt32.size := by
  refine ⟨?_, DependenceRecord.firstFault?_eq_findSome?_visited records, ?_⟩
  · rw [checkRecords_eq_ok_iff, recordFault?_eq_none_iff]
  · exact DependenceRecord.succ_lt_of_mem_visited records rfl (Nat.le_refl operands) fits

/-- Records of the first and the third of three operands, then of two sources. -/
def leavingOut : List DependenceRecord :=
  [⟨.operand 0, none⟩, ⟨.operand 2, some []⟩, ⟨.named 3 "first", none⟩, ⟨.named 4 "first", none⟩]

/-- The same records with an index left out between the sources. -/
def withGap : List DependenceRecord := leavingOut.take 3 ++ [⟨.named 5 "first", none⟩]

theorem checkRecords_accepts_inOrder_leavingOut :
    3 + leavingOut.length < UInt32.size ∧ InOrder 3 leavingOut ∧
      checkRecords "@a" 3 leavingOut = .ok () ∧
      3 + withGap.length < UInt32.size ∧ checkRecords "@a" 3 withGap ≠ .ok () ∧
      ¬ InOrder 3 withGap ∧ (some 3, ⟨.named 5 "first", none⟩) ∈ visited 3 none withGap := by
  have fits : 3 + leavingOut.length < UInt32.size := by decide
  have inOrder : InOrder 3 leavingOut :=
    ⟨[(0, none), (2, some [])], [("first", none), ("first", none)], by decide, by decide, rfl⟩
  have gapFits : 3 + withGap.length < UInt32.size := by decide
  have refused : checkRecords "@a" 3 withGap ≠ .ok () := nofun
  exact ⟨fits, inOrder, (checkRecords_accepts_inOrder "@a" fits).1.mpr inOrder, gapFits, refused,
    mt (checkRecords_accepts_inOrder "@a" gapFits).1.mpr refused, by decide⟩

/-! ## Operations -/

theorem OperationDecl.mem_sources {declaration : OperationDecl} {name : String} :
    name ∈ declaration.sources ↔
      ∃ record ∈ declaration.dependences, ∃ index, record.slot = .named index name := by
  have source {slot : Slot} : slot.source? = some name ↔ ∃ index, slot = .named index name := by
    cases slot <;> simp [Slot.source?]
  simp only [sources, List.mem_filterMap, source]

theorem OperationDecl.mem_linkTargets {declaration : OperationDecl} {name : String} :
    name ∈ declaration.linkTargets ↔
      ∃ property ∈ declaration.properties.getD [],
        property.isLink ∧ Parameter.symbol name ∈ property.parameters := by
  have symbol {parameter : Parameter} : parameter.symbol? = some name ↔ parameter = .symbol name := by
    cases parameter <;> simp [Parameter.symbol?]
  simp [linkTargets, List.mem_flatMap, symbol, and_assoc]

namespace Instance

/-- The symbols that a document defines. -/
def symbols (document : Instance) : List String :=
  document.operatorTypes.map OperatorTypeDecl.name ++ document.names

/-- An operation whose references are to what they have to be to, and whose records are in order. -/
structure Resolvable (document : Instance) (declaration : OperationDecl) : Prop where
  operands : ∀ name ∈ declaration.operands, name ∈ document.values
  records : recordFault? declaration.operands.length declaration.dependences = none
  sources : ∀ name ∈ declaration.sources, name ∈ document.names
  targets : ∀ name ∈ declaration.linkTargets,
    name ∈ document.operatorTypes.map OperatorTypeDecl.name

/-- A document in which all definitions are of something new and all references are resolvable. -/
structure Verified (document : Instance) : Prop where
  symbols : document.symbols.Nodup
  values : document.values.Nodup
  operations : ∀ declaration ∈ document.operations, document.Resolvable declaration

variable {document : Instance}

theorem map_fst_definitions :
    (SymbolTable.definitions document).map Prod.fst = document.symbols := by
  simp only [SymbolTable.definitions, symbols, List.map_append, List.map_map]
  congr 1
  exact List.map_id _

theorem ofInstance_eq_ok_iff {table : SymbolTable} :
    SymbolTable.ofInstance document = .ok table ↔
      document.symbols.Nodup ∧ table = ⟨SymbolTable.definitions document⟩ := by
  rw [SymbolTable.ofInstance, SymbolTable.foldlM_define_eq_ok_iff, map_fst_definitions]
  exact and_congr_left' fresh_of_nothing

theorem lookup_operation (distinct : document.symbols.Nodup) {name : String} :
    (SymbolTable.mk (SymbolTable.definitions document)).lookup name = some .operation ↔
      name ∈ document.names := by
  rw [← map_fst_definitions] at distinct
  rw [SymbolTable.lookup, lookup_eq_some_iff_mem distinct, SymbolTable.definitions]
  simp [names]

theorem lookup_operatorType (distinct : document.symbols.Nodup) {name : String} :
    (SymbolTable.mk (SymbolTable.definitions document)).lookup name = some .operatorType ↔
      name ∈ document.operatorTypes.map OperatorTypeDecl.name := by
  rw [← map_fst_definitions] at distinct
  rw [SymbolTable.lookup, lookup_eq_some_iff_mem distinct, SymbolTable.definitions]
  simp

theorem verifyOperation_eq_ok_iff (distinct : document.symbols.Nodup) {label : String}
    {declaration : OperationDecl} :
    verifyOperation ⟨SymbolTable.definitions document⟩ document.values label declaration = .ok () ↔
      document.Resolvable declaration := by
  unfold verifyOperation
  -- operands are looked at first, and the first undefined one is reported
  split
  · rename_i name found
    have used := List.mem_of_find?_eq_some found
    have undefined : name ∉ document.values := by simpa using List.find?_some found
    constructor
    · intro succeeds
      cases succeeds
    · intro resolvable
      exact absurd (resolvable.operands name used) undefined
  · rename_i found
    have operands : ∀ name ∈ declaration.operands, name ∈ document.values := by
      simpa [List.find?_eq_none] using found
    simp only [bind_eq_ok_iff, exists_unit, checkRecords_eq_ok_iff, forM_eq_ok_iff,
      SymbolTable.resolve_eq_ok_iff, lookup_operation distinct, lookup_operatorType distinct]
    constructor
    · rintro ⟨_, records, sources, targets⟩
      exact ⟨operands, records, sources, targets⟩
    · intro resolvable
      exact ⟨trivial, resolvable.records, resolvable.sources, resolvable.targets⟩

/-- Verification succeeds exactly on the documents that are verified. -/
theorem verify_eq_ok_iff : document.verify = .ok () ↔ document.Verified := by
  -- positions only name operations in messages
  have operations (distinct : document.symbols.Nodup) :
      (document.operations.zipIdx.forM fun entry => verifyOperation
          ⟨SymbolTable.definitions document⟩ document.values (entry.1.describe entry.2) entry.1) =
        .ok () ↔ ∀ declaration ∈ document.operations, document.Resolvable declaration :=
    forM_zipIdx_eq_ok_iff fun _ _ => verifyOperation_eq_ok_iff distinct
  simp only [verify, bind_eq_ok_iff, ofInstance_eq_ok_iff]
  cases repeated : firstRepeated? [] document.values with
  | some name =>
    constructor
    · rintro ⟨_, _, refused⟩
      cases refused
    · intro verified
      rw [firstRepeated?_eq_none_iff.mpr (fresh_of_nothing.mpr verified.values)] at repeated
      cases repeated
  | none =>
    have values := fresh_of_nothing.mp (firstRepeated?_eq_none_iff.mp repeated)
    constructor
    · rintro ⟨_, ⟨distinct, rfl⟩, resolvable⟩
      exact ⟨distinct, values, (operations distinct).mp resolvable⟩
    · intro verified
      exact ⟨_, ⟨verified.symbols, rfl⟩, (operations verified.symbols).mpr verified.operations⟩

/-! ## Consistent documents -/

/-- An operation that refers to what its document defines, in front of it, behind it or by itself:
operands are results of operations, records are in order, named sources are operations, and links
are to operator types. -/
structure Connected (document : Instance) (declaration : OperationDecl) : Prop where
  operands : ∀ name ∈ declaration.operands,
    ∃ definition ∈ document.operations, name ∈ definition.results
  records : InOrder declaration.operands.length declaration.dependences
  sources : ∀ record ∈ declaration.dependences, ∀ index source, record.slot = .named index source →
    ∃ definition ∈ document.operations, definition.name = some source
  links : ∀ property ∈ declaration.properties.getD [],
    property.dialect = "ssp" → property.mnemonic = "link" →
      ∀ target, .symbol target ∈ property.parameters →
        ∃ definition ∈ document.operatorTypes, definition.name = target

/-- A document in which operator types and named operations have different names, no value is
defined twice, and every operation is connected. -/
structure Consistent (document : Instance) : Prop where
  symbols : (document.operatorTypes.map OperatorTypeDecl.name ++
    document.operations.filterMap OperationDecl.name).Nodup
  values : (document.operations.flatMap OperationDecl.results).Nodup
  operations : ∀ declaration ∈ document.operations, document.Connected declaration

theorem resolvable_iff_connected {declaration : OperationDecl} :
    document.Resolvable declaration ↔ document.Connected declaration := by
  have isLink {property : Property} :
      property.isLink ↔ property.dialect = "ssp" ∧ property.mnemonic = "link" := by
    simp only [Property.isLink, Property.isNamed, Bool.and_eq_true, decide_eq_true_eq]
    rfl
  constructor
  · intro resolvable
    refine ⟨?_, recordFault?_eq_none_iff.mp resolvable.records, ?_, ?_⟩
    · intro name used
      exact List.mem_flatMap.mp (resolvable.operands name used)
    · intro record member index source named
      have referred := OperationDecl.mem_sources.mpr ⟨record, member, index, named⟩
      exact List.mem_filterMap.mp (resolvable.sources source referred)
    · intro property member dialect mnemonic target parameter
      have referred := OperationDecl.mem_linkTargets.mpr
        ⟨property, member, isLink.mpr ⟨dialect, mnemonic⟩, parameter⟩
      exact List.mem_map.mp (resolvable.targets target referred)
  · intro connected
    refine ⟨?_, recordFault?_eq_none_iff.mpr connected.records, ?_, ?_⟩
    · intro name used
      exact List.mem_flatMap.mpr (connected.operands name used)
    · intro source referred
      obtain ⟨record, member, index, named⟩ := OperationDecl.mem_sources.mp referred
      exact List.mem_filterMap.mpr (connected.sources record member index source named)
    · intro target referred
      obtain ⟨property, member, link, parameter⟩ := OperationDecl.mem_linkTargets.mp referred
      obtain ⟨dialect, mnemonic⟩ := isLink.mp link
      exact List.mem_map.mpr (connected.links property member dialect mnemonic target parameter)

/-- Verification accepts exactly the consistent documents. -/
theorem verify_accepts_consistent (document : Instance) :
    document.verify = .ok () ↔ document.Consistent := by
  rw [verify_eq_ok_iff]
  constructor
  · intro verified
    exact ⟨verified.symbols, verified.values, fun declaration member =>
      resolvable_iff_connected.mp (verified.operations declaration member)⟩
  · intro consistent
    exact ⟨consistent.symbols, consistent.values, fun declaration member =>
      resolvable_iff_connected.mpr (consistent.operations declaration member)⟩

end Instance

end StaticScheduling
