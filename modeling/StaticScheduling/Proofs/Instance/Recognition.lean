import Mathlib.Control.Monad.Basic
import StaticScheduling.Instance.Parser
import StaticScheduling.Proofs.Instance.Readers
import StaticScheduling.Proofs.Instance.RecordOrder
import StaticScheduling.Proofs.Success

/-! # Parsers recognize the grammar

Rule by rule, the reader of a phrase answers what the phrase says.  One token
decides each alternative, so what may not follow a phrase is said by a few marks.
In the end a parser accepts a text if and only if its tokens derive a document
whose properties nest no deeper than the limit.
-/

namespace StaticScheduling

open Phrase

open Reading

/-! ## Properties -/

theorem Property.Derives.exists_cons {kinds : List TokenKind} {property : Property}
    (derives : Property.Derives kinds property) :
    ∃ dialect mnemonic rest, kinds = .attribute dialect mnemonic :: rest := by
  cases derives with
  | plain dialect mnemonic => exact ⟨dialect, mnemonic, _, rfl⟩
  | applied dialect mnemonic inside => exact ⟨dialect, mnemonic, _, rfl⟩

theorem Property.Derives.startsWith_append {kinds : List TokenKind} {property : Property}
    (derives : Property.Derives kinds property) (mark : Delimiter) (rest : List TokenKind) :
    startsWith mark (kinds ++ rest) = false := by
  obtain ⟨dialect, mnemonic, more, rfl⟩ := derives.exists_cons
  simp

/-- Only a property inside a parameter may be too deep, or go on behind it. -/
theorem Parameter.reads {room : Nat} {nested : List TokenKind → Reading (Property × List TokenKind)}
    (reads : Reads Property.Derives (fun property => property.depth ≤ room) (Stops [.leftAngle])
      nested) :
    Reads Parameter.Derives (fun parameter => parameter.depth ≤ room) (Stops [.leftAngle])
      (Parameter.read nested) where
  sound := by
    intro kinds rest parameter succeeds
    unfold Parameter.read at succeeds
    split at succeeds
    · cases succeeds
      exact ⟨Nat.zero_le room, _, rfl, .integer _⟩
    · cases succeeds
      exact ⟨Nat.zero_le room, _, rfl, .symbol _⟩
    · cases succeeds
      exact ⟨Nat.zero_le room, _, rfl, .string _⟩
    · split at succeeds
      · cases succeeds
      · rename_i inner behind found
        cases succeeds
        obtain ⟨fits, taken, same, derives⟩ := reads.sound found
        exact ⟨fits, taken, same, .property derives⟩
    · cases succeeds
  complete := by
    intro taken parameter rest derives fits stops
    cases derives with
    | integer number => rfl
    | symbol name => rfl
    | string text => rfl
    | property derives =>
      have found := reads.complete rest derives fits stops
      obtain ⟨dialect, mnemonic, more, rfl⟩ := derives.exists_cons
      rw [List.cons_append] at found ⊢
      simp only [Parameter.read, found]

theorem Nesting.deeper?_eq_some_iff {nesting deeper : Nesting} :
    nesting.deeper? = some deeper ↔
      nesting.depth < nesting.limit ∧ deeper = ⟨nesting.limit, nesting.depth + 1⟩ := by
  simp [Nesting.deeper?, eq_comm]

/-- A property opens one level, and its parameters are read inside this level. -/
theorem Property.read_eq_ok_iff {nesting : Nesting} {kinds rest : List TokenKind}
    {property : Property} :
    Property.read nesting kinds = .ok (property, rest) ↔
      ∃ dialect mnemonic behind, kinds = .attribute dialect mnemonic :: behind ∧
        nesting.depth < nesting.limit ∧
        ((startsWith .leftAngle behind = false ∧ property = ⟨dialect, mnemonic, []⟩ ∧
            rest = behind) ∨
          ∃ inner parameters, behind = .delimiter .leftAngle :: inner ∧
            commas (Parameter.read (Property.read ⟨nesting.limit, nesting.depth + 1⟩)) inner =
              .ok (parameters, .delimiter .rightAngle :: rest) ∧
            property = ⟨dialect, mnemonic, parameters⟩) := by
  rw [Property.read.eq_def]
  constructor
  · intro succeeds
    split at succeeds
    · rename_i dialect mnemonic behind
      split at succeeds
      · cases succeeds
      · rename_i deeper opened
        obtain ⟨room, rfl⟩ := Nesting.deeper?_eq_some_iff.mp opened
        refine ⟨dialect, mnemonic, behind, rfl, room, ?_⟩
        split at succeeds
        · rename_i opens
          obtain ⟨inner, rfl⟩ := startsWith_eq_true_iff.mp opens
          split at succeeds
          · cases succeeds
          · rename_i parameters final found
            split at succeeds
            · cases succeeds
            · rename_i marked
              obtain rfl := mark_eq_ok_iff.mp marked
              cases succeeds
              exact .inr ⟨inner, parameters, rfl, found, rfl⟩
        · rename_i plain
          cases succeeds
          exact .inl ⟨Bool.eq_false_iff.mpr plain, rfl, rfl⟩
    · cases succeeds
  · rintro ⟨dialect, mnemonic, behind, rfl, room, branches⟩
    have opened := Nesting.deeper?_eq_some_iff.mpr ⟨room, rfl⟩
    simp only
    split
    · rename_i refused
      rw [opened] at refused
      cases refused
    · rename_i deeper found
      rw [opened] at found
      cases found
      rcases branches with ⟨plain, rfl, rfl⟩ | ⟨inner, parameters, rfl, found, rfl⟩
      · rw [if_neg (Bool.eq_false_iff.mp plain)]
      · have closed : mark .rightAngle (.delimiter .rightAngle :: rest) = .ok rest :=
          mark_eq_ok_iff.mpr rfl
        simp only [startsWith_cons, decide_true, if_true, List.tail_cons, found, closed]

/-- A property is read where the limit leaves room for it. -/
theorem Property.reads (nesting : Nesting) :
    Reads Property.Derives (fun property => property.depth ≤ nesting.limit - nesting.depth)
      (Stops [.leftAngle]) (Property.read nesting) := by
  -- brackets use up one level, so the induction is on the levels that are left
  have inside (room : nesting.depth < nesting.limit) :=
    (Parameter.reads (Property.reads ⟨nesting.limit, nesting.depth + 1⟩)).commas (by simp [Stops])
  constructor
  · intro kinds rest property succeeds
    obtain ⟨dialect, mnemonic, behind, rfl, room, branches⟩ :=
      Property.read_eq_ok_iff.mp succeeds
    rcases branches with ⟨_, rfl, rfl⟩ | ⟨inner, parameters, rfl, found, rfl⟩
    · refine ⟨?_, _, rfl, .plain dialect mnemonic⟩
      simp only [Property.depth, Parameter.listDepth]
      omega
    · obtain ⟨fits, taken, rfl, derives⟩ := (inside room).sound found
      have bound := Parameter.listDepth_le_iff.mpr fits
      refine ⟨?_, _, ?_, .applied dialect mnemonic derives⟩
      · simp only [Property.depth] at bound ⊢
        omega
      · simp
  · intro taken property rest derives fits stops
    rw [Property.read_eq_ok_iff]
    cases derives with
    | plain dialect mnemonic =>
      simp only [Property.depth] at fits
      exact ⟨dialect, mnemonic, rest, rfl, by omega, .inl ⟨stops _ (.head _), rfl, rfl⟩⟩
    | @applied dialect mnemonic inner parameters derives =>
      simp only [Property.depth] at fits
      have room : nesting.depth < nesting.limit := by omega
      have bound : Parameter.listDepth parameters ≤ nesting.limit - (nesting.depth + 1) := by omega
      have found := (inside room).complete (.delimiter .rightAngle :: rest) derives
        (Parameter.listDepth_le_iff.mp bound) (by simp [Stops])
      rw [List.cons_append, List.cons_append, List.append_assoc, List.singleton_append]
      exact ⟨dialect, mnemonic, _, rfl, room, .inr ⟨_, parameters, rfl, found, rfl⟩⟩
termination_by nesting.limit - nesting.depth

theorem Property.readsOptionalList (limit : Nat) :
    Reads Property.OptionalListDerives (Property.ListFits limit) (Stops [.leftBracket])
      (Property.readOptionalList limit) := by
  have listed := (Property.reads (Nesting.outermost limit)).commasUntil .rightBracket
    (by simp [Stops]) (by simp [Stops]) (by decide) fun derives => derives.startsWith_append _
  constructor
  · intro kinds rest properties succeeds
    unfold Property.readOptionalList at succeeds
    split at succeeds
    · rename_i opens
      obtain ⟨inner, rfl⟩ := startsWith_eq_true_iff.mp opens
      split at succeeds
      · cases succeeds
      · rename_i found
        cases succeeds
        obtain ⟨fits, taken, rfl, derives⟩ := listed.sound found
        exact ⟨fits, _, rfl, .present derives⟩
    · cases succeeds
      exact ⟨nofun, [], rfl, .absent⟩
  · intro taken properties rest derives fits stops
    unfold Property.readOptionalList
    cases derives with
    | absent =>
      rw [List.nil_append, stops _ (.head _)]
      rfl
    | present derives =>
      have found := listed.complete rest derives fits trivial
      simp only [List.cons_append, startsWith_cons, decide_true, if_true, List.tail_cons, found]

/-! ## Operand lists and dictionaries -/

theorem Entry.reads (limit : Nat) :
    Reads Entry.Derives (fun entry => Property.ListFits limit entry.properties)
      (Stops [.leftBracket]) (Entry.read limit) where
  sound := by
    intro kinds rest entry succeeds
    unfold Entry.read at succeeds
    split at succeeds
    · split at succeeds
      · cases succeeds
      · rename_i found
        cases succeeds
        obtain ⟨fits, taken, rfl, derives⟩ := (Property.readsOptionalList limit).sound found
        exact ⟨fits, _, rfl, .value _ derives⟩
    · split at succeeds
      · cases succeeds
      · rename_i found
        cases succeeds
        obtain ⟨fits, taken, rfl, derives⟩ := (Property.readsOptionalList limit).sound found
        exact ⟨fits, _, rfl, .symbol _ derives⟩
    · cases succeeds
  complete := by
    intro taken entry rest derives fits stops
    cases derives with
    | value name behind =>
      have found := (Property.readsOptionalList limit).complete rest behind fits stops
      simp only [List.cons_append, Entry.read, found]
    | symbol name behind =>
      have found := (Property.readsOptionalList limit).complete rest behind fits stops
      simp only [List.cons_append, Entry.read, found]

theorem Entry.Derives.startsWith_append {kinds : List TokenKind} {entry : Entry}
    (derives : Entry.Derives kinds entry) (mark : Delimiter) (rest : List TokenKind) :
    startsWith mark (kinds ++ rest) = false := by
  cases derives <;> simp

theorem Entry.readsList (limit : Nat) :
    Reads (Listed Entry.Derives .rightParen)
      (fun entries => ∀ entry ∈ entries, Property.ListFits limit entry.properties)
      (fun _ => True) (commasUntil (Entry.read limit) .rightParen) :=
  (Entry.reads limit).commasUntil .rightParen (by simp [Stops]) (by simp [Stops]) (by decide)
    fun derives => derives.startsWith_append _

/-- Operands without a property list have no record, and then there is nothing to nest. -/
theorem Entry.forall_records_iff {holds : Option (List Property) → Prop} (absent : holds none)
    {entries : List Entry} {number : Nat} :
    (∀ record ∈ Entry.records number entries, holds record.properties) ↔
      ∀ entry ∈ entries, holds entry.properties := by
  induction entries generalizing number with
  | nil => exact ⟨fun _ => nofun, fun _ => nofun⟩
  | cons entry entries inductionHypothesis =>
    rw [List.forall_mem_cons, ← @inductionHypothesis (number + 1)]
    match entry with
    | .value name none => exact ⟨fun others => ⟨absent, others⟩, fun both => both.2⟩
    | .value name (some properties) => exact List.forall_mem_cons
    | .symbol name properties => exact List.forall_mem_cons

namespace DictionaryEntry

theorem Names.ne_delimiter {key : TokenKind} {name : String} (names : Names key name)
    (mark : Delimiter) : key ≠ .delimiter mark := by
  cases names <;> nofun

theorem Names.read_cons {key : TokenKind} {name : String} (names : Names key name) (limit : Nat)
    (rest : List TokenKind) :
    DictionaryEntry.read limit (key :: rest) = DictionaryEntry.readValue limit name rest := by
  cases names <;> rfl

theorem exists_names_of_read {limit : Nat} {kinds : List TokenKind}
    {answer : DictionaryEntry × List TokenKind}
    (succeeds : DictionaryEntry.read limit kinds = .ok answer) :
    ∃ key name rest, kinds = key :: rest ∧ Names key name ∧
      DictionaryEntry.readValue limit name rest = .ok answer := by
  unfold DictionaryEntry.read at succeeds
  split at succeeds
  · exact ⟨_, _, _, rfl, .identifier _, succeeds⟩
  · exact ⟨_, _, _, rfl, .keyword _, succeeds⟩
  · cases succeeds

theorem reads (limit : Nat) :
    Reads Derives (DictionaryEntry.Fits limit) (Stops [.equals, .leftAngle])
      (DictionaryEntry.read limit) := by
  have values := Parameter.reads (Property.reads (Nesting.outermost limit))
  constructor
  · intro kinds rest entry succeeds
    obtain ⟨key, name, behind, rfl, names, succeeds⟩ := exists_names_of_read succeeds
    unfold DictionaryEntry.readValue at succeeds
    split at succeeds
    · rename_i opens
      obtain ⟨inner, rfl⟩ := startsWith_eq_true_iff.mp opens
      split at succeeds
      · cases succeeds
      · rename_i value final found
        cases succeeds
        obtain ⟨fits, taken, rfl, derives⟩ := values.sound found
        refine ⟨?_, _, rfl, .bound names derives⟩
        rintro _ ⟨⟩
        exact fits
    · cases succeeds
      exact ⟨nofun, [key], rfl, .bare names⟩
  · intro taken entry rest derives fits stops
    cases derives with
    | bare names =>
      rw [List.singleton_append, names.read_cons, DictionaryEntry.readValue, stops _ (.head _)]
      rfl
    | bound names derives =>
      have behind : Stops [.leftAngle] rest := fun mark member => stops mark (.tail _ member)
      have found := values.complete rest derives (fits _ rfl) behind
      simp only [List.cons_append, names.read_cons, DictionaryEntry.readValue, startsWith_cons,
        decide_true, if_true, List.tail_cons, found]

theorem Derives.startsWith_append {kinds : List TokenKind} {entry : DictionaryEntry}
    (derives : DictionaryEntry.Derives kinds entry) (mark : Delimiter) (rest : List TokenKind) :
    startsWith mark (kinds ++ rest) = false := by
  cases derives with
  | bare names => simp [names.ne_delimiter]
  | bound names derives => simp [names.ne_delimiter]

theorem readsOptionalList (limit : Nat) :
    Reads OptionalListDerives (fun entries => ∀ entry ∈ entries, DictionaryEntry.Fits limit entry)
      (Stops [.leftBrace]) (DictionaryEntry.readOptionalList limit) := by
  have listed := (reads limit).commasUntil .rightBrace (by simp [Stops]) (by simp [Stops])
    (by decide) fun derives => derives.startsWith_append _
  constructor
  · intro kinds rest entries succeeds
    unfold DictionaryEntry.readOptionalList at succeeds
    split at succeeds
    · rename_i opens
      obtain ⟨inner, rfl⟩ := startsWith_eq_true_iff.mp opens
      obtain ⟨fits, taken, rfl, derives⟩ := listed.sound succeeds
      exact ⟨fits, _, rfl, .present derives⟩
    · cases succeeds
      exact ⟨nofun, [], rfl, .absent⟩
  · intro taken entries rest derives fits stops
    unfold DictionaryEntry.readOptionalList
    cases derives with
    | absent =>
      rw [List.nil_append, stops _ (.head _)]
      rfl
    | present derives =>
      simp only [List.cons_append, startsWith_cons, decide_true, if_true, List.tail_cons]
      exact listed.complete rest derives fits trivial

end DictionaryEntry

/-! ## Declarations -/

theorem OperatorTypeDecl.reads (limit : Nat) :
    Reads OperatorTypeDecl.Derives
      (fun declaration => Property.ListFits limit declaration.properties) (Stops [.leftBracket])
      (OperatorTypeDecl.read limit) where
  sound := by
    intro kinds rest declaration succeeds
    simp only [OperatorTypeDecl.read, bind_eq_ok_iff, word_eq_ok_iff, Prod.exists,
      symbol_eq_ok_iff, Except.ok.injEq, Prod.mk.injEq] at succeeds
    obtain ⟨_, rfl, name, _, rfl, properties, _, found, rfl, rfl⟩ := succeeds
    obtain ⟨fits, taken, rfl, derives⟩ := (Property.readsOptionalList limit).sound found
    exact ⟨fits, _, rfl, .declared name derives⟩
  complete := by
    rintro _ _ rest ⟨name, derives⟩ fits stops
    have found := (Property.readsOptionalList limit).complete rest derives fits stops
    simp only [OperatorTypeDecl.read, bind_eq_ok_iff, word_eq_ok_iff, Prod.exists,
      symbol_eq_ok_iff]
    exact ⟨_, rfl, name, _, rfl, _, _, found, rfl⟩

namespace OperationDecl

theorem readsResult : Reads ResultDerives (fun _ => True) (fun _ => True) value where
  sound {kinds rest name} succeeds := ⟨trivial, _, value_eq_ok_iff.mp succeeds, .value name⟩
  complete := by
    rintro _ _ rest ⟨name⟩ _ _
    exact value_eq_ok_iff.mpr rfl

theorem readsResults :
    Reads ResultsDerive (fun _ => True) (fun rest => ∃ more, rest = .keyword .operationWord :: more)
      readResults := by
  have separated := readsResult.commas fun _ => trivial
  constructor
  · intro kinds rest results succeeds
    unfold readResults at succeeds
    split at succeeds
    · simp only [bind_eq_ok_iff, Prod.exists, mark_eq_ok_iff, Except.ok.injEq,
        Prod.mk.injEq] at succeeds
      obtain ⟨_, _, found, _, rfl, rfl, rfl⟩ := succeeds
      obtain ⟨_, taken, same, derives⟩ := separated.sound found
      refine ⟨trivial, taken ++ [.delimiter .equals], ?_, .present derives⟩
      rw [same, List.append_assoc, List.singleton_append]
    · cases succeeds
      exact ⟨trivial, [], rfl, .absent⟩
  · rintro taken results _ derives _ ⟨more, rfl⟩
    cases derives with
    | absent => rfl
    | @present kinds results derives =>
      have found := separated.complete (.delimiter .equals :: .keyword .operationWord :: more) derives
        (fun _ _ => trivial) ⟨trivial, by simp⟩
      obtain ⟨_, _, behind, ⟨name⟩, rfl⟩ := derives.exists_append
      rw [List.singleton_append, List.append_assoc, List.singleton_append]
      rw [List.singleton_append] at found
      rw [List.cons_append] at found ⊢
      simp only [readResults, bind_eq_ok_iff, Prod.exists, mark_eq_ok_iff]
      exact ⟨_, _, found, _, rfl, rfl⟩

theorem nameDerives_readName (kinds : List TokenKind) :
    ∃ taken, kinds = taken ++ (readName kinds).2 ∧ NameDerives taken (readName kinds).1 := by
  unfold readName
  split
  · exact ⟨_, rfl, .present _⟩
  · exact ⟨[], rfl, .absent⟩

theorem NameDerives.readName {kinds : List TokenKind} {name : Option String}
    (derives : NameDerives kinds name) (rest : List TokenKind) :
    readName (kinds ++ .delimiter .leftParen :: rest) = (name, .delimiter .leftParen :: rest) := by
  cases derives <;> rfl

theorem reads (limit : Nat) :
    Reads Derives (Fits limit) (Stops [.leftBracket, .leftBrace]) (OperationDecl.read limit) where
  sound := by
    intro kinds rest operation succeeds
    simp only [OperationDecl.read, bind_eq_ok_iff, Prod.exists, word_eq_ok_iff, mark_eq_ok_iff,
      Except.ok.injEq, Prod.mk.injEq] at succeeds
    obtain ⟨results, _, foundResults, behindWord, rfl, behindName, named, entries, _, foundEntries,
      properties, _, foundProperties, dictionary, _, foundDictionary, rfl, rfl⟩ := succeeds
    obtain ⟨_, resultKinds, rfl, defined⟩ := readsResults.sound foundResults
    obtain ⟨nameKinds, same, name⟩ := nameDerives_readName behindWord
    rw [named] at same
    subst same
    obtain ⟨entriesFit, entryKinds, rfl, listed⟩ := (Entry.readsList limit).sound foundEntries
    obtain ⟨propertiesFit, propertyKinds, rfl, behind⟩ :=
      (Property.readsOptionalList limit).sound foundProperties
    obtain ⟨dictionaryFits, dictionaryKinds, rfl, last⟩ :=
      (DictionaryEntry.readsOptionalList limit).sound foundDictionary
    refine ⟨⟨?_, propertiesFit, dictionaryFits⟩, _, ?_, .declared defined name listed behind last⟩
    · exact (Entry.forall_records_iff (Property.listFits_none limit)).mpr entriesFit
    · simp only [List.append_assoc, List.cons_append]
  complete := by
    intro taken operation rest derives fits stops
    cases derives with
    | @declared resultKinds nameKinds entryKinds propertyKinds dictionaryKinds _ _ _ _ _
        defined named listed behind last =>
      -- from the back to the front: each part is read before what the parts behind it start with
      have foundDictionary := (DictionaryEntry.readsOptionalList limit).complete rest last
        fits.dictionary fun mark member => stops mark (.tail _ member)
      have endsProperties : Stops [.leftBracket] (dictionaryKinds ++ rest) := by
        cases last with
        | absent => exact fun mark member => stops mark (by simp_all)
        | present => simp [Stops]
      have foundProperties := (Property.readsOptionalList limit).complete (dictionaryKinds ++ rest)
        behind fits.properties endsProperties
      have foundEntries := (Entry.readsList limit).complete
        (propertyKinds ++ (dictionaryKinds ++ rest)) listed
        ((Entry.forall_records_iff (Property.listFits_none limit)).mp fits.records) trivial
      have foundName := named.readName (entryKinds ++ (propertyKinds ++ (dictionaryKinds ++ rest)))
      have foundResults := readsResults.complete
        (.keyword .operationWord :: (nameKinds ++ .delimiter .leftParen ::
          (entryKinds ++ (propertyKinds ++ (dictionaryKinds ++ rest))))) defined trivial ⟨_, rfl⟩
      simp only [List.append_assoc, List.cons_append]
      simp only [OperationDecl.read, bind_eq_ok_iff, Prod.exists, word_eq_ok_iff, mark_eq_ok_iff]
      exact ⟨_, _, foundResults, _, rfl, _, congrArg Prod.snd foundName, _, _, foundEntries, _, _,
        foundProperties, _, _, foundDictionary, by rw [foundName]⟩

end OperationDecl

namespace Instance

theorem readClose_eq_ok_iff {kinds : List TokenKind} :
    readClose kinds = .ok () ↔ kinds = [.delimiter .rightBrace] := by
  unfold readClose
  split
  · rename_i rest
    by_cases last : rest = []
    · simp [last]
    · simp [last, expected]
  · simp
  · rename_i other _
    simp only [expected, reduceCtorEq, false_iff]
    intro closes
    exact other [] closes

theorem readProblemName_eq_ok_iff {kinds rest : List TokenKind} {problem : String} :
    readProblemName kinds = .ok (problem, rest) ↔ kinds = .string problem :: rest := by
  cases kinds with
  | nil => simp [readProblemName, expected]
  | cons kind tail => cases kind <;> simp [readProblemName, expected]

theorem readsOperatorTypes (limit : Nat) :
    Reads (Repeated OperatorTypeDecl.Derives)
      (fun declarations => ∀ declaration ∈ declarations,
        Property.ListFits limit declaration.properties)
      (fun rest => Stops [.leftBracket] rest ∧ rest.head?.any startsOperatorType = false)
      (many startsOperatorType (OperatorTypeDecl.read limit)) := by
  refine (OperatorTypeDecl.reads limit).many ?_ ?_
  · rintro _ _ ⟨name, behind⟩
    exact ⟨_, _, rfl, rfl⟩
  · intro kind more starts
    simp_all [startsOperatorType, Stops]

theorem exists_startsOperation {kinds : List TokenKind} {operation : OperationDecl}
    (derives : OperationDecl.Derives kinds operation) :
    ∃ kind more, kinds = kind :: more ∧ startsOperation kind := by
  obtain ⟨defined, _, _, _, _⟩ := derives
  cases defined with
  | absent => exact ⟨_, _, rfl, rfl⟩
  | present separated =>
    obtain ⟨_, _, behind, ⟨name⟩, rfl⟩ := separated.exists_append
    exact ⟨_, _, rfl, rfl⟩

theorem ne_delimiter_of_startsOperation {kind : TokenKind} (starts : startsOperation kind)
    (mark : Delimiter) : kind ≠ .delimiter mark := by
  rintro rfl
  cases starts

theorem readsOperations (limit : Nat) :
    Reads (Repeated OperationDecl.Derives) (fun operations => ∀ operation ∈ operations,
        OperationDecl.Fits limit operation)
      (fun rest => Stops [.leftBracket, .leftBrace] rest ∧
        rest.head?.any startsOperation = false)
      (many startsOperation (OperationDecl.read limit)) := by
  refine (OperationDecl.reads limit).many exists_startsOperation ?_
  intro kind more starts mark _
  simpa using ne_delimiter_of_startsOperation starts mark

/-- Reads a document up to its closing brace. -/
def readBody (limit : Nat) (kinds : List TokenKind) : Reading (Instance × List TokenKind) := do
  let rest ← word .instanceWord kinds
  let (name, rest) ← symbol .instanceName rest
  let rest ← word .ofWord rest
  let (problem, rest) ← readProblemName rest
  let (properties, rest) ← Property.readOptionalList limit rest
  let rest ← mark .leftBrace rest
  let (operatorTypes, rest) ← many startsOperatorType (OperatorTypeDecl.read limit) rest
  let (operations, rest) ← many startsOperation (OperationDecl.read limit) rest
  .ok (⟨name, problem, properties, operatorTypes, operations⟩, rest)

theorem read_eq_readBody (limit : Nat) (kinds : List TokenKind) :
    Instance.read limit kinds = readBody limit kinds >>= fun answer =>
      readClose answer.2 >>= fun _ => .ok answer.1 := by
  simp only [Instance.read, readBody, bind_assoc, ok_bind]

/-- Nothing stands behind the closing brace. -/
theorem Derives.exists_append_rightBrace {kinds : List TokenKind} {document : Instance}
    (derives : Derives kinds document) : ∃ taken, kinds = taken ++ [.delimiter .rightBrace] := by
  cases derives with
  | @document name problem propertyKinds typeKinds operationKinds _ _ _ _ _ _ =>
    exact ⟨.keyword .instanceWord :: .symbol name :: .keyword .ofWord :: .string problem ::
      (propertyKinds ++ .delimiter .leftBrace :: (typeKinds ++ operationKinds)), by simp⟩

/-- What is read up to the closing brace is a document with this brace behind it. -/
theorem readBody_sound {limit : Nat} {kinds rest : List TokenKind} {document : Instance}
    (succeeds : readBody limit kinds = .ok (document, rest)) :
    document.Fits limit ∧ ∃ taken, kinds = taken ++ rest ∧
      Derives (taken ++ [.delimiter .rightBrace]) document := by
  simp only [readBody, bind_eq_ok_iff, Prod.exists, word_eq_ok_iff, symbol_eq_ok_iff,
    mark_eq_ok_iff, readProblemName_eq_ok_iff, Except.ok.injEq, Prod.mk.injEq] at succeeds
  obtain ⟨_, rfl, name, _, rfl, _, rfl, problem, _, rfl, properties, _, foundProperties, _, rfl,
    operatorTypes, _, foundTypes, operations, _, foundOperations, rfl, rfl⟩ := succeeds
  obtain ⟨propertiesFit, propertyKinds, rfl, behind⟩ :=
    (Property.readsOptionalList limit).sound foundProperties
  obtain ⟨typesFit, typeKinds, rfl, types⟩ := (readsOperatorTypes limit).sound foundTypes
  obtain ⟨operationsFit, operationKinds, rfl, more⟩ :=
    (readsOperations limit).sound foundOperations
  refine ⟨⟨propertiesFit, typesFit, operationsFit⟩,
    .keyword .instanceWord :: .symbol name :: .keyword .ofWord :: .string problem ::
      (propertyKinds ++ .delimiter .leftBrace :: (typeKinds ++ operationKinds)), by simp, ?_⟩
  simpa using Derives.document name problem behind types more

/-- A document is read up to its closing brace before all that no declaration could go on with. -/
theorem readBody_complete {limit : Nat} {taken : List TokenKind} {document : Instance}
    (derives : Derives (taken ++ [.delimiter .rightBrace]) document) (fits : document.Fits limit)
    {rest : List TokenKind} (stops : Stops [.leftBracket, .leftBrace] rest)
    (noOperation : rest.head?.any startsOperation = false)
    (noType : document.operations = [] → rest.head?.any startsOperatorType = false) :
    readBody limit (taken ++ rest) = .ok (document, rest) := by
  generalize whole : taken ++ [.delimiter .rightBrace] = kinds at derives
  cases derives with
  | @document name problem propertyKinds typeKinds operationKinds _ _ operations behind types more =>
    have split : taken = .keyword .instanceWord :: .symbol name :: .keyword .ofWord ::
        .string problem :: (propertyKinds ++ .delimiter .leftBrace ::
          (typeKinds ++ operationKinds)) := by
      refine List.append_cancel_right (whole.trans ?_)
      simp
    have foundOperations := (readsOperations limit).complete rest more fits.operations
      ⟨stops, noOperation⟩
    -- behind the operator types an operation comes, or what is behind all declarations
    have endsTypes : Stops [.leftBracket] (operationKinds ++ rest) ∧
        (operationKinds ++ rest).head?.any startsOperatorType = false := by
      cases more with
      | nil => exact ⟨fun mark member => stops mark (by simp_all), noType rfl⟩
      | cons first others =>
        obtain ⟨kind, tail, rfl, starts⟩ := exists_startsOperation first
        refine ⟨fun mark _ => by simpa using ne_delimiter_of_startsOperation starts mark, ?_⟩
        cases kind <;> simp_all [startsOperation, startsOperatorType]
    have foundTypes := (readsOperatorTypes limit).complete _ types fits.operatorTypes endsTypes
    have foundProperties := (Property.readsOptionalList limit).complete
      (.delimiter .leftBrace :: (typeKinds ++ (operationKinds ++ rest))) behind fits.properties
      (by simp [Stops])
    rw [split]
    simp only [List.append_assoc, List.cons_append, readBody, bind_eq_ok_iff, Prod.exists,
      word_eq_ok_iff, symbol_eq_ok_iff, mark_eq_ok_iff, readProblemName_eq_ok_iff]
    exact ⟨_, rfl, name, _, rfl, _, rfl, problem, _, rfl, _, _, foundProperties, _, rfl, _, _,
      foundTypes, _, _, foundOperations, rfl⟩

/-- What is read is what a document says that nests no deeper than the limit. -/
theorem read_eq_ok_iff {limit : Nat} {kinds : List TokenKind} {document : Instance} :
    Instance.read limit kinds = .ok document ↔
      Derives kinds document ∧ document.Fits limit := by
  simp only [read_eq_readBody, bind_eq_ok_iff, Prod.exists, exists_unit, readClose_eq_ok_iff,
    Except.ok.injEq]
  constructor
  · rintro ⟨_, _, succeeds, rfl, rfl⟩
    obtain ⟨fits, taken, rfl, derives⟩ := readBody_sound succeeds
    exact ⟨derives, fits⟩
  · rintro ⟨derives, fits⟩
    obtain ⟨taken, rfl⟩ := derives.exists_append_rightBrace
    exact ⟨_, _, readBody_complete derives fits (by simp [Stops]) rfl fun _ => rfl, rfl, rfl⟩

/-- The grammar is unambiguous: a reader that allows for all the nesting finds what is said. -/
theorem Derives.unique {kinds : List TokenKind} {first second : Instance}
    (firstDerives : Derives kinds first) (secondDerives : Derives kinds second) :
    first = second := by
  have firstRead := read_eq_ok_iff.mpr
    ⟨firstDerives, depth_le_iff.mp (Nat.le_max_left first.depth second.depth)⟩
  have secondRead := read_eq_ok_iff.mpr
    ⟨secondDerives, depth_le_iff.mp (Nat.le_max_right first.depth second.depth)⟩
  rw [firstRead] at secondRead
  exact Except.ok.inj secondRead

end Instance

/-! ## Parsers -/

namespace TokenStream

theorem tokens_withoutComments {stream remaining : TokenStream} {allowComments : Bool}
    (dropped : stream.withoutComments allowComments = .ok remaining) :
    remaining.tokens = stream.tokens.filter fun token => !token.kind.isComment := by
  unfold withoutComments at dropped
  split at dropped
  · cases dropped
  · cases dropped
    rfl

theorem kinds_withoutComments {stream remaining : TokenStream} {allowComments : Bool}
    (dropped : stream.withoutComments allowComments = .ok remaining) :
    remaining.kinds = stream.kinds.filter fun kind => !kind.isComment := by
  rw [kinds, kinds, tokens_withoutComments dropped, List.filter_map]
  rfl

theorem exists_withoutComments (stream : TokenStream) :
    ∃ remaining, stream.withoutComments true = .ok remaining := by
  have none : (stream.tokens.find? fun token => token.kind.isComment && !true) = none := by
    rw [List.find?_eq_none]
    simp
  exact ⟨_, by rw [withoutComments, none]⟩

end TokenStream

namespace InstanceParser

/-- What a parser answers, apart from where it is left. -/
theorem parse_eq_ok_iff {parser : InstanceParser} {source : String} {document : Instance} :
    (parser.parse source).1 = .ok document ↔
      ∃ stream, loadTokens parser.settings source = .ok stream ∧
        Instance.read parser.settings.nestingLimit stream.kinds = .ok document := by
  unfold parse
  cases loadTokens parser.settings source with
  | error error => exact ⟨nofun, nofun⟩
  | ok stream =>
    simp only [Except.ok.injEq, exists_eq_left']
    cases Instance.read parser.settings.nestingLimit stream.kinds with
    | error failure => exact ⟨nofun, nofun⟩
    | ok read => simp only [Except.ok.injEq]

/-- A parser that allows comments accepts exactly the texts whose tokens, without the comments,
derive a document in which nothing nests deeper than the limit.  There is one such document at
most. -/
theorem parse_recognizes {parser : InstanceParser} (comments : parser.settings.allowComments = true)
    {source : String} {stream : TokenStream} (lexes : TokenStream.ofText source = .ok stream) :
    (∀ document, (parser.parse source).1 = .ok document ↔
      Instance.Derives (stream.kinds.filter fun kind => !kind.isComment) document ∧
        document.Fits parser.settings.nestingLimit) ∧
    ∀ kinds first second, Instance.Derives kinds first → Instance.Derives kinds second →
      first = second := by
  refine ⟨fun document => ?_, fun _ _ _ => Instance.Derives.unique⟩
  obtain ⟨remaining, dropped⟩ := stream.exists_withoutComments
  have loads : loadTokens parser.settings source = .ok remaining := by
    rw [loadTokens, comments, lexes, ok_bind, dropped]
  rw [parse_eq_ok_iff, loads, ← TokenStream.kinds_withoutComments dropped]
  simp only [Except.ok.injEq, exists_eq_left', Instance.read_eq_ok_iff]

/-- A text with a comment, a property in a property, a key that is a reserved word, and lists that
are empty. -/
def nestedText : String :=
  "instance @n of \"Problem\" [] \x7b // none\n%0, %1 = operation @\"of\"(%1 [], @a [#a.b<#c.d, 1>])" ++
    " \x7bof, k = -0\x7d operation () \x7b\x7d\x7d"

/-- The document in the text. -/
def nested : Instance where
  name := "n"
  problem := "Problem"
  properties := some []
  operatorTypes := []
  operations := [
    ⟨["0", "1"], some "of", ["1"], [⟨.operand 0, some []⟩,
        ⟨.named 1 "a", some [⟨"a", "b", [.property ⟨"c", "d", []⟩, .integer 1]⟩]⟩], none,
      [⟨"of", none⟩, ⟨"k", some (.integer 0)⟩]⟩,
    ⟨[], none, [], [], none, []⟩]

/-- The text is accepted where two levels are allowed, and the document is all it can be read as. -/
theorem parse_recognizes_nested :
    ∃ stream, TokenStream.ofText nestedText = .ok stream ∧
      (∀ limit document, ((ofSettings ⟨limit, true⟩).parse nestedText).1 = .ok document ↔
        document = nested ∧ 2 ≤ limit) := by
  have accepted : ((ofSettings ⟨2, true⟩).parse nestedText).1 = .ok nested := by decide +kernel
  cases lexes : TokenStream.ofText nestedText with
  | error error =>
    have succeeds : (TokenStream.ofText nestedText).isOk := by decide +kernel
    rw [lexes] at succeeds
    cases succeeds
  | ok stream =>
    refine ⟨stream, rfl, fun limit document => ?_⟩
    obtain ⟨recognizes, unique⟩ :=
      parse_recognizes (Eq.refl (ofSettings ⟨limit, true⟩).settings.allowComments) lexes
    obtain ⟨derives, _⟩ := ((parse_recognizes
      (Eq.refl (ofSettings ⟨2, true⟩).settings.allowComments) lexes).1 nested).mp accepted
    have depth : nested.depth = 2 := by decide
    rw [recognizes document, ← Instance.depth_le_iff]
    constructor
    · rintro ⟨other, fits⟩
      obtain rfl := unique _ _ _ other derives
      exact ⟨rfl, depth ▸ fits⟩
    · rintro ⟨rfl, room⟩
      exact ⟨derives, depth ▸ room⟩

end InstanceParser

end StaticScheduling
