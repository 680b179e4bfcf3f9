import StaticScheduling.Proofs.CommandLine.Formatting
import StaticScheduling.Proofs.Saving.NormalForm
import StaticScheduling.Proofs.Saving.Resaving

/-! # Loading and saving a text twice

The text that loading and saving answers is read back as the document that was
saved.  It describes the problem that was loaded before, and its operations have
the names they were saved under, so loading and saving it once more changes
nothing.
-/

namespace StaticScheduling

namespace Command

variable {path source : String} {document saved : Instance} {kinds : ProblemKinds}
  {problem : Problem}

/-! ## Reading -/

theorem kindsOf_eq_ok_iff :
    kindsOf document = .ok kinds ↔ ProblemKinds.ofProblemName? document.problem = some kinds := by
  unfold kindsOf
  cases ProblemKinds.ofProblemName? document.problem with
  | some known => simp
  | none => simp

/-- A document is loaded if it can be read, passes verification and is loadable. -/
theorem loadDocument_eq_ok_iff :
    loadDocument path source = .ok (document, kinds, problem) ↔
      readDocument path source = .ok document ∧ document.Verified ∧
        ProblemKinds.ofProblemName? document.problem = some kinds ∧ document.Loadable kinds ∧
        problem = document.meaning := by
  simp only [loadDocument, bind_eq_ok_iff, exists_unit, mapError_eq_ok_iff,
    Instance.verify_eq_ok_iff, kindsOf_eq_ok_iff]
  -- the kinds of a problem name are built in, so loading has its characterisation
  constructor
  · rintro ⟨_, read, verified, _, known, _, loads, same⟩
    cases same
    have builtIn := ProblemKinds.builtIn_of_ofProblemName? known
    obtain ⟨loadable, same⟩ := (Instance.load_eq_ok_iff document builtIn).mp loads
    exact ⟨read, verified, known, loadable, same⟩
  · rintro ⟨read, verified, known, loadable, same⟩
    have builtIn := ProblemKinds.builtIn_of_ofProblemName? known
    have loads := (Instance.load_eq_ok_iff document builtIn).mpr ⟨loadable, same⟩
    exact ⟨document, read, verified, kinds, known, problem, loads, rfl⟩

/-! ## Saving -/

/-- The names that operations are to have when a document is saved again. -/
def suppliedNames (stripNames : Bool) (document : Instance) : OperationId → Option String :=
  if stripNames then fun _ => none else originalNames document

theorem resave_eq_ok_iff {stripNames : Bool} {stem : String} :
    resave path source stripNames stem = .ok saved ↔
      ∃ document kinds problem, loadDocument path source = .ok (document, kinds, problem) ∧
        problem.save document.name document.problem (suppliedNames stripNames document) kinds stem =
          .ok saved := by
  simp only [resave, bind_eq_ok_iff, mapError_eq_ok_iff]
  constructor
  · rintro ⟨⟨document, kinds, problem⟩, loads, saves⟩
    exact ⟨document, kinds, problem, loads, saves⟩
  · rintro ⟨document, kinds, problem, loads, saves⟩
    exact ⟨⟨document, kinds, problem⟩, loads, saves⟩

/-! ## Once more -/

/-- What is saved from a loaded problem is read as this problem again, and its operations have the
names they were given. -/
theorem loadDocument_saved {stripNames : Bool} {stem : String}
    (loads : loadDocument path source = .ok (document, kinds, problem))
    (saves : problem.save document.name document.problem (suppliedNames stripNames document) kinds
      stem = .ok saved) (indent : Nat) :
    loadDocument path (saved.text indent) = .ok (saved, kinds, problem) ∧
      saved.name = document.name ∧ saved.problem = document.problem ∧
      suppliedNames stripNames saved = suppliedNames stripNames document := by
  obtain ⟨_, verified, known, loadable, rfl⟩ := loadDocument_eq_ok_iff.mp loads
  have builtIn := ProblemKinds.builtIn_of_ofProblemName? known
  have wellFormed := loadable.wellFormed_meaning
  obtain ⟨names, built, rfl⟩ := (Problem.save_eq_ok_iff wellFormed).mp saves
  have named := NameTable.names_of_build wellFormed built
  have printable : (Problem.document document.meaning kinds names document.name
      document.problem).Printable Nesting.defaultLimit :=
    Problem.printable_document builtIn (by decide)
  -- links of a verified document are to operator types that the problem knows
  have passes : (Problem.document document.meaning kinds names document.name
      document.problem).Verified :=
    (Problem.verified_document_iff builtIn wellFormed named).mpr
      fun _ _ _ linked => verified.hasOperatorType_of_link linked
  have again : (Problem.document document.meaning kinds names document.name
      document.problem).Loadable kinds := Problem.loadable_document wellFormed named builtIn
  refine ⟨?_, rfl, rfl, ?_⟩
  · exact loadDocument_eq_ok_iff.mpr ⟨readDocument_text printable indent, passes, known, again,
      (loadable.meaning_document builtIn named).symm⟩
  · cases stripNames with
    -- names that are stripped are made up again, all others are kept
    | true => rfl
    | false =>
      funext operation
      show (Problem.document document.meaning kinds names document.name
        document.problem).nameOf? operation = document.nameOf? operation
      rw [Problem.nameOf?_document named, Instance.get?_names named]

/-- Loading and saving a text is idempotent: the text it answers is answered again, passes
verification, and describes a problem that is as ready for scheduling as the one loaded first. -/
theorem evaluateRoundtrip_idempotent {source text : String} {options : RoundtripOptions}
    (asText : options.emission = .text)
    (succeeds : evaluateRoundtrip source options = .ok text) :
    evaluateRoundtrip text options = .ok text ∧
      ∃ document kinds problem saved reloaded,
        loadDocument options.input source = .ok (document, kinds, problem) ∧
        loadDocument options.input text = .ok (saved, kinds, reloaded) ∧
        saved.verify = .ok () ∧ reloaded.check = problem.check ∧
        reloaded.operations.length = problem.operations.length ∧
        reloaded.allDependences.length = problem.allDependences.length := by
  obtain ⟨saved, resaved, emitted⟩ := bind_eq_ok_iff.mp succeeds
  obtain ⟨document, kinds, problem, loads, saves⟩ := resave_eq_ok_iff.mp resaved
  have written : text = saved.text Instance.defaultIndent := by
    rw [asText] at emitted
    cases emitted
    rfl
  obtain ⟨loadsAgain, sameName, sameProblem, sameNames⟩ :=
    loadDocument_saved loads saves Instance.defaultIndent
  rw [← written] at loadsAgain
  -- the second round saves the same problem under the same names
  have savesAgain : problem.save saved.name saved.problem (suppliedNames options.stripNames saved)
      kinds options.stem = .ok saved := by
    rw [sameName, sameProblem, sameNames]
    exact saves
  constructor
  · exact bind_eq_ok_iff.mpr
      ⟨saved, resave_eq_ok_iff.mpr ⟨saved, kinds, problem, loadsAgain, savesAgain⟩, emitted⟩
  · have verified := (loadDocument_eq_ok_iff.mp loadsAgain).2.1
    exact ⟨document, kinds, problem, saved, problem, loads, loadsAgain,
      Instance.verify_eq_ok_iff.mpr verified, rfl, rfl, rfl⟩

/-- A text with a comment, a value with a name of its own, a name that needs quotes, and a property
that is given twice. -/
def handwritten : String :=
  "// by hand\ninstance @a of \"Problem\" [] \x7b%b = operation (%b [], @\"1\") " ++
    "operation @\"1\" () [#ssp.start_time<2>, #ssp.start_time<1>] \x7bk\x7d\x7d"

/-- Operations lose their names. -/
def stripping : RoundtripOptions := ⟨"a.ssp", .text, none, true, "unit"⟩

/-- The text as it is written without names. -/
def stripped : String :=
  "instance @a of \"Problem\" \x7b\n  %0 = operation(%0, @unit0)\n" ++
    "  operation @unit0() [#ssp.start_time<1>]\n\x7d\n"

theorem evaluateRoundtrip_idempotent_handwritten :
    stripping.emission = .text ∧ evaluateRoundtrip handwritten stripping = .ok stripped ∧
      evaluateRoundtrip stripped stripping = .ok stripped ∧
      ∃ document kinds problem saved reloaded,
        loadDocument stripping.input handwritten = .ok (document, kinds, problem) ∧
        loadDocument stripping.input stripped = .ok (saved, kinds, reloaded) ∧
        saved.verify = .ok () ∧ reloaded.check = problem.check ∧
        reloaded.operations.length = problem.operations.length ∧
        reloaded.allDependences.length = problem.allDependences.length := by
  have succeeds : evaluateRoundtrip handwritten stripping = .ok stripped := by decide +kernel
  exact ⟨rfl, succeeds, evaluateRoundtrip_idempotent rfl succeeds⟩

end Command

end StaticScheduling
