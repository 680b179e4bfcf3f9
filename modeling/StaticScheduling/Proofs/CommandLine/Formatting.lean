import StaticScheduling.CommandLine.Command
import StaticScheduling.Proofs.Instance.Printability

/-! # Formatting a text twice

Whatever text holds a document, the document is printable, so its canonical text
holds it again.  Formatting therefore depends on the document alone: a text that
was formatted before is formatted like the text it was made from.
-/

namespace StaticScheduling

namespace Instance

/-- The canonical text of the document that a text holds. -/
def formatted (settings : ParserSettings) (indent : Nat) (source : String) :
    Except DocumentError String :=
  (ofText source settings).map fun document => document.text indent

theorem Printable.holds_text {settings : ParserSettings} {document : Instance}
    (printable : document.Printable settings.nestingLimit) (indent : Nat) :
    ofText (document.text indent) settings = .ok document :=
  ofText_eq_ok_iff.mpr ⟨parse_text printable indent settings.allowComments,
    checkAllRecords_of_printable printable⟩

/-- Formatting again forgets how the text was indented before. -/
theorem formatted_formatted (settings : ParserSettings) (source : String) (indent other : Nat) :
    (formatted settings other source >>= formatted settings indent) =
      formatted settings indent source := by
  unfold formatted
  cases holds : ofText source settings with
  | error error => rfl
  | ok document =>
    show (ofText (document.text other) settings).map _ = _
    rw [(printable_of_ofText holds).holds_text other]

end Instance

namespace Command

variable {path source : String} {document : Instance}

theorem readDocument_eq_ok_iff :
    readDocument path source = .ok document ↔
      Instance.ofText source ParserSettings.default = .ok document := by
  unfold readDocument
  split
  · rename_i read
    rw [read, Except.ok.injEq, Except.ok.injEq]
  · rename_i refused
    rw [refused]
    exact ⟨nofun, nofun⟩
  · rename_i refused
    rw [refused]
    exact ⟨nofun, nofun⟩

theorem readDocument_text (printable : document.Printable Nesting.defaultLimit) (indent : Nat) :
    readDocument path (document.text indent) = .ok document :=
  readDocument_eq_ok_iff.mpr (Instance.Printable.holds_text printable indent)

theorem evaluateFormat_evaluateFormat (path source : String) (indent other : Nat) :
    (evaluateFormat path source other >>= fun text => evaluateFormat path text indent) =
      evaluateFormat path source indent := by
  unfold evaluateFormat
  cases reads : readDocument path source with
  | error error => rfl
  | ok document =>
    have printable := Instance.printable_of_ofText (readDocument_eq_ok_iff.mp reads)
    simp only [ok_bind, readDocument_text printable other]

/-- Formatting preserves meaning and is stable.  A document that a text holds is printable, and its
canonical text, whatever the indentation, holds it again; so formatting a text that was formatted
before, by a parser of any settings or by the command, is formatting the text itself. -/
theorem formatting_stable (source : String) (settings : ParserSettings) :
    (∀ document, Instance.ofText source settings = .ok document →
      document.Printable settings.nestingLimit ∧
        ∀ indent, Instance.ofText (document.text indent) settings = .ok document) ∧
    (∀ indent other, (Instance.formatted settings other source >>=
        Instance.formatted settings indent) = Instance.formatted settings indent source) ∧
    ∀ path indent other,
      (evaluateFormat path source other >>= fun text => evaluateFormat path text indent) =
        evaluateFormat path source indent := by
  have preserved (document : Instance) (holds : Instance.ofText source settings = .ok document) :
      document.Printable settings.nestingLimit ∧
        ∀ indent, Instance.ofText (document.text indent) settings = .ok document := by
    have printable := Instance.printable_of_ofText holds
    exact ⟨printable, printable.holds_text⟩
  exact ⟨preserved, Instance.formatted_formatted settings source,
    fun path => evaluateFormat_evaluateFormat path source⟩

/-- A text that is far from canonical: a name in quotes that needs none, numbers with zeros in
front and a sign on zero, a line break between quotes, a comment, and brackets around nothing. -/
def careless : String :=
  "instance @\"a\" of \"Pro\nblem\"[]\x7b// none\n%0 = operation @\"b c\" (%0[]) " ++
    "[#x.y<007,-0>]\x7b\x7d\x7d"

/-- The text as it is formatted. -/
def careful : String :=
  "instance @a of \"Pro\\nblem\" [] \x7b\n %0 = operation @\"b c\"(%0 []) [#x.y<7, 0>]\n\x7d\n"

theorem formatting_stable_careless :
    ∃ document, Instance.ofText careless ⟨1, true⟩ = .ok document ∧ document.Printable 1 ∧
      Instance.ofText (document.text 3) ⟨1, true⟩ = .ok document ∧
      evaluateFormat "a.ssp" careless 1 = .ok careful ∧
      evaluateFormat "a.ssp" careful 1 = .ok careful := by
  cases holds : Instance.ofText careless ⟨1, true⟩ with
  | error error =>
    have succeeds : (Instance.ofText careless ⟨1, true⟩).isOk := by decide +kernel
    rw [holds] at succeeds
    cases succeeds
  | ok document =>
    obtain ⟨preserved, _, stable⟩ := formatting_stable careless ⟨1, true⟩
    obtain ⟨printable, again⟩ := preserved document holds
    have formats : evaluateFormat "a.ssp" careless 1 = .ok careful := by decide +kernel
    have twice := stable "a.ssp" 1 1
    rw [formats, ok_bind] at twice
    exact ⟨document, rfl, printable, again 3, formats, twice⟩

end Command

end StaticScheduling
