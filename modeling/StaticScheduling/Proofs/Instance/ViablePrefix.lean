import StaticScheduling.Proofs.Instance.Lookahead

/-! # What was read can be completed

Where a reader fails, the kinds before the one that the failure is about start a
phrase that fits, unless there are none.  A property that nests too deep starts a
phrase all the same, only one that does not fit.  A phrase that something starts
is completed to the phrase around it by what is missing behind it.
-/

namespace StaticScheduling

open Phrase

/-- A kind of token that can be written and is not dropped. -/
def TokenKind.Plain (kind : TokenKind) : Prop := kind.Writable ∧ kind.isComment = false

instance (kind : TokenKind) : Decidable kind.Plain := inferInstanceAs (Decidable (_ ∧ _))

/-- Kinds that start a phrase which fits, and which plain kinds complete. -/
def Viable {α : Type} (phrase : Phrase α) (fits : α → Prop) (before : List TokenKind) : Prop :=
  ∃ more value, phrase (before ++ more) value ∧ fits value ∧ ∀ kind ∈ more, kind.Plain

/-- What behind `front` is a phrase starts the phrase around it, and one that fits if it fits. -/
structure Embeds {α β : Type} (inner : Phrase α) (innerFits : α → Prop) (outer : Phrase β)
    (outerFits : β → Prop) (front : List TokenKind) : Prop where
  derivable : ∀ {kinds value}, inner kinds value → Viable outer (fun _ => True) (front ++ kinds)
  viable : ∀ {kinds value}, inner kinds value → innerFits value →
    Viable outer outerFits (front ++ kinds)

/-- A failure of a reader of phrases, and the kinds on both sides of where it is. -/
structure StuckAt {α : Type} (phrase : Phrase α) (fits : α → Prop) (failure : SyntaxFailure)
    (before behind : List TokenKind) : Prop where
  about : failure.About behind
  viable : before ≠ [] → Viable phrase fits before
  tooDeep : failure.fault.isTooDeep → ∃ dialect mnemonic rest,
    behind = .attribute dialect mnemonic :: rest ∧
      Viable phrase (fun _ => True) (before ++ [.attribute dialect mnemonic])

/-- Wherever a reader fails, it fails at what cannot go on a phrase that was started. -/
structure Reports {α : Type} (phrase : Phrase α) (fits : α → Prop)
    (read : List TokenKind → Reading (α × List TokenKind)) : Prop where
  stuck : ∀ {kinds failure}, read kinds = .error failure →
    ∃ before behind, kinds = before ++ behind ∧ StuckAt phrase fits failure before behind

section Embedding

variable {α β : Type} {inner : Phrase α} {innerFits : α → Prop} {outer : Phrase β}
  {outerFits : β → Prop} {front before behind more : List TokenKind} {failure : SyntaxFailure}

/-- What may be missing at the end may also be there. -/
theorem Viable.of_append (viable : Viable outer outerFits (before ++ more))
    (plain : ∀ kind ∈ more, kind.Plain) : Viable outer outerFits before := by
  obtain ⟨rest, value, derives, fits, plainRest⟩ := viable
  rw [List.append_assoc] at derives
  exact ⟨more ++ rest, value, derives, fits, List.forall_mem_append.mpr ⟨plain, plainRest⟩⟩

theorem Viable.derivable (viable : Viable outer outerFits before) :
    Viable outer (fun _ => True) before := by
  obtain ⟨more, value, derives, _, plain⟩ := viable
  exact ⟨more, value, derives, trivial, plain⟩

theorem Viable.embed (embeds : Embeds inner innerFits outer outerFits front)
    (viable : Viable inner innerFits before) : Viable outer outerFits (front ++ before) := by
  obtain ⟨more, value, derives, fits, plain⟩ := viable
  have whole := embeds.viable derives fits
  rw [← List.append_assoc] at whole
  exact whole.of_append plain

/-- A part that always has the same behind it. -/
theorem Embeds.closed (tail : List TokenKind) (plain : ∀ kind ∈ tail, kind.Plain)
    (whole : ∀ {kinds value}, inner kinds value →
      ∃ around, outer (front ++ kinds ++ tail) around ∧ (innerFits value → outerFits around)) :
    Embeds inner innerFits outer outerFits front where
  derivable derives := by
    obtain ⟨around, derivesAround, _⟩ := whole derives
    exact ⟨tail, around, derivesAround, trivial, plain⟩
  viable derives fits := by
    obtain ⟨around, derivesAround, fitsAround⟩ := whole derives
    exact ⟨tail, around, derivesAround, fitsAround fits, plain⟩

/-- A part that nothing is missing behind. -/
theorem Embeds.last (whole : ∀ {kinds value}, inner kinds value →
    ∃ around, outer (front ++ kinds) around ∧ (innerFits value → outerFits around)) :
    Embeds inner innerFits outer outerFits front :=
  .closed [] (List.forall_mem_nil _) fun derives => by
    rw [List.append_nil]
    exact whole derives

theorem Embeds.unlimited (embeds : Embeds inner innerFits outer outerFits front) :
    Embeds inner (fun _ => True) outer (fun _ => True) front where
  derivable := embeds.derivable
  viable derives _ := embeds.derivable derives

/-- A reader is stuck where the reader of a part is, if all that is before this part can be
completed. -/
theorem StuckAt.embed (stuck : StuckAt inner innerFits failure before behind)
    (embeds : Embeds inner innerFits outer outerFits front)
    (completed : front ≠ [] → Viable outer outerFits front) :
    StuckAt outer outerFits failure (front ++ before) behind where
  about := stuck.about
  viable nonempty := by
    by_cases start : before = []
    · rw [start, List.append_nil] at nonempty ⊢
      exact completed nonempty
    · exact (stuck.viable start).embed embeds
  tooDeep deep := by
    obtain ⟨dialect, mnemonic, rest, rfl, viable⟩ := stuck.tooDeep deep
    refine ⟨dialect, mnemonic, rest, rfl, ?_⟩
    rw [List.append_assoc]
    exact viable.embed embeds.unlimited

theorem StuckAt.unexpected {expectation : Expectation}
    (viable : before ≠ [] → Viable outer outerFits before) :
    StuckAt outer outerFits ⟨.unexpected expectation, behind⟩ before behind where
  about := .unexpected expectation behind
  viable := viable
  tooDeep deep := absurd deep Bool.false_ne_true

end Embedding

namespace Reading

/-! ## Lists -/

theorem mark_eq_error {wanted : Delimiter} {kinds : List TokenKind} {failure : SyntaxFailure}
    (fails : mark wanted kinds = .error failure) :
    failure = ⟨.unexpected (.delimiter wanted), kinds⟩ := by
  unfold mark expected at fails
  grind

section Items

variable {α : Type} {item : Phrase α} {fits : α → Prop} {ends : List TokenKind → Prop}
  {read : List TokenKind → Reading (α × List TokenKind)}

theorem embeds_last :
    Embeds item fits (Separated item) (fun values => ∀ value ∈ values, fits value) [] :=
  .last fun derives => ⟨_, .last derives, List.forall_mem_singleton.mpr⟩

/-- Behind a comma an item like the last one may come. -/
theorem reports_commas (reads : Reads item fits ends read) (reports : Reports item fits read)
    (anew : ∀ value, fits value → Viable item fits []) :
    Reports (Separated item) (fun values => ∀ value ∈ values, fits value) (commas read) := by
  constructor
  intro kinds failure fails
  fun_induction Reading.commas read kinds with
  | case1 kinds failure failed =>
    cases fails
    obtain ⟨before, behind, rfl, stuck⟩ := reports.stuck failed
    exact ⟨before, behind, rfl, stuck.embed embeds_last (absurd rfl)⟩
  | case2 kinds first rest found shorter failure failed inductionHypothesis =>
    cases fails
    obtain ⟨fitsFirst, taken, rfl, derives⟩ := reads.sound found
    obtain ⟨before, behind, rfl, stuck⟩ := inductionHypothesis failed
    have embeds : Embeds (Separated item) (fun values => ∀ value ∈ values, fits value)
        (Separated item) (fun values => ∀ value ∈ values, fits value)
        (taken ++ [.delimiter .comma]) := by
      refine .last fun {kinds values} others => ⟨first :: values, ?_, fun fitsMore =>
        List.forall_mem_cons.mpr ⟨fitsFirst, fitsMore⟩⟩
      simpa using Separated.more derives others
    refine ⟨taken ++ [.delimiter .comma] ++ before, behind, by simp, stuck.embed embeds fun _ => ?_⟩
    have next : Viable (Separated item) (fun values => ∀ value ∈ values, fits value) [] :=
      (anew first fitsFirst).embed embeds_last
    simpa using next.embed embeds
  | case3 kinds first behind found shorter more final there _ => cases fails
  | case4 kinds first behind found longer => cases fails
  | case5 kinds first behind stops found => cases fails

/-- Up to a mark there may be nothing. -/
theorem viable_listed (close : Delimiter) :
    Viable (Listed item close) (fun values => ∀ value ∈ values, fits value) [] :=
  ⟨[.delimiter close], [], .empty, List.forall_mem_nil _,
    List.forall_mem_singleton.mpr ⟨trivial, rfl⟩⟩

theorem reports_commasUntil (reads : Reads item fits ends read) (reports : Reports item fits read)
    (anew : ∀ value, fits value → Viable item fits []) (close : Delimiter)
    (comma : ∀ more, ends (.delimiter .comma :: more)) :
    Reports (Listed item close) (fun values => ∀ value ∈ values, fits value)
      (commasUntil read close) := by
  have closes : ∀ kind ∈ [TokenKind.delimiter close], kind.Plain :=
    List.forall_mem_singleton.mpr ⟨trivial, rfl⟩
  constructor
  intro kinds failure fails
  unfold Reading.commasUntil at fails
  split at fails
  · cases fails
  · split at fails
    · rename_i failed
      cases fails
      obtain ⟨before, behind, rfl, stuck⟩ := (reports_commas reads reports anew).stuck failed
      exact ⟨before, behind, rfl, stuck.embed
        (.closed _ closes fun separated => ⟨_, .items separated, id⟩) (absurd rfl)⟩
    · rename_i values rest found
      obtain ⟨fitsAll, taken, rfl, separated⟩ := (reads.commas comma).sound found
      split at fails
      · rename_i failed
        cases fails
        rw [mark_eq_error failed]
        exact ⟨taken, rest, rfl, .unexpected fun _ => ⟨_, _, .items separated, fitsAll, closes⟩⟩
      · cases fails

theorem viable_repeated :
    Viable (Repeated item) (fun values => ∀ value ∈ values, fits value) [] :=
  ⟨[], [], .nil, List.forall_mem_nil _, List.forall_mem_nil _⟩

theorem reports_many (reads : Reads item fits ends read) (reports : Reports item fits read)
    (starts : TokenKind → Bool) :
    Reports (Repeated item) (fun values => ∀ value ∈ values, fits value) (many starts read) := by
  constructor
  intro kinds failure fails
  fun_induction Reading.many starts read kinds with
  | case1 kinds starting failure failed =>
    cases fails
    obtain ⟨before, behind, rfl, stuck⟩ := reports.stuck failed
    refine ⟨before, behind, rfl, stuck.embed (.last fun {kinds value} derives => ⟨[value], ?_,
      List.forall_mem_singleton.mpr⟩) (absurd rfl)⟩
    simpa using Repeated.cons derives .nil
  | case2 kinds starting first rest found shorter failure failed inductionHypothesis =>
    cases fails
    obtain ⟨fitsFirst, taken, rfl, derives⟩ := reads.sound found
    obtain ⟨before, behind, rfl, stuck⟩ := inductionHypothesis failed
    have embeds : Embeds (Repeated item) (fun values => ∀ value ∈ values, fits value)
        (Repeated item) (fun values => ∀ value ∈ values, fits value) taken :=
      .last fun others => ⟨_, .cons derives others, fun fitsMore =>
        List.forall_mem_cons.mpr ⟨fitsFirst, fitsMore⟩⟩
    refine ⟨taken ++ before, behind, (List.append_assoc ..).symm, stuck.embed embeds fun _ => ?_⟩
    simpa using viable_repeated.embed embeds
  | case3 kinds starting first behind found shorter more final there _ => cases fails
  | case4 kinds starting first behind found longer => cases fails
  | case5 kinds stopped => cases fails

end Items

/-! ## Readers behind what was read -/

/-- Behind `front`, of which nothing nests too deep if `fit`, a reader fails at what cannot go on
the phrase around what it reads. -/
structure Continues {α β : Type} (phrase : Phrase α) (fits : α → Prop) (front : List TokenKind)
    (fit : Prop) (read : List TokenKind → Reading (β × List TokenKind)) : Prop where
  derivable : Viable phrase (fun _ => True) front
  viable : fit → Viable phrase fits front
  stuck : ∀ {kinds failure}, fit → read kinds = .error failure →
    ∃ before behind, kinds = before ++ behind ∧ StuckAt phrase fits failure (front ++ before) behind

namespace Continues

variable {α β γ : Type} {phrase : Phrase α} {fits : α → Prop} {front : List TokenKind} {fit : Prop}
  {read otherwise : List TokenKind → Reading (β × List TokenKind)}

theorem reports {read : List TokenKind → Reading (α × List TokenKind)}
    (continues : Continues phrase fits [] True read) : Reports phrase fits read :=
  ⟨fun fails => continues.stuck trivial fails⟩

/-- Nothing fails any more where only `tail` is missing. -/
theorem closed {kinds tail : List TokenKind} {answer : β} {value : α} (derives : phrase kinds value)
    (shape : kinds = front ++ tail) (plain : ∀ kind ∈ tail, kind.Plain)
    (fitsWhole : fit → fits value) :
    Continues phrase fits front fit (answering answer) where
  derivable := ⟨tail, value, shape ▸ derives, trivial, plain⟩
  viable fitting := ⟨tail, value, shape ▸ derives, fitsWhole fitting, plain⟩
  stuck _ fails := by cases fails

theorem done {kinds : List TokenKind} {answer : β} {value : α} (derives : phrase kinds value)
    (shape : kinds = front) (fitsWhole : fit → fits value) :
    Continues phrase fits front fit (answering answer) :=
  .closed derives (shape.trans (List.append_nil front).symm) (List.forall_mem_nil _) fitsWhole

theorem expected (expectation : Expectation) (derivable : Viable phrase (fun _ => True) front)
    (viable : fit → Viable phrase fits front) :
    Continues phrase fits front fit (Reading.expected (α := β × List TokenKind) expectation) where
  derivable := derivable
  viable := viable
  stuck {kinds _} fitting := by
    rintro ⟨⟩
    refine ⟨[], kinds, rfl, .unexpected fun _ => ?_⟩
    rw [List.append_nil]
    exact viable fitting

/-- What comes next decides how a reader goes on where it is. -/
theorem choosing {Choice : Type} {choose : TokenKind → Option Choice}
    {chosen : Choice → List TokenKind → Reading (β × List TokenKind)}
    (each : ∀ choice, Continues phrase fits front fit (chosen choice))
    (neither : Continues phrase fits front fit otherwise) :
    Continues phrase fits front fit (Reading.choosing choose chosen otherwise) where
  derivable := neither.derivable
  viable := neither.viable
  stuck {kinds failure} fitting fails := by
    unfold Reading.choosing at fails
    cases found : kinds.head?.bind choose with
    | none =>
      rw [found] at fails
      exact neither.stuck fitting fails
    | some choice =>
      rw [found] at fails
      exact (each choice).stuck fitting fails

/-- What comes next decides how a reader goes on behind it. -/
theorem taking {Choice : Type} {choose : TokenKind → Option Choice}
    {chosen : Choice → List TokenKind → Reading (β × List TokenKind)}
    (each : ∀ {kind choice}, choose kind = some choice →
      Continues phrase fits (front ++ [kind]) fit (chosen choice))
    (neither : Continues phrase fits front fit otherwise) :
    Continues phrase fits front fit (Reading.taking choose chosen otherwise) where
  derivable := neither.derivable
  viable := neither.viable
  stuck {kinds failure} fitting fails := by
    unfold Reading.taking Reading.choosing at fails
    cases found : kinds.head?.bind choose with
    | none =>
      rw [found] at fails
      exact neither.stuck fitting fails
    | some choice =>
      rw [found] at fails
      obtain ⟨kind, head, chooses⟩ := Option.bind_eq_some_iff.mp found
      obtain ⟨rest, rfl⟩ := List.head?_eq_some_iff.mp head
      obtain ⟨before, behind, rfl, stuck⟩ := (each chooses).stuck fitting fails
      exact ⟨kind :: before, behind, rfl, by simpa using stuck⟩

/-- A reader of a part is stuck where it is stuck in the phrase around it. -/
theorem part {inner : Phrase γ} {innerFits : γ → Prop} {ends : List TokenKind → Prop}
    {first : List TokenKind → Reading (γ × List TokenKind)}
    {next : γ → List TokenKind → Reading (β × List TokenKind)}
    (reads : Reads inner innerFits ends first) (reports : Reports inner innerFits first)
    (opened : Viable inner innerFits [])
    (behind : ∀ {taken value}, inner taken value →
      Continues phrase fits (front ++ taken) (fit ∧ innerFits value) (next value)) :
    Continues phrase fits front fit (andThen first next) := by
  have embeds (fitting : fit) : Embeds inner innerFits phrase fits front :=
    ⟨fun derives => (behind derives).derivable, fun derives fits =>
      (behind derives).viable ⟨fitting, fits⟩⟩
  have viable (fitting : fit) : Viable phrase fits front := by
    simpa using opened.embed (embeds fitting)
  refine ⟨?_, viable, fun {kinds failure} fitting fails => ?_⟩
  · obtain ⟨more, value, derives, _, plain⟩ := opened
    exact (behind derives).derivable.of_append plain
  · rcases bind_eq_error_iff.mp fails with failed | ⟨⟨value, rest⟩, found, failed⟩
    · obtain ⟨before, behind, rfl, stuck⟩ := reports.stuck failed
      exact ⟨before, behind, rfl, stuck.embed (embeds fitting) fun _ => viable fitting⟩
    · obtain ⟨fitsPart, taken, rfl, derives⟩ := reads.sound found
      obtain ⟨before, after, rfl, stuck⟩ := (behind derives).stuck ⟨fitting, fitsPart⟩ failed
      rw [List.append_assoc] at stuck
      exact ⟨taken ++ before, after, (List.append_assoc ..).symm, stuck⟩

/-! ### Single tokens -/

/-- A token that must come may always come. -/
theorem token {wanted : TokenKind} (plain : wanted.Plain) (expectation : Expectation)
    (behind : Continues phrase fits (front ++ [wanted]) fit read) :
    Continues phrase fits front fit
      (Reading.taking (only wanted) (fun _ => read) (Reading.expected expectation)) := by
  have alone : ∀ kind ∈ [wanted], kind.Plain := List.forall_mem_singleton.mpr plain
  refine .taking (fun {kind _} here => ?_) (.expected _ (behind.derivable.of_append alone)
    fun fitting => (behind.viable fitting).of_append alone)
  obtain rfl := only_eq_some_iff.mp here
  exact behind

theorem mark (wanted : Delimiter)
    (behind : Continues phrase fits (front ++ [.delimiter wanted]) fit read) :
    Continues phrase fits front fit (past (Reading.mark wanted) read) := by
  have plain : (TokenKind.delimiter wanted).Plain := ⟨trivial, rfl⟩
  rw [past_mark_eq_taking]
  exact .token plain _ behind

theorem word (wanted : Keyword)
    (behind : Continues phrase fits (front ++ [.keyword wanted]) fit read) :
    Continues phrase fits front fit (past (Reading.word wanted) read) := by
  have plain : (TokenKind.keyword wanted).Plain := ⟨trivial, rfl⟩
  rw [past_word_eq_taking]
  exact .token plain _ behind

theorem optional (wanted : Delimiter)
    (behind : Continues phrase fits (front ++ [.delimiter wanted]) fit read)
    (neither : Continues phrase fits front fit otherwise) :
    Continues phrase fits front fit (Reading.optional wanted read otherwise) := by
  refine .taking (fun {kind _} here => ?_) neither
  obtain rfl := only_eq_some_iff.mp here
  exact behind

/-- Where a token carries something, one that can be written may always come. -/
theorem carrying {carried : TokenKind → Option γ} {kind : TokenKind} {value : γ}
    (plain : kind.Plain) (carries : carried kind = some value) (expectation : Expectation)
    {next : γ → List TokenKind → Reading (β × List TokenKind)}
    (behind : ∀ {kind value}, carried kind = some value →
      Continues phrase fits (front ++ [kind]) fit (next value)) :
    Continues phrase fits front fit (andThen (Reading.carrying carried expectation) next) := by
  have same : andThen (Reading.carrying carried expectation) next =
      Reading.taking carried next (Reading.expected expectation) := by
    funext kinds
    unfold andThen Reading.carrying Reading.taking Reading.choosing
    cases kinds.head?.bind carried <;> rfl
  have alone : ∀ kind' ∈ [kind], kind'.Plain := List.forall_mem_singleton.mpr plain
  rw [same]
  exact .taking behind (.expected _ ((behind carries).derivable.of_append alone)
    fun fitting => ((behind carries).viable fitting).of_append alone)

theorem symbol (expectation : Expectation)
    {next : String → List TokenKind → Reading (β × List TokenKind)}
    (behind : ∀ name, Continues phrase fits (front ++ [.symbol name]) fit (next name)) :
    Continues phrase fits front fit (andThen (Reading.symbol expectation) next) := by
  have plain : (TokenKind.symbol "a").Plain := by decide
  have carries : (TokenKind.symbol "a").symbol? = some "a" := rfl
  rw [symbol_eq_carrying]
  refine .carrying plain carries expectation fun {kind name} carries => ?_
  obtain rfl := TokenKind.symbol?_eq_some_iff.mp carries
  exact behind name

end Continues

end Reading

open Reading

/-! ## Properties -/

theorem Parameter.reports {room : Nat}
    {nested : List TokenKind → Reading (Property × List TokenKind)}
    (reports : Reports Property.Derives (fun property => property.depth ≤ room) nested) :
    Reports Parameter.Derives (fun parameter => parameter.depth ≤ room) (Parameter.read nested) := by
  constructor
  intro kinds failure fails
  unfold Parameter.read at fails
  split at fails
  · cases fails
  · cases fails
  · cases fails
  · split at fails
    · rename_i failed
      cases fails
      obtain ⟨before, behind, same, stuck⟩ := reports.stuck failed
      exact ⟨before, behind, same,
        stuck.embed (.last fun derives => ⟨_, .property derives, id⟩) (absurd rfl)⟩
    · cases fails
  · cases fails
    exact ⟨[], _, rfl, .unexpected (absurd rfl)⟩

theorem Parameter.viable (room : Nat) :
    Viable Parameter.Derives (fun parameter => parameter.depth ≤ room) [] :=
  ⟨[.integer 0], .integer 0, .integer 0, Nat.zero_le room, by decide⟩

theorem Property.depth_pos (property : Property) : 0 < property.depth := by
  cases property
  exact Nat.succ_pos _

theorem Property.viable {room : Nat} (inside : 0 < room) :
    Viable Property.Derives (fun property => property.depth ≤ room) [] :=
  ⟨[.attribute "a" "b"], _, .plain "a" "b", inside, by decide⟩

/-- Behind its name a property may be complete, or its parameters come. -/
theorem Property.continuesInside {limit depth : Nat} (room : depth < limit)
    (reports : Reports Property.Derives (fun property => property.depth ≤ limit - (depth + 1))
      (Property.read ⟨limit, depth + 1⟩)) (dialect mnemonic : String) :
    Continues Property.Derives (fun property => property.depth ≤ limit - depth)
      [.attribute dialect mnemonic] True
      (readInside limit depth (Property.mk dialect mnemonic)) := by
  have parameters := Parameter.reads (Property.reads ⟨limit, depth + 1⟩)
  have reportsParameters := reports_commas parameters (Parameter.reports reports)
    fun _ _ => Parameter.viable _
  have first := (Parameter.viable (limit - (depth + 1))).embed embeds_last
  have fitsInside {parameters : List Parameter}
      (fits : ∀ parameter ∈ parameters, parameter.depth ≤ limit - (depth + 1)) :
      (Property.mk dialect mnemonic parameters).depth ≤ limit - depth := by
    have bound := Parameter.listDepth_le_iff.mpr fits
    simp only [Property.depth]
    omega
  exact .optional .leftAngle
    (.part (parameters.commas (by simp [Stops])) reportsParameters first fun separated =>
      .mark .rightAngle <| .done (.applied dialect mnemonic separated) (by simp)
        fun fits => fitsInside fits.2)
    (.done (.plain dialect mnemonic) rfl fun _ => fitsInside (List.forall_mem_nil _))

theorem Property.reports (limit depth : Nat) :
    Reports Property.Derives (fun property => property.depth ≤ limit - depth)
      (Property.read ⟨limit, depth⟩) := by
  constructor
  intro kinds failure fails
  rcases kinds with _ | ⟨kind, rest⟩
  · rw [read_eq] at fails
    cases fails
    exact ⟨[], [], rfl, .unexpected (absurd rfl)⟩
  cases kind <;>
    try (rw [read_eq] at fails; cases fails; exact ⟨[], _, rfl, .unexpected (absurd rfl)⟩)
  rename_i dialect mnemonic
  rw [read_attribute] at fails
  split at fails
  · rename_i room
    obtain ⟨before, behind, rfl, stuck⟩ :=
      (continuesInside room (reports limit (depth + 1)) dialect mnemonic).stuck trivial fails
    exact ⟨_ :: before, behind, rfl, stuck⟩
  · -- no property has room here, but its name is where one may be
    cases fails
    refine ⟨[], _, rfl, .nestingTooDeep limit _ rest, absurd rfl, fun _ =>
      ⟨dialect, mnemonic, rest, rfl, ?_⟩⟩
    exact ⟨[], _, .plain dialect mnemonic, trivial, List.forall_mem_nil _⟩
termination_by limit - depth

theorem Property.reportsOptionalList (limit : Nat) :
    Reports Property.OptionalListDerives (Property.ListFits limit)
      (Property.readOptionalList limit) := by
  -- one property that fits is deep enough for another one of no parameters
  have anew (property : Property) (fits : property.depth ≤ limit - 0) :
      Viable Property.Derives (fun property => property.depth ≤ limit - 0) [] :=
    Property.viable (Nat.lt_of_lt_of_le property.depth_pos fits)
  have reads := (Property.reads ⟨limit, 0⟩).commasUntil .rightBracket (by simp [Stops])
    (by simp [Stops]) (by decide) fun derives => derives.startsWith_append _
  have reports := reports_commasUntil (Property.reads ⟨limit, 0⟩) (Property.reports limit 0) anew
    .rightBracket (by simp [Stops])
  rw [readOptionalList_eq]
  exact Continues.reports <| .optional .leftBracket
    (.part reads reports (viable_listed _) fun listed =>
      .done (.present listed) rfl fun fits => fits.2)
    (.done .absent rfl fun _ => Property.listFits_none limit)

theorem Property.viableOptionalList (limit : Nat) :
    Viable Property.OptionalListDerives (Property.ListFits limit) [] :=
  ⟨[], none, .absent, Property.listFits_none limit, List.forall_mem_nil _⟩

/-! ## Operand lists and dictionaries -/

theorem Entry.viable (limit : Nat) :
    Viable Entry.Derives (fun entry => Property.ListFits limit entry.properties) [] :=
  ⟨[.symbol "a"], _, .symbol "a" .absent, Property.listFits_none limit, by decide⟩

theorem Entry.reports (limit : Nat) :
    Reports Entry.Derives (fun entry => Property.ListFits limit entry.properties)
      (Entry.read limit) := by
  have viable := Entry.viable limit
  rw [read_eq]
  refine Continues.reports <| .taking (fun {kind make} found => ?_)
    (.expected _ viable.derivable fun _ => viable)
  have list := Property.reportsOptionalList limit
  cases kind with
  | value name =>
    cases found
    exact .part (Property.readsOptionalList limit) list (Property.viableOptionalList limit)
      fun behind => .done (.value name behind) rfl fun fits => fits.2
  | symbol name =>
    cases found
    exact .part (Property.readsOptionalList limit) list (Property.viableOptionalList limit)
      fun behind => .done (.symbol name behind) rfl fun fits => fits.2
  | _ => cases found

theorem Entry.reportsList (limit : Nat) :
    Reports (Listed Entry.Derives .rightParen)
      (fun entries => ∀ entry ∈ entries, Property.ListFits limit entry.properties)
      (commasUntil (Entry.read limit) .rightParen) :=
  reports_commasUntil (Entry.reads limit) (Entry.reports limit) (fun _ _ => Entry.viable limit)
    .rightParen (by simp [Stops])

namespace DictionaryEntry

theorem viable (limit : Nat) : Viable Derives (DictionaryEntry.Fits limit) [] :=
  ⟨[.identifier "a"], _, .bare (.identifier "a"), by simp [Fits], by decide⟩

theorem reports (limit : Nat) :
    Reports Derives (DictionaryEntry.Fits limit) (DictionaryEntry.read limit) := by
  have viable := viable limit
  have parameters := Parameter.reads (Property.reads (Nesting.outermost limit))
  have reports := Parameter.reports (Property.reports limit 0)
  rw [read_eq]
  refine Continues.reports <| .taking (fun {key name} found => ?_)
    (.expected _ viable.derivable fun _ => viable)
  have names := names_of_key? found
  have fitsBare : Fits limit ⟨name, none⟩ := by simp [Fits]
  have fitsBound {value : Parameter} (fits : value.depth ≤ limit - 0) :
      Fits limit ⟨name, some value⟩ := by
    rintro _ ⟨⟩
    exact fits
  rw [readValue_eq]
  exact .optional .equals
    (.part parameters reports (Parameter.viable _) fun derives =>
      .done (.bound names derives) rfl fun fits => fitsBound fits.2)
    (.done (.bare names) rfl fun _ => fitsBare)

theorem reportsOptionalList (limit : Nat) :
    Reports OptionalListDerives (fun entries => ∀ entry ∈ entries, DictionaryEntry.Fits limit entry)
      (DictionaryEntry.readOptionalList limit) := by
  have reads := (reads limit).commasUntil .rightBrace (by simp [Stops]) (by simp [Stops])
    (by decide) fun derives => derives.startsWith_append _
  have reports := reports_commasUntil (DictionaryEntry.reads limit) (reports limit)
    (fun _ _ => viable limit) .rightBrace (by simp [Stops])
  rw [readOptionalList_eq]
  exact Continues.reports <| .optional .leftBrace
    (.part reads reports (viable_listed _) fun listed =>
      .done (.present listed) rfl fun fits => fits.2)
    (.done .absent rfl fun _ => List.forall_mem_nil _)

theorem viableOptionalList (limit : Nat) : Viable OptionalListDerives
    (fun entries => ∀ entry ∈ entries, DictionaryEntry.Fits limit entry) [] :=
  ⟨[], [], .absent, List.forall_mem_nil _, List.forall_mem_nil _⟩

end DictionaryEntry

/-! ## Declarations -/

theorem OperatorTypeDecl.reports (limit : Nat) :
    Reports OperatorTypeDecl.Derives
      (fun declaration => Property.ListFits limit declaration.properties)
      (OperatorTypeDecl.read limit) := by
  rw [read_eq]
  exact Continues.reports <| .word .operatorTypeWord <| .symbol .operatorTypeName fun name =>
    .part (Property.readsOptionalList limit) (Property.reportsOptionalList limit)
      (Property.viableOptionalList limit) fun behind =>
        .done (.declared name behind) rfl fun fits => fits.2

namespace OperationDecl

theorem viableResult : Viable ResultDerives (fun _ => True) [] :=
  ⟨[.value "a"], "a", .value "a", trivial, by decide⟩

theorem reportsResult : Reports ResultDerives (fun _ => True) value := by
  rw [value_eq_carrying]
  refine Continues.reports <| .taking (fun {kind name} carries => ?_)
    (.expected _ viableResult.derivable fun _ => viableResult)
  obtain rfl := TokenKind.value?_eq_some_iff.mp carries
  exact .done (.value name) rfl fun _ => trivial

theorem reportsResults : Reports ResultsDerive (fun _ => True) readResults := by
  have results := reports_commas readsResult reportsResult fun _ _ => viableResult
  rw [readResults_eq]
  exact Continues.reports <| .choosing
    (fun _ => .part (readsResult.commas fun _ => trivial) results (viableResult.embed embeds_last)
      fun separated => .mark .equals <| .done (.present separated) rfl fun _ => trivial)
    (.done .absent rfl fun _ => trivial)

theorem viableResults : Viable ResultsDerive (fun _ => True) [] :=
  ⟨[], [], .absent, trivial, List.forall_mem_nil _⟩

theorem readsName : Reads NameDerives (fun _ => True)
    (fun rest => ∃ more, rest = .delimiter .leftParen :: more)
    (fun kinds => .ok (readName kinds)) where
  sound {kinds rest value} succeeds := by
    obtain ⟨taken, split, named⟩ := nameDerives_readName kinds
    rw [Except.ok.inj succeeds] at split named
    exact ⟨trivial, taken, split, named⟩
  complete rest derives _ := by
    rintro ⟨more, rfl⟩
    rw [derives.readName]

theorem reportsName : Reports NameDerives (fun _ => True) (fun kinds => .ok (readName kinds)) :=
  ⟨fun fails => by cases fails⟩

theorem viableName : Viable NameDerives (fun _ => True) [] :=
  ⟨[], none, .absent, trivial, List.forall_mem_nil _⟩

theorem fits_of_parts {limit : Nat} {results : List String} {name : Option String}
    {entries : List Entry} {properties : Option (List Property)} {dictionary : List DictionaryEntry}
    (entriesFit : ∀ entry ∈ entries, Property.ListFits limit entry.properties)
    (propertiesFit : Property.ListFits limit properties)
    (dictionaryFits : ∀ entry ∈ dictionary, entry.Fits limit) :
    Fits limit
      ⟨results, name, (Entry.split entries).1, (Entry.split entries).2, properties, dictionary⟩ :=
  ⟨(Entry.forall_records_iff (Property.listFits_none limit)).mpr entriesFit, propertiesFit,
    dictionaryFits⟩

theorem reports (limit : Nat) : Reports Derives (Fits limit) (OperationDecl.read limit) := by
  rw [read_eq]
  exact Continues.reports <|
    .part readsResults reportsResults viableResults fun defined => .word .operationWord <|
      .part readsName reportsName viableName fun named => .mark .leftParen <|
        .part (Entry.readsList limit) (Entry.reportsList limit) (viable_listed _) fun listed =>
          .part (Property.readsOptionalList limit) (Property.reportsOptionalList limit)
            (Property.viableOptionalList limit) fun behind =>
              .part (DictionaryEntry.readsOptionalList limit)
                (DictionaryEntry.reportsOptionalList limit)
                (DictionaryEntry.viableOptionalList limit) fun last =>
                  .done (.declared defined named listed behind last) (by simp)
                    fun fits => fits_of_parts fits.1.1.2 fits.1.2 fits.2

end OperationDecl

namespace Instance

theorem continuesProblemName {α β : Type} {phrase : Phrase α} {fits : α → Prop}
    {front : List TokenKind} {fit : Prop}
    {next : String → List TokenKind → Reading (β × List TokenKind)}
    (behind : ∀ problem, Continues phrase fits (front ++ [.string problem]) fit (next problem)) :
    Continues phrase fits front fit (andThen readProblemName next) := by
  have plain : (TokenKind.string "").Plain := by decide
  have carries : (TokenKind.string "").string? = some "" := rfl
  rw [readProblemName_eq]
  refine .carrying plain carries .problemName fun {kind problem} carries => ?_
  obtain rfl := TokenKind.string?_eq_some_iff.mp carries
  exact behind problem

/-- Before its closing brace, a document is stuck where it cannot be completed. -/
theorem continues (limit : Nat) : Continues Derives (Fits limit) [] True (readBody limit) := by
  have operatorTypes :=
    reports_many (OperatorTypeDecl.reads limit) (OperatorTypeDecl.reports limit) startsOperatorType
  have operations :=
    reports_many (OperationDecl.reads limit) (OperationDecl.reports limit) startsOperation
  have brace : ∀ kind ∈ [TokenKind.delimiter .rightBrace], kind.Plain := by decide
  rw [readBody_eq]
  exact .word .instanceWord <| .symbol .instanceName fun name => .word .ofWord <|
    continuesProblemName fun problem =>
      .part (Property.readsOptionalList limit) (Property.reportsOptionalList limit)
        (Property.viableOptionalList limit) fun behind => .mark .leftBrace <|
          .part (readsOperatorTypes limit) operatorTypes viable_repeated fun types =>
            .part (readsOperations limit) operations viable_repeated fun more =>
              .closed (.document name problem behind types more) (by simp) brace
                fun fits => ⟨fits.1.1.2, fits.1.2, fits.2⟩

end Instance

end StaticScheduling
