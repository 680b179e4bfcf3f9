import StaticScheduling.Proofs.Instance.Combinators

/-! # One token of lookahead

A reader knows what it answers when it sees the token behind what it takes, and
that it fails when it sees the token that the failure is about.  So it does the
same before all that is the same up to this token.  A reader with a greater limit
does the same too, except where a property nests too deep.
-/

namespace StaticScheduling

/-! ## Where a reader fails -/

def SyntaxFault.isTooDeep : SyntaxFault → Bool
  | .nestingTooDeep _ => true
  | _ => false

/-- A failure inside a document, and the kinds from the one that it is about. -/
inductive SyntaxFailure.About : SyntaxFailure → List TokenKind → Prop where
  | unexpected (expectation : Expectation) (behind : List TokenKind) :
      About ⟨.unexpected expectation, behind⟩ behind
  | nestingTooDeep (limit : Nat) (kind : TokenKind) (rest : List TokenKind) :
      About ⟨.nestingTooDeep limit, rest⟩ (kind :: rest)

/-- A failure is about one place. -/
theorem SyntaxFailure.About.unique {failure : SyntaxFailure}
    {before behind before' behind' : List TokenKind} (about : failure.About behind)
    (about' : failure.About behind') (same : before ++ behind = before' ++ behind') :
    before = before' ∧ behind = behind' := by
  refine List.append_inj' same ?_
  cases about with
  | unexpected => cases about'; rfl
  | nestingTooDeep => cases about'; rfl

namespace Reading

/-- The second reader does what the first one does, before all that is the same up to the token
behind what is read, or up to the one that a failure is about.  Where a property nests too deep, this
need only be so if the limits are `alike`. -/
structure OneAhead {α : Type} (alike : Prop)
    (read wider : List TokenKind → Reading (α × List TokenKind)) : Prop where
  ok : ∀ {kinds rest value}, read kinds = .ok (value, rest) → ∃ taken, kinds = taken ++ rest ∧
    ∀ other, other.head? = rest.head? → wider (taken ++ other) = .ok (value, other)
  error : ∀ {kinds failure}, read kinds = .error failure → ∃ before behind,
    kinds = before ++ behind ∧ failure.About behind ∧
      ((failure.fault.isTooDeep → alike) → ∀ other, other.head? = behind.head? →
        ∃ failure', wider (before ++ other) = .error failure')

theorem head?_append_congr (taken : List TokenKind) {rest other : List TokenKind}
    (same : other.head? = rest.head?) :
    (taken ++ other).head? = (taken ++ rest).head? := by
  rw [List.head?_append, List.head?_append, same]

/-! ## Steps of a list -/

section Items

variable {α : Type} {item : List TokenKind → Reading (α × List TokenKind)}

theorem commas_of_error {kinds : List TokenKind} {failure : SyntaxFailure}
    (fails : item kinds = .error failure) : commas item kinds = .error failure := by
  rw [commas, fails]

theorem commas_of_comma {before rest : List TokenKind} {first : α}
    (here : item (before ++ .delimiter .comma :: rest) = .ok (first, .delimiter .comma :: rest)) :
    commas item (before ++ .delimiter .comma :: rest) =
      commas item rest >>= fun answer => .ok (first :: answer.1, answer.2) := by
  have shorter : rest.length < (before ++ .delimiter .comma :: rest).length := by
    simp only [List.length_append, List.length_cons]
    omega
  rw [commas, here]
  simp only [shorter, if_true]
  cases commas item rest <;> rfl

theorem commas_of_stop {kinds rest : List TokenKind} {first : α}
    (here : item kinds = .ok (first, rest)) (stops : rest.head? ≠ some (.delimiter .comma)) :
    commas item kinds = .ok ([first], rest) := by
  rw [commas, here]
  split
  · contradiction
  · rename_i same
    cases same
    exact absurd rfl stops
  · rename_i same
    cases same
    rfl

variable {starts : TokenKind → Bool} {kinds rest : List TokenKind} {first : α}

theorem many_of_stop (stops : kinds.head?.any starts = false) :
    many starts item kinds = .ok ([], kinds) := by
  rw [many, stops]
  rfl

theorem many_of_error {failure : SyntaxFailure} (starting : kinds.head?.any starts)
    (fails : item kinds = .error failure) : many starts item kinds = .error failure := by
  rw [many, if_pos starting, fails]

theorem many_of_ok (starting : kinds.head?.any starts) (here : item kinds = .ok (first, rest)) :
    many starts item kinds =
      if rest.length < kinds.length then
        many starts item rest >>= fun answer => .ok (first :: answer.1, answer.2)
      else .ok ([first], rest) := by
  rw [many, if_pos starting, here]
  simp only
  split
  · cases many starts item rest <;> rfl
  · rfl

end Items

/-! ## Readers that look one token ahead -/

namespace OneAhead

variable {α β Choice : Type} {alike : Prop}
  {read wider : List TokenKind → Reading (α × List TokenKind)}

theorem answering (value : α) :
    OneAhead alike (Reading.answering value) (Reading.answering value) where
  ok := by
    rintro kinds _ _ ⟨⟩
    exact ⟨[], rfl, fun _ _ => rfl⟩
  error := by rintro kinds _ ⟨⟩

theorem expected (expectation : Expectation) :
    OneAhead (α := α) alike (Reading.expected expectation) (Reading.expected expectation) where
  ok := by rintro kinds _ _ ⟨⟩
  error := by
    rintro kinds _ ⟨⟩
    exact ⟨[], kinds, rfl, .unexpected expectation kinds, fun _ _ _ => ⟨_, rfl⟩⟩

/-- What a reader starts with decides which way it goes on. -/
theorem choosing {choose : TokenKind → Option Choice}
    {chosen chosenWider : Choice → List TokenKind → Reading (α × List TokenKind)}
    {otherwise otherwiseWider : List TokenKind → Reading (α × List TokenKind)}
    (each : ∀ choice, OneAhead alike (chosen choice) (chosenWider choice))
    (neither : OneAhead alike otherwise otherwiseWider) :
    OneAhead alike (Reading.choosing choose chosen otherwise)
      (Reading.choosing choose chosenWider otherwiseWider) := by
  have branch (head : Option TokenKind) : OneAhead alike
      (fun kinds => (head.bind choose).elim (otherwise kinds) fun choice => chosen choice kinds)
      (fun kinds => (head.bind choose).elim (otherwiseWider kinds)
        fun choice => chosenWider choice kinds) := by
    cases head.bind choose with
    | none => exact neither
    | some choice => exact each choice
  constructor
  · intro kinds rest value succeeds
    obtain ⟨taken, rfl, others⟩ := (branch kinds.head?).ok succeeds
    refine ⟨taken, rfl, fun other same => ?_⟩
    rw [Reading.choosing, head?_append_congr _ same]
    exact others other same
  · intro kinds failure fails
    obtain ⟨before, behind, rfl, about, others⟩ := (branch kinds.head?).error fails
    refine ⟨before, behind, rfl, about, fun deep other same => ?_⟩
    rw [Reading.choosing, head?_append_congr _ same]
    exact others deep other same

/-- Behind a name that nests too deep nothing is looked at. -/
theorem tooDeep (limit : Nat) (nil : ∃ failure, wider [] = .error failure)
    (alikeReads : alike → wider = Reading.tooDeep limit) :
    OneAhead alike (Reading.tooDeep limit) wider where
  ok {kinds _ _} := by cases kinds <;> rintro ⟨⟩
  error {kinds failure} := by
    cases kinds with
    | nil =>
      rintro ⟨⟩
      refine ⟨[], [], rfl, .unexpected .property [], fun _ other same => ?_⟩
      obtain rfl := List.head?_eq_none_iff.mp same
      exact nil
    | cons kind rest =>
      rintro ⟨⟩
      refine ⟨[], kind :: rest, rfl, .nestingTooDeep limit kind rest, fun deep other same => ?_⟩
      obtain ⟨more, rfl⟩ := List.head?_eq_some_iff.mp same
      rw [alikeReads (deep rfl)]
      exact ⟨_, rfl⟩

/-- Behind the first kind, a reader sees as far as where it starts. -/
theorem taking {choose : TokenKind → Option Choice}
    {chosen chosenWider : Choice → List TokenKind → Reading (α × List TokenKind)}
    {otherwise otherwiseWider : List TokenKind → Reading (α × List TokenKind)}
    (each : ∀ choice, OneAhead alike (chosen choice) (chosenWider choice))
    (neither : OneAhead alike otherwise otherwiseWider) :
    OneAhead alike (Reading.taking choose chosen otherwise)
      (Reading.taking choose chosenWider otherwiseWider) := by
  refine choosing (fun choice => ⟨?_, ?_⟩) neither
  · intro kinds rest value succeeds
    obtain ⟨taken, split, others⟩ := (each choice).ok succeeds
    cases kinds with
    | nil =>
      obtain ⟨rfl, rfl⟩ := List.append_eq_nil_iff.mp split.symm
      refine ⟨[], rfl, fun other same => ?_⟩
      obtain rfl := List.head?_eq_none_iff.mp same
      exact others [] rfl
    | cons kind kinds =>
      obtain rfl := split
      exact ⟨kind :: taken, rfl, others⟩
  · intro kinds failure fails
    obtain ⟨before, behind, split, about, others⟩ := (each choice).error fails
    cases kinds with
    | nil =>
      obtain ⟨rfl, rfl⟩ := List.append_eq_nil_iff.mp split.symm
      refine ⟨[], [], rfl, about, fun deep other same => ?_⟩
      obtain rfl := List.head?_eq_none_iff.mp same
      exact others deep [] rfl
    | cons kind kinds =>
      obtain rfl := split
      exact ⟨kind :: before, behind, rfl, about, others⟩

/-- What the second reader sees first is what the first one saw when it was done. -/
theorem andThen {next nextWider : α → List TokenKind → Reading (β × List TokenKind)}
    (first : OneAhead alike read wider)
    (second : ∀ value, OneAhead alike (next value) (nextWider value)) :
    OneAhead alike (Reading.andThen read next) (Reading.andThen wider nextWider) := by
  constructor
  · intro kinds rest result succeeds
    obtain ⟨⟨value, middle⟩, here, there⟩ := bind_eq_ok_iff.mp succeeds
    obtain ⟨taken, rfl, others⟩ := first.ok here
    obtain ⟨more, rfl, othersMore⟩ := (second value).ok there
    refine ⟨taken ++ more, (List.append_assoc ..).symm, fun other same => ?_⟩
    rw [List.append_assoc, Reading.andThen, others _ (head?_append_congr _ same)]
    exact othersMore other same
  · intro kinds failure fails
    rcases bind_eq_error_iff.mp fails with fails | ⟨⟨value, middle⟩, here, there⟩
    · obtain ⟨before, behind, rfl, about, others⟩ := first.error fails
      refine ⟨before, behind, rfl, about, fun deep other same => ?_⟩
      obtain ⟨failure', fails⟩ := others deep other same
      exact ⟨failure', by rw [Reading.andThen, fails]; rfl⟩
    · obtain ⟨taken, rfl, others⟩ := first.ok here
      obtain ⟨before, behind, rfl, about, othersMore⟩ := (second value).error there
      refine ⟨taken ++ before, behind, (List.append_assoc ..).symm, about, fun deep other same => ?_⟩
      rw [List.append_assoc, Reading.andThen, others _ (head?_append_congr _ same)]
      exact othersMore deep other same

/-! ### Single tokens -/

theorem mark (wanted : Delimiter) (behind : OneAhead alike read wider) :
    OneAhead alike (past (Reading.mark wanted) read) (past (Reading.mark wanted) wider) := by
  rw [past_mark_eq_taking, past_mark_eq_taking]
  exact taking (fun _ => behind) (expected _)

theorem word (wanted : Keyword) (behind : OneAhead alike read wider) :
    OneAhead alike (past (Reading.word wanted) read) (past (Reading.word wanted) wider) := by
  rw [past_word_eq_taking, past_word_eq_taking]
  exact taking (fun _ => behind) (expected _)

theorem optional (wanted : Delimiter)
    {otherwise otherwiseWider : List TokenKind → Reading (α × List TokenKind)}
    (behind : OneAhead alike read wider) (neither : OneAhead alike otherwise otherwiseWider) :
    OneAhead alike (Reading.optional wanted read otherwise)
      (Reading.optional wanted wider otherwiseWider) :=
  taking (fun _ => behind) neither

theorem carrying (carried : TokenKind → Option α) (expectation : Expectation) :
    OneAhead alike (Reading.carrying carried expectation) (Reading.carrying carried expectation) :=
  taking answering (expected expectation)

theorem symbol (expectation : Expectation) :
    OneAhead alike (Reading.symbol expectation) (Reading.symbol expectation) := by
  rw [symbol_eq_carrying]
  exact carrying _ _

theorem value : OneAhead alike Reading.value Reading.value := by
  rw [value_eq_carrying]
  exact carrying _ _

/-! ### Lists -/

theorem commas (reads : OneAhead alike read wider) :
    OneAhead alike (Reading.commas read) (Reading.commas wider) := by
  -- both lists go on with the same item behind a comma, or end where both see that there is none
  constructor
  · intro kinds rest values succeeds
    fun_induction Reading.commas read kinds generalizing rest values with
    | case1 kinds failure failed => cases succeeds
    | case2 kinds first behind found shorter failure failed _ => cases succeeds
    | case3 kinds first behind found shorter more final there inductionHypothesis =>
      cases succeeds
      obtain ⟨taken, rfl, others⟩ := reads.ok found
      obtain ⟨tail, rfl, othersMore⟩ := inductionHypothesis there
      refine ⟨taken ++ .delimiter .comma :: tail, by simp, fun other same => ?_⟩
      have here := others (.delimiter .comma :: (tail ++ other)) rfl
      rw [List.append_assoc, List.cons_append, commas_of_comma here, othersMore other same]
      rfl
    | case4 kinds first behind found longer =>
      obtain ⟨taken, rfl, others⟩ := reads.ok found
      simp only [List.length_append, List.length_cons] at longer
      omega
    | case5 kinds first behind stops found =>
      cases succeeds
      obtain ⟨taken, rfl, others⟩ := reads.ok found
      refine ⟨taken, rfl, fun other same => commas_of_stop (others other same) ?_⟩
      rw [same]
      intro comma
      obtain ⟨more, rfl⟩ := List.head?_eq_some_iff.mp comma
      exact stops _ rfl
  · intro kinds failure fails
    fun_induction Reading.commas read kinds with
    | case1 kinds failure failed =>
      cases fails
      obtain ⟨before, behind, rfl, about, others⟩ := reads.error failed
      refine ⟨before, behind, rfl, about, fun deep other same => ?_⟩
      obtain ⟨failure', fails⟩ := others deep other same
      exact ⟨failure', commas_of_error fails⟩
    | case2 kinds first behind found shorter failure failed inductionHypothesis =>
      cases fails
      obtain ⟨taken, rfl, others⟩ := reads.ok found
      obtain ⟨before, behind, rfl, about, othersMore⟩ := inductionHypothesis failed
      refine ⟨taken ++ .delimiter .comma :: before, behind, by simp, about,
        fun deep other same => ?_⟩
      obtain ⟨failure', fails⟩ := othersMore deep other same
      have here := others (.delimiter .comma :: (before ++ other)) rfl
      refine ⟨failure', ?_⟩
      rw [List.append_assoc, List.cons_append, commas_of_comma here, fails]
      rfl
    | case3 kinds first behind found shorter more final there inductionHypothesis => cases fails
    | case4 kinds first behind found longer => cases fails
    | case5 kinds first behind stops found => cases fails

theorem commasUntil (reads : OneAhead alike read wider) (close : Delimiter) :
    OneAhead alike (Reading.commasUntil read close) (Reading.commasUntil wider close) := by
  rw [commasUntil_eq, commasUntil_eq]
  exact optional close (answering [])
    (reads.commas.andThen fun values => mark close (answering values))

theorem many (starts : TokenKind → Bool) (reads : OneAhead alike read wider) :
    OneAhead alike (Reading.many starts read) (Reading.many starts wider) := by
  -- an item that is taken ends at the same distance from what is behind it
  have shorter_iff (taken rest other : List TokenKind) :
      other.length < (taken ++ other).length ↔ rest.length < (taken ++ rest).length := by
    simp only [List.length_append]
    omega
  constructor
  · intro kinds rest values succeeds
    fun_induction Reading.many starts read kinds generalizing rest values with
    | case1 kinds starting failure failed => cases succeeds
    | case2 kinds starting first behind found shorter failure failed _ => cases succeeds
    | case3 kinds starting first behind found shorter more final there inductionHypothesis =>
      cases succeeds
      obtain ⟨taken, rfl, others⟩ := reads.ok found
      obtain ⟨tail, rfl, othersMore⟩ := inductionHypothesis there
      refine ⟨taken ++ tail, (List.append_assoc ..).symm, fun other same => ?_⟩
      have sameHead := head?_append_congr tail same
      rw [List.append_assoc, many_of_ok (by rwa [head?_append_congr _ sameHead])
        (others _ sameHead), if_pos ((shorter_iff taken (tail ++ final) _).mpr shorter),
        othersMore other same]
      rfl
    | case4 kinds starting first behind found longer =>
      cases succeeds
      obtain ⟨taken, rfl, others⟩ := reads.ok found
      refine ⟨taken, rfl, fun other same => ?_⟩
      rw [many_of_ok (by rwa [head?_append_congr _ same]) (others other same),
        if_neg (mt (shorter_iff taken _ other).mp longer)]
    | case5 kinds stopped =>
      cases succeeds
      refine ⟨[], rfl, fun other same => many_of_stop ?_⟩
      rwa [List.nil_append, same, ← Bool.not_eq_true]
  · intro kinds failure fails
    fun_induction Reading.many starts read kinds with
    | case1 kinds starting failure failed =>
      cases fails
      obtain ⟨before, behind, rfl, about, others⟩ := reads.error failed
      refine ⟨before, behind, rfl, about, fun deep other same => ?_⟩
      obtain ⟨failure', fails⟩ := others deep other same
      exact ⟨failure', many_of_error (by rwa [head?_append_congr _ same]) fails⟩
    | case2 kinds starting first behind found shorter failure failed inductionHypothesis =>
      cases fails
      obtain ⟨taken, rfl, others⟩ := reads.ok found
      obtain ⟨before, behind, rfl, about, othersMore⟩ := inductionHypothesis failed
      refine ⟨taken ++ before, behind, (List.append_assoc ..).symm, about, fun deep other same => ?_⟩
      obtain ⟨failure', fails⟩ := othersMore deep other same
      have sameHead := head?_append_congr before same
      refine ⟨failure', ?_⟩
      rw [List.append_assoc, many_of_ok (by rwa [head?_append_congr _ sameHead])
        (others _ sameHead), if_pos ((shorter_iff taken (before ++ behind) _).mpr shorter), fails]
      rfl
    | case3 kinds starting first behind found shorter more final there _ => cases fails
    | case4 kinds starting first behind found longer => cases fails
    | case5 kinds stopped => cases fails

end OneAhead

end Reading

open Reading

/-! ## Readers of the grammar -/

variable {limit wider : Nat}

theorem Parameter.oneAhead {alike : Prop}
    {nested nestedWider : List TokenKind → Reading (Property × List TokenKind)}
    (reads : OneAhead alike nested nestedWider) :
    OneAhead alike (Parameter.read nested) (Parameter.read nestedWider) := by
  rw [read_eq, read_eq]
  exact .taking .answering
    (.choosing (fun _ => reads.andThen fun property => .answering _) (.expected _))

/-- Where there is room for one property more, it is the same with a greater limit. -/
theorem Property.oneAhead (within : limit ≤ wider) (depth : Nat) :
    OneAhead (limit = wider) (Property.read ⟨limit, depth⟩) (Property.read ⟨wider, depth⟩) := by
  rw [read_eq, read_eq]
  refine .choosing (fun make => ?_) (.expected _)
  unfold readNamed
  by_cases room : depth < limit
  · have parameters := (Parameter.oneAhead (oneAhead within (depth + 1))).commas
    rw [if_pos room, if_pos (Nat.lt_of_lt_of_le room within)]
    exact .taking (fun _ => .optional .leftAngle
      (parameters.andThen fun parameters => .mark .rightAngle (.answering (make parameters)))
      (.answering (make []))) (.expected _)
  · rw [if_neg room]
    refine .tooDeep limit ?_ fun same => ?_
    · split <;> exact ⟨_, rfl⟩
    · rw [← same, if_neg room]
termination_by limit - depth

theorem Property.oneAheadOptionalList (within : limit ≤ wider) :
    OneAhead (limit = wider) (Property.readOptionalList limit)
      (Property.readOptionalList wider) := by
  have listed := (oneAhead within 0).commasUntil .rightBracket
  rw [readOptionalList_eq, readOptionalList_eq]
  exact .optional .leftBracket (listed.andThen fun properties => .answering (some properties))
    (.answering none)

theorem Entry.oneAhead (within : limit ≤ wider) :
    OneAhead (limit = wider) (Entry.read limit) (Entry.read wider) := by
  rw [read_eq, read_eq]
  exact .taking (fun make => (Property.oneAheadOptionalList within).andThen fun properties =>
    .answering (make properties)) (.expected _)

namespace DictionaryEntry

theorem oneAheadValue (within : limit ≤ wider) (name : String) :
    OneAhead (limit = wider) (readValue limit name) (readValue wider name) := by
  have value := Parameter.oneAhead (Property.oneAhead within 0)
  rw [readValue_eq, readValue_eq]
  exact .optional .equals (value.andThen fun value => .answering _) (.answering _)

theorem oneAhead (within : limit ≤ wider) :
    OneAhead (limit = wider) (DictionaryEntry.read limit) (DictionaryEntry.read wider) := by
  rw [read_eq, read_eq]
  exact .taking (oneAheadValue within) (.expected _)

theorem oneAheadOptionalList (within : limit ≤ wider) :
    OneAhead (limit = wider) (DictionaryEntry.readOptionalList limit)
      (DictionaryEntry.readOptionalList wider) := by
  rw [readOptionalList_eq, readOptionalList_eq]
  exact .optional .leftBrace (((oneAhead within).commasUntil .rightBrace).andThen .answering)
    (.answering [])

end DictionaryEntry

theorem OperatorTypeDecl.oneAhead (within : limit ≤ wider) :
    OneAhead (limit = wider) (OperatorTypeDecl.read limit) (OperatorTypeDecl.read wider) := by
  rw [read_eq, read_eq]
  exact .word .operatorTypeWord <| (OneAhead.symbol .operatorTypeName).andThen fun name =>
    (Property.oneAheadOptionalList within).andThen fun properties => .answering _

namespace OperationDecl

theorem oneAheadResults {alike : Prop} : OneAhead alike readResults readResults := by
  rw [readResults_eq]
  exact .choosing (fun _ => OneAhead.value.commas.andThen fun results =>
    .mark .equals (.answering results)) (.answering [])

theorem oneAheadName {alike : Prop} :
    OneAhead alike (fun kinds => .ok (readName kinds)) (fun kinds => .ok (readName kinds)) := by
  rw [readName_eq]
  exact .taking (fun name => .answering (some name)) (.answering none)

theorem oneAhead (within : limit ≤ wider) :
    OneAhead (limit = wider) (OperationDecl.read limit) (OperationDecl.read wider) := by
  rw [read_eq, read_eq]
  exact oneAheadResults.andThen fun results => .word .operationWord <|
    oneAheadName.andThen fun name => .mark .leftParen <|
      ((Entry.oneAhead within).commasUntil .rightParen).andThen fun entries =>
        (Property.oneAheadOptionalList within).andThen fun properties =>
          (DictionaryEntry.oneAheadOptionalList within).andThen fun dictionary => .answering _

end OperationDecl

namespace Instance

theorem oneAheadProblemName {alike : Prop} : OneAhead alike readProblemName readProblemName := by
  rw [readProblemName_eq]
  exact .carrying _ _

theorem oneAhead (within : limit ≤ wider) :
    OneAhead (limit = wider) (readBody limit) (readBody wider) := by
  rw [readBody_eq, readBody_eq]
  exact .word .instanceWord <| (OneAhead.symbol .instanceName).andThen fun name =>
    .word .ofWord <| oneAheadProblemName.andThen fun problem =>
      (Property.oneAheadOptionalList within).andThen fun properties => .mark .leftBrace <|
        ((OperatorTypeDecl.oneAhead within).many startsOperatorType).andThen fun operatorTypes =>
          ((OperationDecl.oneAhead within).many startsOperation).andThen fun operations =>
            .answering _

end Instance

end StaticScheduling
