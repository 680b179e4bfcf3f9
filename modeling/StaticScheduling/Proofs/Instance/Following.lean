import StaticScheduling.Proofs.Instance.InPlace
import StaticScheduling.Proofs.Instance.Lookahead
import StaticScheduling.Proofs.Token.Scanning

/-! # Parsers in place follow readers

A parser that works in place has rounds enough for every text.  It answers what the
reader of the grammar answers on the kinds ahead, and is left before the kinds that the
reader leaves.  Where the reader fails, it ends in the same fault and stands where the
fault was found, perhaps with properties open.
-/

namespace StaticScheduling

open Reading

/-! ## Readers in a row -/

namespace Reading

section Combinations

variable {α : Type} (read : List TokenKind → Reading (α × List TokenKind))

theorem taking_eq_andThen {Choice : Type} (choose : TokenKind → Option Choice)
    (expectation : Expectation) : taking choose (fun _ => read) (expected expectation) =
      andThen (carrying choose expectation) fun _ => read := by
  funext kinds
  unfold andThen carrying taking choosing
  cases kinds.head?.bind choose <;> rfl

theorem past_mark_eq_andThen (wanted : Delimiter) : past (mark wanted) read =
    andThen (carrying (only (.delimiter wanted)) (.delimiter wanted)) fun _ => read := by
  rw [past_mark_eq_taking, taking_eq_andThen]

theorem past_word_eq_andThen (wanted : Keyword) : past (word wanted) read =
    andThen (carrying (only (.keyword wanted)) (.keyword wanted)) fun _ => read := by
  rw [past_word_eq_taking, taking_eq_andThen]

theorem andThen_past {β : Type} (take : List TokenKind → Reading (List TokenKind))
    (next : α → List TokenKind → Reading (β × List TokenKind)) :
    andThen (past take read) next = past take (andThen read next) := by
  funext kinds
  exact bind_assoc (take kinds) _ _

theorem andThen_answering : andThen read answering = read := by
  funext kinds
  exact bind_pure (read kinds)

/-- A mark that was looked for may be taken as one that has to come. -/
theorem optional_eq_choosing (wanted : Delimiter)
    (otherwise : List TokenKind → Reading (α × List TokenKind)) :
    optional wanted read otherwise =
      choosing (only (.delimiter wanted)) (fun _ => past (mark wanted) read) otherwise := by
  rw [past_mark_eq_taking]
  funext kinds
  unfold optional taking choosing
  cases found : kinds.head?.bind (only (.delimiter wanted)) with
  | none => rfl
  | some _ => simp only [Option.elim_some, found]

/-- Reads the items behind the first one. -/
def commasRest : List TokenKind → Reading (List α × List TokenKind) :=
  optional .comma (commas read) (answering [])

/-- A list is an item and the items behind it. -/
theorem commas_eq_andThen {kinds : List TokenKind}
    (suffix : ∀ value rest, read kinds = .ok (value, rest) → rest <:+ kinds) :
    commas read kinds = andThen read
      (fun first => andThen (commasRest read) fun more => answering (first :: more)) kinds := by
  rw [andThen]
  cases found : read kinds with
  | error failure => exact commas_of_error found
  | ok answer =>
    obtain ⟨first, rest⟩ := answer
    obtain ⟨taken, rfl⟩ := suffix first rest found
    rw [ok_bind, andThen, commasRest, optional_apply]
    by_cases comma : startsWith .comma rest
    · obtain ⟨behind, rfl⟩ := startsWith_eq_true_iff.mp comma
      rw [commas_of_comma found, if_pos comma]
      rfl
    · rw [if_neg comma]
      exact commas_of_stop found fun same => comma (by simpa [startsWith] using same)

/-- Reads items unless a mark comes next. -/
def commasUnless (close : Delimiter) : List TokenKind → Reading (List α × List TokenKind) :=
  choosing (only (.delimiter close)) (fun _ => answering []) (commas read)

theorem commasUntil_eq_andThen (close : Delimiter) : commasUntil read close =
    andThen (commasUnless read close) fun items => past (mark close) (answering items) := by
  rw [commasUntil_eq, optional_eq_choosing]
  funext kinds
  unfold commasUnless andThen choosing
  cases kinds.head?.bind (only (.delimiter close)) <;> rfl

end Combinations

end Reading

/-! ## Names of attributes -/

/-- Attributes are cut into a dialect and a mnemonic as the lexer cut them. -/
def TokenStream.Recut (stream : TokenStream) : Prop :=
  ∀ token ∈ stream.tokens, ∀ make, token.kind.property? = some make → token.property? = some make

/-- No text leads to an attribute that has no dot in its name. -/
theorem TokenStream.recut_of_loadTokens {settings : ParserSettings} {source : String}
    {stream : TokenStream} (loads : loadTokens settings source = .ok stream) : stream.Recut := by
  obtain ⟨whole, lexes, dropped⟩ := bind_eq_ok_iff.mp loads
  intro token member make named
  rw [tokens_withoutComments dropped] at member
  have present := (List.mem_filter.mp member).1
  obtain ⟨dialect, mnemonic, kind, rfl⟩ := TokenKind.property?_eq_some_iff.mp named
  obtain ⟨_, _, cut⟩ := cutAtDot?_lexeme lexes present kind
  simp only [Token.property?, cut, Option.map_some, String.ofList_toList]

/-! ## The kinds ahead -/

namespace ParserMemory

variable {memory : ParserMemory} {limit depth : Nat} {rest : List TokenKind}

/-- The kinds of the tokens that were not taken yet. -/
def ahead (memory : ParserMemory) : List TokenKind := memory.stream.kinds.drop memory.standing

/-- What is kept before the last tokens, as many as there are kinds. -/
def before (memory : ParserMemory) (rest : List TokenKind) : ParserMemory :=
  { memory with standing := memory.stream.tokens.length - rest.length }

/-- A parser stands inside a text that was cut into tokens, with a limit and a number of open
properties. -/
structure Ready (limit depth : Nat) (memory : ParserMemory) : Prop where
  limit_eq : memory.settings.nestingLimit = limit
  depth_eq : memory.depth = depth
  within : memory.standing ≤ memory.stream.tokens.length
  recut : memory.stream.Recut

theorem head?_ahead (memory : ParserMemory) :
    memory.ahead.head? = memory.current?.map Token.kind := by
  rw [ahead, List.head?_drop, TokenStream.kinds, List.getElem?_map, current?]

theorem ahead_advance (memory : ParserMemory) : memory.advance.ahead = memory.ahead.tail := by
  unfold advance
  split
  · rw [ahead, ahead, List.tail_drop]
  · rename_i outside
    have all : memory.stream.kinds.length ≤ memory.standing := by
      rw [TokenStream.kinds, List.length_map]
      omega
    rw [ahead, List.drop_of_length_le all, List.tail_nil]

theorem ne_nil_of_head?_bind {Choice : Type} {choose : TokenKind → Option Choice}
    {kinds : List TokenKind} {choice : Choice} (found : kinds.head?.bind choose = some choice) :
    kinds ≠ [] := by
  rintro rfl
  cases found

theorem length_ahead_advance_lt (inside : memory.ahead ≠ []) :
    memory.advance.ahead.length < memory.ahead.length := by
  have := List.length_pos_iff.mpr inside
  rw [ahead_advance, List.length_tail]
  omega

theorem length_ahead (memory : ParserMemory) :
    memory.ahead.length = memory.stream.tokens.length - memory.standing := by
  rw [ahead, List.length_drop, TokenStream.kinds, List.length_map]

theorem length_ahead_lt (memory : ParserMemory) :
    memory.ahead.length < memory.stream.tokens.length + 1 := by
  rw [length_ahead]
  omega

theorem ahead_before (suffix : rest <:+ memory.ahead) : (memory.before rest).ahead = rest := by
  have all : rest <:+ memory.stream.kinds := suffix.trans (List.drop_suffix _ _)
  have dropped := List.suffix_iff_eq_drop.mp all
  rw [TokenStream.kinds, List.length_map] at dropped
  exact dropped.symm

namespace Ready

theorem before_ahead (ready : memory.Ready limit depth) : memory.before memory.ahead = memory := by
  have standing : memory.stream.tokens.length - memory.ahead.length = memory.standing := by
    have := ready.within
    rw [length_ahead]
    omega
  rw [before, standing]

theorem before (ready : memory.Ready limit depth) (rest : List TokenKind) :
    (memory.before rest).Ready limit depth :=
  ⟨ready.limit_eq, ready.depth_eq, Nat.sub_le .., ready.recut⟩

theorem before_tail (ready : memory.Ready limit depth) :
    memory.before memory.ahead.tail = memory.advance := by
  have within := ready.within
  unfold ParserMemory.before ParserMemory.advance
  rw [List.length_tail, length_ahead]
  generalize memory.stream.tokens.length = count at within ⊢
  by_cases inside : memory.standing < count
  · have standing : count - (count - memory.standing - 1) = memory.standing + 1 := by omega
    rw [if_pos inside, standing]
  · have standing : count - (count - memory.standing - 1) = memory.standing := by omega
    rw [if_neg inside, standing]

theorem advance (ready : memory.Ready limit depth) : memory.advance.Ready limit depth :=
  ready.before_tail ▸ ready.before _

/-! ### Faults -/

theorem standing_ahead (ready : memory.Ready limit depth) (fault : SyntaxFault) :
    (⟨fault, memory.ahead⟩ : SyntaxFailure).standing memory.stream = memory.standing := by
  have within := ready.within
  rw [SyntaxFailure.standing, length_ahead]
  omega

theorem toParseError_unexpected (ready : memory.Ready limit depth) (expectation : Expectation) :
    (⟨.unexpected expectation, memory.ahead⟩ : SyntaxFailure).toParseError memory.stream =
      memory.unexpected expectation := by
  simp only [SyntaxFailure.toParseError, SyntaxFailure.offender, ready.standing_ahead,
    TokenStream.positionAt, unexpected, current?]
  cases memory.stream.tokens[memory.standing]? <;> rfl

theorem toParseError_misplaced (ready : memory.Ready limit depth) :
    (⟨.misplacedOperatorType, memory.ahead⟩ : SyntaxFailure).toParseError memory.stream =
      memory.misplaced := by
  simp only [SyntaxFailure.toParseError, SyntaxFailure.offender, ready.standing_ahead]
  rfl

end Ready

/-- That there is no room is found behind the name, and is said of the name. -/
theorem toParseError_tooDeep (limit : Nat) (inside : memory.ahead ≠ []) :
    (⟨.nestingTooDeep limit, memory.ahead.tail⟩ : SyntaxFailure).toParseError memory.stream =
      ⟨.nestingTooDeep, memory.position, Nesting.tooDeepMessage limit, none⟩ := by
  have offender : (⟨.nestingTooDeep limit, memory.ahead.tail⟩ : SyntaxFailure).offender
      memory.stream = memory.standing := by
    have := List.length_pos_iff.mpr inside
    rw [length_ahead] at this
    simp only [SyntaxFailure.offender, SyntaxFailure.standing, List.length_tail, length_ahead]
    omega
  simp only [SyntaxFailure.toParseError, offender]
  rfl

end ParserMemory

/-! ## Agreement -/

namespace Parsing

open ParserMemory

section Rules

variable {α β Choice : Type} {memory : ParserMemory} {limit depth : Nat}

/-- How parsing in place on a memory ends, as a reader answers on the kinds ahead. -/
inductive Agrees (memory : ParserMemory) : Option (Except ParseError α × ParserMemory) →
    Reading (α × List TokenKind) → Prop where
  | ok (value : α) {rest : List TokenKind} (suffix : rest <:+ memory.ahead) :
      Agrees memory (some (.ok value, memory.before rest)) (.ok (value, rest))
  | error {failure : SyntaxFailure} (opened : Nat) (suffix : failure.rest <:+ memory.ahead) :
      Agrees memory
        (some (.error (failure.toParseError memory.stream),
          { memory.before failure.rest with depth := opened }))
        (.error failure)

/-- A parsing does what a reader does, wherever as many properties are open. -/
def Follows (limit depth : Nat) (parsing : Parsing α)
    (read : List TokenKind → Reading (α × List TokenKind)) : Prop :=
  ∀ ⦃memory⦄, memory.Ready limit depth → Agrees memory (parsing.on memory) (read memory.ahead)

namespace Agrees

theorem suffix {outcome : Option (Except ParseError α × ParserMemory)} {value : α}
    {rest : List TokenKind} (agrees : Agrees memory outcome (.ok (value, rest))) :
    rest <:+ memory.ahead := by
  cases agrees with
  | ok _ suffix => exact suffix

/-- What agrees behind a part of the kinds agrees before them. -/
theorem of_before {rest : List TokenKind} {outcome : Option (Except ParseError α × ParserMemory)}
    {reading : Reading (α × List TokenKind)} (suffix : rest <:+ memory.ahead)
    (agrees : Agrees (memory.before rest) outcome reading) : Agrees memory outcome reading := by
  have here := ahead_before suffix
  cases agrees with
  | ok value behind => exact .ok value ((here ▸ behind).trans suffix)
  | error opened behind => exact .error opened ((here ▸ behind).trans suffix)

theorem bind {parsing : Parsing α} {next : α → Parsing β}
    {read : List TokenKind → Reading (α × List TokenKind)}
    {nextRead : α → List TokenKind → Reading (β × List TokenKind)}
    (ready : memory.Ready limit depth)
    (first : Agrees memory (parsing.on memory) (read memory.ahead))
    (second : ∀ value after, after.Ready limit depth → after.ahead <:+ memory.ahead →
      read memory.ahead = .ok (value, after.ahead) →
      Agrees after ((next value).on after) (nextRead value after.ahead)) :
    Agrees memory ((parsing >>= next).on memory) (Reading.andThen read nextRead memory.ahead) := by
  rw [on_bind, Reading.andThen]
  generalize parsing.on memory = outcome at first
  generalize read memory.ahead = reading at first second
  cases first with
  | @ok value rest suffix =>
    have behind := second value (memory.before rest) (ready.before rest)
    rw [ahead_before suffix] at behind
    exact (behind suffix rfl).of_before suffix
  | error opened suffix => exact .error opened suffix

theorem choosing {choose : TokenKind → Option Choice} {next : Option Choice → Parsing α}
    {chosen : Choice → List TokenKind → Reading (α × List TokenKind)}
    {otherwise : List TokenKind → Reading (α × List TokenKind)}
    (each : ∀ choice, memory.ahead.head?.bind choose = some choice →
      Agrees memory ((next (some choice)).on memory) (chosen choice memory.ahead))
    (neither : memory.ahead.head?.bind choose = none →
      Agrees memory ((next none).on memory) (otherwise memory.ahead)) :
    Agrees memory ((Parsing.ahead choose >>= next).on memory)
      (Reading.choosing choose chosen otherwise memory.ahead) := by
  have looked : (Parsing.ahead choose).on memory =
      some (.ok (memory.ahead.head?.bind choose), memory) := by
    rw [head?_ahead, Option.bind_map]
    rfl
  rw [on_bind, looked, Reading.choosing]
  cases found : memory.ahead.head?.bind choose with
  | none => exact neither found
  | some choice => exact each choice found

theorem advance {next : Unit → Parsing α} {reading : Reading (α × List TokenKind)}
    (ready : memory.Ready limit depth)
    (behind : Agrees memory.advance ((next ()).on memory.advance) reading) :
    Agrees memory ((Parsing.advance >>= next).on memory) reading := by
  rw [on_bind_of_ok (on_advance memory)]
  refine of_before (List.tail_suffix _) ?_
  rw [ready.before_tail]
  exact behind

theorem consume {wanted : Delimiter} {next : Bool → Parsing α}
    {read otherwise : List TokenKind → Reading (α × List TokenKind)}
    (ready : memory.Ready limit depth)
    (behind : memory.advance.ahead.length < memory.ahead.length →
      Agrees memory.advance ((next true).on memory.advance) (read memory.advance.ahead))
    (neither : Agrees memory ((next false).on memory) (otherwise memory.ahead)) :
    Agrees memory ((Parsing.consume wanted >>= next).on memory)
      (Reading.optional wanted read otherwise memory.ahead) := by
  rw [Parsing.consume, bind_assoc, Reading.optional, Reading.taking]
  refine choosing (fun _ found => ?_) fun _ => ?_
  · simp only [bind_assoc, pure_bind, ← ahead_advance]
    exact advance ready (behind (length_ahead_advance_lt (ne_nil_of_head?_bind found)))
  · exact neither

end Agrees

namespace Follows

variable {parsing : Parsing α} {read : List TokenKind → Reading (α × List TokenKind)}

theorem answering (value : α) : Follows limit depth (pure value) (Reading.answering value) := by
  intro memory ready
  have agrees := Agrees.ok value (List.suffix_refl memory.ahead)
  rwa [ready.before_ahead] at agrees

/-- A fault that is found where a parser stands. -/
theorem fault {fault : SyntaxFault} {found : ParserMemory → ParseError}
    (told : ∀ memory : ParserMemory, memory.Ready limit depth →
      (⟨fault, memory.ahead⟩ : SyntaxFailure).toParseError memory.stream = found memory) :
    Follows (α := α) limit depth (do throw (found (← get))) fun kinds => .error ⟨fault, kinds⟩ := by
  intro memory ready
  have agrees := @Agrees.error α memory ⟨fault, memory.ahead⟩ memory.depth
    (List.suffix_refl memory.ahead)
  rw [ready.before_ahead, told memory ready] at agrees
  exact agrees

theorem expected (expectation : Expectation) :
    Follows (α := α) limit depth (unexpected expectation) (Reading.expected expectation) :=
  fault fun _ ready => ready.toParseError_unexpected expectation

theorem bind {next : α → Parsing β} {nextRead : α → List TokenKind → Reading (β × List TokenKind)}
    (first : Follows limit depth parsing read)
    (second : ∀ value, Follows limit depth (next value) (nextRead value)) :
    Follows limit depth (parsing >>= next) (Reading.andThen read nextRead) := by
  intro memory ready
  exact (first ready).bind ready fun value after behind _ _ => second value behind

theorem choosing {choose : TokenKind → Option Choice} {next : Option Choice → Parsing α}
    {chosen : Choice → List TokenKind → Reading (α × List TokenKind)}
    {otherwise : List TokenKind → Reading (α × List TokenKind)}
    (each : ∀ choice, Follows limit depth (next (some choice)) (chosen choice))
    (neither : Follows limit depth (next none) otherwise) :
    Follows limit depth (Parsing.ahead choose >>= next)
      (Reading.choosing choose chosen otherwise) :=
  fun _ ready => .choosing (fun choice _ => each choice ready) fun _ => neither ready

theorem advance {next : Unit → Parsing α} (behind : Follows limit depth (next ()) read) :
    Follows limit depth (Parsing.advance >>= next) (fun kinds => read kinds.tail) := by
  intro memory ready
  have agrees := behind ready.advance
  rw [ahead_advance] at agrees
  exact .advance ready agrees

theorem expect (carried : TokenKind → Option α) (expectation : Expectation) :
    Follows limit depth (Parsing.expect carried expectation)
      (Reading.carrying carried expectation) :=
  .choosing (fun answer => .advance (.answering answer)) (.expected expectation)

theorem mark {wanted : Delimiter} {next : Unit → Parsing α}
    (behind : Follows limit depth (next ()) read) :
    Follows limit depth (expectMark wanted >>= next) (past (Reading.mark wanted) read) := by
  rw [past_mark_eq_andThen]
  exact (expect _ _).bind fun _ => behind

theorem word {wanted : Keyword} {next : Unit → Parsing α}
    (behind : Follows limit depth (next ()) read) :
    Follows limit depth (expectWord wanted >>= next) (past (Reading.word wanted) read) := by
  rw [past_word_eq_andThen]
  exact (expect _ _).bind fun _ => behind

theorem consume {wanted : Delimiter} {next : Bool → Parsing α}
    {otherwise : List TokenKind → Reading (α × List TokenKind)}
    (behind : Follows limit depth (next true) read)
    (neither : Follows limit depth (next false) otherwise) :
    Follows limit depth (Parsing.consume wanted >>= next)
      (Reading.optional wanted read otherwise) :=
  fun _ ready => .consume ready (fun _ => behind ready.advance) (neither ready)

/-! ### Lists -/

/-- Items are taken as long as a comma is ahead.  Every round takes a comma. -/
theorem commasRounds (each : Follows limit depth parsing read) (rounds : Nat)
    (ready : memory.Ready limit depth) (enough : memory.ahead.length < rounds) :
    Agrees memory ((Parsing.commasRounds parsing rounds).on memory)
      (Reading.commasRest read memory.ahead) := by
  induction rounds generalizing memory with
  | zero => omega
  | succ rounds inductionHypothesis =>
    refine .consume ready (fun shorter => ?_) (answering [] ready)
    have item := each ready.advance
    rw [commas_eq_andThen read fun _ _ found => (found ▸ item).suffix]
    refine item.bind ready.advance fun first behind readyBehind suffix _ => ?_
    have fewer : behind.ahead.length < rounds := by
      have := suffix.length_le
      omega
    refine .bind readyBehind (inductionHypothesis readyBehind fewer) ?_
    intro more last readyLast _ _
    exact answering (first :: more) readyLast

theorem commasRest (each : Follows limit depth parsing read) :
    Follows limit depth (Parsing.commasRest parsing) (Reading.commasRest read) := by
  intro memory ready
  rw [Parsing.commasRest, on_bind_of_ok (on_get memory)]
  exact each.commasRounds _ ready memory.length_ahead_lt

theorem commas (each : Follows limit depth parsing read) :
    Follows limit depth (Parsing.commas parsing) (Reading.commas read) := by
  intro memory ready
  rw [commas_eq_andThen read fun _ _ found => (found ▸ each ready).suffix]
  exact each.bind (fun first => each.commasRest.bind fun more => answering (first :: more)) ready

theorem commasUntil (each : Follows limit depth parsing read) (close : Delimiter) :
    Follows limit depth (Parsing.commasUntil parsing close) (Reading.commasUntil read close) := by
  rw [commasUntil_eq_andThen]
  exact bind (choosing (fun _ => answering []) each.commas) fun items => mark (answering items)

end Follows

end Rules

end Parsing

/-! ## Properties -/

/-- Reads the parameters of a property, if there are any. -/
def Property.readParameters (limit depth : Nat) :
    List TokenKind → Reading (List Parameter × List TokenKind) :=
  optional .leftAngle
    (andThen (commas (Parameter.read (Property.read ⟨limit, depth⟩))) fun parameters =>
      past (mark .rightAngle) (answering parameters))
    (answering [])

theorem Property.readInside_eq_andThen (limit depth : Nat) (make : List Parameter → Property) :
    readInside limit depth make =
      andThen (readParameters limit (depth + 1)) fun parameters => answering (make parameters) := by
  funext kinds
  rw [readInside, readParameters, andThen, optional_apply, optional_apply]
  split
  · simp only [andThen, past, bind_assoc]
    rfl
  · rfl

theorem Property.readNamed_of_ne_nil {limit depth : Nat} {make : List Parameter → Property}
    {kinds : List TokenKind} (inside : kinds ≠ []) : readNamed limit depth make kinds =
      if depth < limit then readInside limit depth make kinds.tail
      else .error ⟨.nestingTooDeep limit, kinds.tail⟩ := by
  obtain ⟨kind, rest, rfl⟩ := List.exists_cons_of_ne_nil inside
  rw [readNamed]
  split <;> rfl

namespace Parsing

open ParserMemory

variable {limit depth : Nat}

section Parameters

variable {nested : Parsing Property}

theorem follows_parameter (inner : Follows limit depth nested (Property.read ⟨limit, depth⟩)) :
    Follows limit depth (parameter nested) (Parameter.read (Property.read ⟨limit, depth⟩)) := by
  rw [parameter, Parameter.read_eq]
  exact .choosing (fun single => .advance (.answering single))
    (.choosing (fun _ => inner.bind fun _ => .answering _) (.expected .parameter))

theorem follows_optionalParameters
    (inner : Follows limit depth nested (Property.read ⟨limit, depth⟩)) :
    Follows limit depth (optionalParameters nested) (Property.readParameters limit depth) := by
  rw [optionalParameters]
  exact .consume ((follows_parameter inner).commas.bind fun parameters =>
    .mark (.answering parameters)) (.answering [])

end Parameters

section Nested

variable {memory : ParserMemory}

theorem nesting_eq (ready : memory.Ready limit depth) : memory.nesting = ⟨limit, depth⟩ := by
  rw [nesting, ready.limit_eq, ready.depth_eq]

theorem on_descend_of_lt (ready : memory.Ready limit depth) (room : depth < limit)
    (position : Position) :
    (descend position).on memory = some (.ok (), { memory with depth := depth + 1 }) := by
  have deeper : Nesting.deeper? ⟨limit, depth⟩ = some ⟨limit, depth + 1⟩ :=
    Nesting.deeper?_eq_some_iff.mpr ⟨room, rfl⟩
  simp only [descend, on_bind, on_get, Option.bind_some, on_ofExcept, nesting_eq ready,
    Nesting.descend, deeper]
  rfl

theorem on_descend_of_not_lt (ready : memory.Ready limit depth) (full : ¬ depth < limit)
    (position : Position) : (descend position).on memory =
      some (.error ⟨.nestingTooDeep, position, Nesting.tooDeepMessage limit, none⟩, memory) := by
  have deeper : Nesting.deeper? ⟨limit, depth⟩ = none := if_neg full
  simp only [descend, on_bind, on_get, Option.bind_some, on_ofExcept, nesting_eq ready,
    Nesting.descend, deeper]

theorem on_ascend (ready : memory.Ready limit (depth + 1)) :
    ascend.on memory = some (.ok (), { memory with depth := depth }) := by
  rw [ascend, on_modify, nesting_eq ready]
  rfl

/-- The name that is cut once more is the one that was read. -/
theorem on_propertyName (ready : memory.Ready limit depth) {make : List Parameter → Property}
    (found : memory.ahead.head?.bind TokenKind.property? = some make) :
    propertyName.on memory = some (.ok make, memory) := by
  rw [head?_ahead, Option.bind_map, Option.bind_eq_some_iff] at found
  obtain ⟨token, current, named⟩ := found
  have present : token ∈ memory.stream.tokens := List.mem_of_getElem? current
  have again := ready.recut token present make named
  rw [propertyName, on_bind_of_ok (on_get memory), current, Option.bind_some, again]
  rfl

/-- What agrees inside a property agrees around it, once it is left. -/
theorem Agrees.leave {α β : Type} {parsing : Parsing α}
    {reading : Reading (α × List TokenKind)} {make : α → β} (ready : memory.Ready limit depth)
    (inside : Agrees { memory with depth := depth + 1 }
      (parsing.on { memory with depth := depth + 1 }) reading) :
    Agrees memory
      ((do
        let given ← parsing
        ascend
        pure (make given)).on { memory with depth := depth + 1 })
      (reading >>= fun answer => Reading.answering (make answer.1) answer.2) := by
  have entered : ParserMemory.Ready limit (depth + 1) { memory with depth := depth + 1 } :=
    ⟨ready.limit_eq, rfl, ready.within, ready.recut⟩
  rw [on_bind]
  generalize parsing.on { memory with depth := depth + 1 } = outcome at inside
  cases inside with
  | @ok given rest suffix =>
    have left : { memory.before rest with depth := depth } = memory.before rest := by
      rw [← ready.depth_eq]
      rfl
    simp only [Option.bind_some, on_bind, on_ascend (entered.before rest), on_pure, ok_bind]
    show Agrees memory (some (.ok (make given), { memory.before rest with depth := depth })) _
    rw [left]
    exact .ok (make given) suffix
  | error opened suffix => exact .error opened suffix

end Nested

/-- A property opens one level and closes it again.  Where there is no room for it, or where its
parameters fail, nothing is closed. -/
theorem follows_propertyAround {nested : Parsing Property}
    (inner : depth < limit → Follows limit (depth + 1) nested (Property.read ⟨limit, depth + 1⟩)) :
    Follows limit depth (propertyAround nested) (Property.read ⟨limit, depth⟩) := by
  intro memory ready
  rw [propertyAround, Property.read_eq]
  refine .choosing (fun make found => ?_) fun _ => Follows.expected .property ready
  have inside := ne_nil_of_head?_bind found
  have behind := ready.advance
  rw [Property.readNamed_of_ne_nil inside, on_bind_of_ok (on_propertyName ready found),
    on_bind_of_ok (on_get memory)]
  by_cases room : depth < limit
  · have entered : ParserMemory.Ready limit (depth + 1) { memory.advance with depth := depth + 1 } :=
      ⟨behind.limit_eq, rfl, behind.within, behind.recut⟩
    have parameters := follows_optionalParameters (inner room) entered
    refine .advance ready ?_
    rw [if_pos room, Property.readInside_eq_andThen, ← ahead_advance,
      on_bind_of_ok (on_descend_of_lt behind room _)]
    exact .leave behind parameters
  · have agrees := @Agrees.error Property memory ⟨.nestingTooDeep limit, memory.ahead.tail⟩
      memory.advance.depth (List.tail_suffix memory.ahead)
    rw [ready.before_tail, toParseError_tooDeep limit inside] at agrees
    rw [if_neg room, on_bind_of_ok (on_advance memory),
      on_bind_of_error (on_descend_of_not_lt behind room _)]
    exact agrees

/-- Every level inside a property leaves one level less to open. -/
theorem follows_propertyWithin (levels : Nat) (enough : limit - depth < levels) :
    Follows limit depth (propertyWithin levels) (Property.read ⟨limit, depth⟩) := by
  induction levels generalizing depth with
  | zero => omega
  | succ levels inductionHypothesis =>
    refine follows_propertyAround fun room => inductionHypothesis ?_
    omega

theorem follows_property (limit : Nat) :
    Follows limit 0 property (Property.read (Nesting.outermost limit)) := by
  intro memory ready
  rw [property, on_bind_of_ok (on_get memory), ready.limit_eq]
  exact follows_propertyWithin (limit + 1) (Nat.lt_succ_self limit) ready

end Parsing

end StaticScheduling
