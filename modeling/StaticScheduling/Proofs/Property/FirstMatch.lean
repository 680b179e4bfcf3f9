import StaticScheduling.Proofs.Property.Annotation

/-! # The first kind that accepts

A property goes to the first kind of a list that accepts it, whatever the kinds
are and whatever they do to a problem.  Two lists that send every property to the
same kind decode alike, although each property is applied to what the ones before
it left and any of them may end the run.
-/

namespace StaticScheduling

namespace Edited

/-- Goes on with the problem as it was left, if this succeeded. -/
def andThen (edited : Edited) (next : Problem → Edited) : Edited :=
  match edited with
  | (problem, .ok ()) => next problem
  | (problem, .error error) => (problem, .error error)

end Edited

namespace PropertyKind

variable {Point : Type}

/-- The kind that a list sends a property to. -/
def recipient? (kinds : List (PropertyKind Point)) (property : Property) :
    Option (PropertyKind Point) :=
  kinds.find? fun kind => kind.accepts property

/-- Whatever the kind accepts is accepted by one of the others. -/
def CoveredBy (kind : PropertyKind Point) (others : List (PropertyKind Point)) : Prop :=
  ∀ property, kind.accepts property → ∃ other ∈ others, other.accepts property

/-- No property is accepted by both kinds. -/
def Disjoint (first second : PropertyKind Point) : Prop :=
  ∀ property, first.accepts property → second.accepts property = false

/-! ## Where a property goes -/

variable {before after : List (PropertyKind Point)} {kind first second : PropertyKind Point}
  {property : Property}

theorem recipient?_append (before after : List (PropertyKind Point)) (property : Property) :
    recipient? (before ++ after) property =
      (recipient? before property).or (recipient? after property) :=
  List.find?_append

theorem recipient?_cons_of_accepts (accepts : kind.accepts property) :
    recipient? (kind :: after) property = some kind :=
  List.find?_cons_of_pos accepts

theorem recipient?_cons_of_refuses (refuses : kind.accepts property = false) :
    recipient? (kind :: after) property = recipient? after property :=
  List.find?_cons_of_neg (by rw [refuses]; exact Bool.false_ne_true)

theorem recipient?_eq_none_iff :
    recipient? before property = none ↔ ∀ kind ∈ before, kind.accepts property = false := by
  simp [recipient?]

/-- A property goes to the kind behind all those that refuse it. -/
theorem recipient?_of_refused (refused : ∀ earlier ∈ before, earlier.accepts property = false)
    (accepts : kind.accepts property) :
    recipient? (before ++ kind :: after) property = some kind := by
  rw [recipient?_append, recipient?_eq_none_iff.mpr refused, Option.none_or,
    recipient?_cons_of_accepts accepts]

/-- Nothing goes to a kind behind others that accept all that it accepts. -/
theorem recipient?_insert (covered : kind.CoveredBy before) (property : Property) :
    recipient? (before ++ kind :: after) property = recipient? (before ++ after) property := by
  rw [recipient?_append, recipient?_append]
  cases accepted : kind.accepts property with
  | false => rw [recipient?_cons_of_refuses accepted]
  | true =>
    obtain ⟨other, present, accepts⟩ := covered property accepted
    -- the property does not come past the kinds in front
    cases found : recipient? before property with
    | some recipient => rfl
    | none =>
      rw [recipient?_eq_none_iff.mp found other present] at accepts
      contradiction

/-- Which of two kinds stands in front only matters to a property that both of them accept. -/
theorem recipient?_exchange (disjoint : first.Disjoint second) (property : Property) :
    recipient? (before ++ first :: second :: after) property =
      recipient? (before ++ second :: first :: after) property := by
  rw [recipient?_append, recipient?_append]
  congr 1
  cases acceptedFirst : first.accepts property with
  | true =>
    have refusedSecond := disjoint property acceptedFirst
    rw [recipient?_cons_of_accepts acceptedFirst, recipient?_cons_of_refuses refusedSecond,
      recipient?_cons_of_accepts acceptedFirst]
  | false =>
    rw [recipient?_cons_of_refuses acceptedFirst]
    cases acceptedSecond : second.accepts property with
    | true =>
      rw [recipient?_cons_of_accepts acceptedSecond, recipient?_cons_of_accepts acceptedSecond]
    | false =>
      rw [recipient?_cons_of_refuses acceptedSecond, recipient?_cons_of_refuses acceptedSecond,
        recipient?_cons_of_refuses acceptedFirst]

/-! ## Decoding -/

section Decoding

variable [AttachmentPoint Point]

/-- The recipient of a property applies it, and the other properties follow. -/
theorem decode_cons (kinds : List (PropertyKind Point)) (point : Point) (property : Property)
    (rest : List Property) (problem : Problem) :
    decode kinds point (property :: rest) problem =
      match recipient? kinds property with
      | none => (problem, .error (.unrecognizedProperty (AttachmentPoint.describe point) property))
      | some kind => (kind.install problem point property).andThen (decode kinds point rest) := by
  rw [decode]
  unfold recipient?
  cases kinds.find? fun kind => kind.accepts property with
  | none => rfl
  | some kind =>
    rcases kind.install problem point property with ⟨changed, _ | _⟩ <;> rfl

/-- Only where the properties go matters. -/
theorem decode_congr {kinds others : List (PropertyKind Point)}
    (same : ∀ property, recipient? kinds property = recipient? others property) (point : Point)
    (properties : List Property) (problem : Problem) :
    decode kinds point properties problem = decode others point properties problem := by
  -- each property leaves another problem to the rest, so the statement is for any problem
  induction properties generalizing problem with
  | nil => rfl
  | cons property rest inductionHypothesis =>
    have alike : decode kinds point rest = decode others point rest := funext inductionHypothesis
    rw [decode_cons, decode_cons, same property, alike]

/-- A property is applied by the first kind that accepts it.  A kind may be put behind kinds that
accept all that it accepts, and two neighbours that accept nothing in common may change places: what
is left of a problem and how decoding ends stay the same. -/
theorem decodeOptional_first_match (before after : List (PropertyKind Point)) (point : Point)
    (problem : Problem) :
    (∀ kind property rest, (∀ earlier ∈ before, earlier.accepts property = false) →
      kind.accepts property →
      decodeOptional (before ++ kind :: after) point (some (property :: rest)) problem =
        (kind.install problem point property).andThen
          (decodeOptional (before ++ kind :: after) point (some rest))) ∧
    (∀ kind properties, kind.CoveredBy before →
      decodeOptional (before ++ kind :: after) point properties problem =
        decodeOptional (before ++ after) point properties problem) ∧
    (∀ first second properties, Disjoint first second →
      decodeOptional (before ++ first :: second :: after) point properties problem =
        decodeOptional (before ++ second :: first :: after) point properties problem) := by
  refine ⟨?recipient, ?covered, ?disjoint⟩
  case recipient =>
    intro kind property rest refused accepts
    have found : recipient? (before ++ kind :: after) property = some kind :=
      recipient?_of_refused refused accepts
    simp only [decodeOptional, Option.getD_some, decode_cons, found]
    rfl
  case covered =>
    intro kind properties covered
    exact decode_congr (recipient?_insert covered) point (properties.getD []) problem
  case disjoint =>
    intro first second properties disjoint
    exact decode_congr (recipient?_exchange disjoint) point (properties.getD []) problem

end Decoding

theorem latency_disjoint_limit : latency.Disjoint limit := by
  intro property accepts
  rw [limit_carries.accepts, latency_ignores.1 property accepts]
  rfl

/-- Two latencies and a limit, then a property of dependences and another limit. -/
def mixedProperties : List Property :=
  [.ofNumber "latency" 2, .ofNumber "limit" 1, .ofNumber "latency" 3, .ofNumber "distance" 4,
    .ofNumber "limit" 5]

/-- A second meaning of latencies is never used behind the first one, and is the only one used in
front of it.  Decoding ends at the property of dependences. -/
theorem decodeOptional_first_match_shadowed :
    let alu : OperatorType := ⟨"alu"⟩
    let problem := Problem.empty "shadowed" "SharedOperatorsProblem"
    let decoded (kinds : List (PropertyKind OperatorType)) :=
      decodeOptional kinds alu (some mixedProperties) problem
    latencyAsLimit.CoveredBy [latency, limit] ∧ latency.Disjoint limit ∧
      decoded [latency, limit, latencyAsLimit] = decoded [latency, limit] ∧
      decoded [latency, limit] = decoded [limit, latency] ∧
      (decoded [latency, limit]).2 =
        .error (.unrecognizedProperty "operator type @alu" (.ofNumber "distance" 4)) ∧
      (decoded [latency, limit]).1.latency alu = some 3 ∧
      (decoded [latency, limit]).1.limit alu = some 1 ∧
      limit.accepts (.ofNumber "latency" 2) = false ∧ latencyAsLimit.accepts (.ofNumber "latency" 2) ∧
      decoded [limit, latencyAsLimit, latency] =
        (latencyAsLimit.install problem alu (.ofNumber "latency" 2)).andThen
          (decodeOptional [limit, latencyAsLimit, latency] alu (some mixedProperties.tail)) ∧
      (decoded [limit, latencyAsLimit, latency]).1.latency alu = none ∧
      (decoded [limit, latencyAsLimit, latency]).1.limit alu = some 3 := by
  intro alu problem decoded
  have covered : latencyAsLimit.CoveredBy [latency, limit] :=
    fun _ accepts => ⟨latency, .head _, accepts⟩
  have refused : ∀ earlier ∈ [limit], earlier.accepts (.ofNumber "latency" 2) = false :=
    List.forall_mem_singleton.mpr rfl
  obtain ⟨_, insert, _⟩ := decodeOptional_first_match [latency, limit] [] alu problem
  obtain ⟨_, _, exchange⟩ := decodeOptional_first_match [] [] alu problem
  obtain ⟨recipient, _, _⟩ := decodeOptional_first_match [limit] [latency] alu problem
  exact ⟨covered, latency_disjoint_limit, insert _ _ covered, exchange _ _ _ latency_disjoint_limit,
    rfl, rfl, rfl, rfl, rfl, recipient _ _ _ refused rfl, rfl, rfl⟩

end PropertyKind

end StaticScheduling
