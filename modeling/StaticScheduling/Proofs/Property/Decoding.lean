import StaticScheduling.Proofs.Property.Values
import StaticScheduling.Proofs.Success

/-! # Built-in kinds

Each built-in kind carries one value from properties to a table of the problem
and back.  A list of built-in kinds therefore acts on a problem by the last
values in the properties alone: which kinds are in the list, in which order and
how often, only decides which properties are accepted.
-/

namespace StaticScheduling

open PropertyKind

@[simp] theorem within_eq_ok_iff {Value : Type} {result : Except ProblemError Value}
    {context : ModelContext} {value : Value} :
    ProblemError.within result context = .ok value ↔ result = .ok value := by
  cases result with
  | ok value => simp [ProblemError.within]
  | error error => simp [ProblemError.within]

/-- Lists of kinds in which only built-in kinds stand, in any order and any number. -/
structure ProblemKinds.BuiltIn (kinds : ProblemKinds) : Prop where
  operation : ∀ kind ∈ kinds.operation, kind = link ∨ kind = startTime
  operatorType : ∀ kind ∈ kinds.operatorType, kind = latency ∨ kind = limit
  dependence : ∀ kind ∈ kinds.dependence, kind = distance
  problem : ∀ kind ∈ kinds.problem, kind = initiationInterval

/-- The kinds that belong to the name of a problem are built in. -/
theorem ProblemKinds.builtIn_of_ofProblemName? {name : String} {kinds : ProblemKinds}
    (known : ofProblemName? name = some kinds) : kinds.BuiltIn := by
  -- every name that is known selects one of the four presets
  have presets : kinds = acyclic ∨ kinds = cyclic ∨ kinds = sharedOperators ∨ kinds = modulo := by
    grind [ofProblemName?]
  rcases presets with rfl | rfl | rfl | rfl
  all_goals
    constructor <;> simp [acyclic, cyclic, sharedOperators, modulo]

/-! ## What a kind carries -/

namespace PropertyKind

variable {Point Value : Type} {kind target : PropertyKind Point} {kinds : List (PropertyKind Point)}
  {read : Property → Option Value} {write : Value → Property}
  {get : Problem → Point → Option Value}

/-- A kind that carries the values that `read` finds in properties to what `get` finds in problems,
and writes them back with `write`. -/
structure Carries (kind : PropertyKind Point) (read : Property → Option Value)
    (write : Value → Property) (get : Problem → Point → Option Value) : Prop where
  accepts : ∀ property, kind.accepts property = (read property).isSome
  query : ∀ problem point, kind.query problem point = (get problem point).map write
  reads : ∀ value, read (write value) = some value
  writes : ∀ property value, read property = some value → write value = property

theorem ofNumber_carries (name mnemonic : String) (label : Point → String)
    (set : Problem → Point → UInt32 → Except DocumentError Problem)
    (get : Problem → Point → Option UInt32) :
    (ofNumber name mnemonic label set get).Carries (Property.number? mnemonic)
      (Property.ofNumber mnemonic) get where
  accepts _ := rfl
  query _ _ := rfl
  reads := Property.number?_ofNumber mnemonic
  writes _ _ := Property.ofNumber_of_number?

theorem link_carries : link.Carries Property.link? Property.ofLink Problem.link where
  accepts property := by simp [link, Property.link?]
  query _ _ := rfl
  reads := Property.link?_ofLink
  writes _ _ := Property.ofLink_of_link?

/-- A kind whose properties say nothing to a reader of another kind. -/
def Ignores (kind : PropertyKind Point) (read : Property → Option Value) : Prop :=
  (∀ property, kind.accepts property → read property = none) ∧
    ∀ problem point, (kind.query problem point).bind read = none

theorem Carries.ignores {Other : Type} {other : Property → Option Other}
    (carries : kind.Carries read write get) (silent : ∀ value, other (write value) = none) :
    kind.Ignores other := by
  constructor
  · intro property accepted
    rw [carries.accepts, Option.isSome_iff_exists] at accepted
    -- an accepted property is one that was written
    obtain ⟨value, found⟩ := accepted
    rw [← carries.writes property value found]
    exact silent value
  · intro problem point
    rw [carries.query]
    cases get problem point with
    | none => rfl
    | some value => exact silent value

/-- Kinds of which only one, wherever it stands, says something to a reader. -/
def Singles (kinds : List (PropertyKind Point)) (target : PropertyKind Point)
    (read : Property → Option Value) : Prop :=
  ∀ kind ∈ kinds, kind = target ∨ kind.Ignores read

/-- Properties each of which is accepted by some kind. -/
def Accepted (kinds : List (PropertyKind Point)) (properties : Option (List Property)) : Prop :=
  ∀ property ∈ properties.getD [], ∃ kind ∈ kinds, kind.accepts property

instance (kinds : List (PropertyKind Point)) (properties : Option (List Property)) :
    Decidable (Accepted kinds properties) :=
  inferInstanceAs (Decidable (∀ property ∈ properties.getD [], ∃ kind ∈ kinds, kind.accepts property))

/-- Accepted properties hold no value of a kind that is not in the list. -/
theorem Singles.last?_of_not_mem (singles : Singles kinds target read) (absent : target ∉ kinds)
    {properties : Option (List Property)} (accepted : Accepted kinds properties) :
    Property.last? read (properties.getD []) = none := by
  apply Property.last?_eq_none
  intro property member
  obtain ⟨kind, present, accepts⟩ := accepted property member
  rcases singles kind present with rfl | ignores
  · exact absurd present absent
  · exact ignores.1 property accepts

/-! ## Encoding -/

theorem getD_encode (kinds : List (PropertyKind Point)) (problem : Problem) (point : Point) :
    (encode kinds problem point).getD [] =
      kinds.filterMap fun kind => kind.query problem point := by
  unfold encode
  split
  · rename_i empty
    rw [empty, Option.getD_none]
  · rename_i properties
    rw [properties, Option.getD_some]

/-- A value that is kept where it is asked for and dropped elsewhere. -/
def KeptIf (asked : Prop) (original kept : Option Value) : Prop :=
  (asked → kept = original) ∧ (¬ asked → kept = none)

/-- The properties written for a problem hold the value it has, if they are to hold it at all. -/
theorem Carries.keptIf_last?_encode (carries : target.Carries read write get)
    (singles : Singles kinds target read) (problem : Problem) (point : Point) :
    KeptIf (target ∈ kinds) (get problem point)
      (Property.last? read ((encode kinds problem point).getD [])) := by
  -- induction on the kinds: the value is written by each occurrence of the target, by no other kind
  have own : (target.query problem point).bind read = get problem point := by
    rw [carries.query]
    cases get problem point with
    | none => rfl
    | some value => exact carries.reads value
  rw [getD_encode, Property.last?, List.filterMap_filterMap]
  clear carries
  induction kinds with
  | nil => exact ⟨fun asked => absurd asked List.not_mem_nil, fun _ => rfl⟩
  | cons kind kinds inductionHypothesis =>
    obtain ⟨kept, dropped⟩ :=
      inductionHypothesis fun kind member => singles kind (.tail _ member)
    -- the last value wins, so the rest of the list is asked first
    have split : ((kind :: kinds).filterMap fun kind =>
        (kind.query problem point).bind read).getLast? =
          ((kinds.filterMap fun kind => (kind.query problem point).bind read).getLast?).or
            ((kind.query problem point).bind read) := by
      rw [List.filterMap_cons]
      cases (kind.query problem point).bind read with
      | none => simp
      | some value => simp [List.getLast?_cons]
    rw [split]
    constructor
    · intro asked
      by_cases later : target ∈ kinds
      · rw [kept later]
        rcases singles kind (.head _) with rfl | ignores
        · rw [own]
          cases get problem point <;> rfl
        · rw [ignores.2, Option.or_none]
      · have here : target = kind := (List.mem_cons.mp asked).resolve_right later
        rw [dropped later, ← here, own, Option.none_or]
    · intro absent
      obtain ⟨different, absent⟩ := not_or.mp (mt List.mem_cons.mpr absent)
      rw [dropped absent, Option.none_or]
      exact ((singles kind (.head _)).resolve_left (Ne.symm different)).2 problem point

/-- What is written is accepted. -/
theorem accepted_encode {problem : Problem} {point : Point}
    (honest : ∀ kind ∈ kinds, ∀ property, kind.query problem point = some property →
      kind.accepts property) : Accepted kinds (encode kinds problem point) := by
  intro property member
  rw [getD_encode] at member
  obtain ⟨kind, present, query⟩ := List.mem_filterMap.mp member
  exact ⟨kind, present, honest kind present property query⟩

theorem Carries.accepts_query (carries : kind.Carries read write get) {problem : Problem}
    {point : Point} {property : Property} (query : kind.query problem point = some property) :
    kind.accepts property := by
  rw [carries.query] at query
  obtain ⟨value, _, rfl⟩ := Option.map_eq_some_iff.mp query
  rw [carries.accepts, carries.reads, Option.isSome_some]

/-! ## Decoding -/

/-- How a list of kinds acts on problems that are ready for it: properties taken one by one change
the problem as `annotate` says. -/
structure Interpreted (kinds : List (PropertyKind Point)) (point : Point) (ready : Problem → Prop)
    (annotate : Problem → List Property → Problem) : Prop where
  nil : ∀ problem, annotate problem [] = problem
  cons : ∀ problem first rest,
    annotate problem (first :: rest) = annotate (annotate problem [first]) rest
  stays : ∀ problem property, ready problem → ready (annotate problem [property])
  installs : ∀ kind ∈ kinds, ∀ problem property, ready problem → kind.accepts property →
    kind.install problem point property = (annotate problem [property], .ok ())

theorem Interpreted.decodeOptional_eq_ok_iff [AttachmentPoint Point] {point : Point}
    {ready : Problem → Prop} {annotate : Problem → List Property → Problem}
    (interpreted : Interpreted kinds point ready annotate) {properties : Option (List Property)}
    {problem changed : Problem} (isReady : ready problem) :
    (decodeOptional kinds point properties problem).toExcept = .ok changed ↔
      Accepted kinds properties ∧ changed = annotate problem (properties.getD []) := by
  simp only [decodeOptional, Accepted]
  -- the problem changes with each property, so the statement is for any problem that is ready
  induction properties.getD [] generalizing problem with
  | nil =>
    rw [interpreted.nil]
    constructor
    · intro same
      cases same
      exact ⟨nofun, rfl⟩
    · rintro ⟨_, rfl⟩
      rfl
  | cons property rest inductionHypothesis =>
    rw [decode, interpreted.cons, List.forall_mem_cons]
    split
    · rename_i refused
      have refused := List.find?_eq_none.mp refused
      constructor
      · exact nofun
      · rintro ⟨⟨⟨kind, present, accepts⟩, _⟩, _⟩
        exact absurd accepts (refused kind present)
    · rename_i kind found
      have present := List.mem_of_find?_eq_some found
      have accepts := List.find?_some found
      simp only [interpreted.installs kind present problem property isReady accepts]
      rw [inductionHypothesis (interpreted.stays problem property isReady)]
      exact ⟨fun ⟨more, same⟩ => ⟨⟨⟨kind, present, accepts⟩, more⟩, same⟩,
        fun ⟨⟨_, more⟩, same⟩ => ⟨more, same⟩⟩

/-- Properties are only refused if no kind accepts one of them. -/
theorem Interpreted.failsOnly_decodeOptional [AttachmentPoint Point] {point : Point}
    {ready : Problem → Prop} {annotate : Problem → List Property → Problem}
    (interpreted : Interpreted kinds point ready annotate) {properties : Option (List Property)}
    {problem : Problem} (isReady : ready problem) :
    FailsOnly
      (fun error => ∃ property ∈ properties.getD [], (∀ kind ∈ kinds, ¬ kind.accepts property) ∧
        error = .unrecognizedProperty (AttachmentPoint.describe point) property)
      (decodeOptional kinds point properties problem).toExcept := by
  rw [decodeOptional]
  induction properties.getD [] generalizing problem with
  | nil => exact FailsOnly.of_eq_ok rfl
  | cons property rest inductionHypothesis =>
    rw [decode]
    split
    · rename_i refused
      intro error failed
      cases failed
      exact ⟨property, List.mem_cons_self .., List.find?_eq_none.mp refused, rfl⟩
    · rename_i kind found
      have present := List.mem_of_find?_eq_some found
      have accepts := List.find?_some found
      simp only [interpreted.installs kind present problem property isReady accepts]
      refine (inductionHypothesis (interpreted.stays problem property isReady)).mono ?_
      rintro error ⟨other, member, refused⟩
      exact ⟨other, List.mem_cons_of_mem _ member, refused⟩

end PropertyKind

end StaticScheduling
