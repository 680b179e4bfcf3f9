/-! # Computations that succeed or fail

What is known of the parts of a computation once the whole of it has answered a
value or an error: the parts of a sequence, of a loop over a list, and of a
computation whose errors are relabelled.
-/

namespace StaticScheduling

variable {Error Other First Second : Type}

theorem ok_bind (value : First) (next : First → Except Error Second) :
    (Except.ok value >>= next) = next value := rfl

@[simp] theorem bind_eq_ok_iff {computation : Except Error First}
    {next : First → Except Error Second} {value : Second} :
    (computation >>= next) = .ok value ↔
      ∃ middle, computation = .ok middle ∧ next middle = .ok value := by
  cases computation with
  | error error => exact ⟨nofun, nofun⟩
  | ok middle =>
    constructor
    · intro succeeds
      exact ⟨middle, rfl, succeeds⟩
    · rintro ⟨_, same, succeeds⟩
      cases same
      exact succeeds

theorem bind_eq_error_iff {computation : Except Error First} {next : First → Except Error Second}
    {error : Error} :
    (computation >>= next) = .error error ↔
      computation = .error error ∨ ∃ middle, computation = .ok middle ∧ next middle = .error error := by
  cases computation with
  | error other =>
    constructor
    · intro fails
      cases fails
      exact .inl rfl
    · rintro (same | ⟨_, succeeds, _⟩)
      · cases same
        rfl
      · cases succeeds
  | ok middle =>
    constructor
    · intro fails
      exact .inr ⟨middle, rfl, fails⟩
    · rintro (fails | ⟨_, same, fails⟩)
      · cases fails
      · cases same
        exact fails

/-- What a check answers carries nothing. -/
@[simp] theorem exists_unit {holds : Unit → Prop} : (∃ answer, holds answer) ↔ holds () :=
  ⟨fun ⟨(), held⟩ => held, fun held => ⟨(), held⟩⟩

@[simp] theorem mapError_eq_ok_iff {relabel : Error → Other} {computation : Except Error First}
    {value : First} : computation.mapError relabel = .ok value ↔ computation = .ok value := by
  cases computation with
  | error error => exact ⟨nofun, nofun⟩
  | ok middle =>
    constructor
    · intro same
      cases same
      rfl
    · intro same
      cases same
      rfl

/-- A loop succeeds if each of its rounds does. -/
theorem forM_eq_ok_iff {action : First → Except Error Unit} {items : List First} :
    items.forM action = .ok () ↔ ∀ item ∈ items, action item = .ok () := by
  induction items with
  | nil => exact ⟨fun _ => nofun, fun _ => rfl⟩
  | cons item items inductionHypothesis =>
    rw [List.forM_eq_forM, List.forM_cons, bind_eq_ok_iff, exists_unit, List.forall_mem_cons,
      ← inductionHypothesis]
    rfl

/-- A loop over numbered items, where the numbers do not decide what succeeds. -/
theorem forM_zipIdx_eq_ok_iff {action : First × Nat → Except Error Unit} {items : List First}
    {holds : First → Prop}
    (succeeds : ∀ item position, action (item, position) = .ok () ↔ holds item) :
    items.zipIdx.forM action = .ok () ↔ ∀ item ∈ items, holds item := by
  rw [forM_eq_ok_iff]
  constructor
  · intro all item member
    obtain ⟨position, inside⟩ := List.getElem?_of_mem member
    exact (succeeds item position).mp
      (all (item, position) (List.mem_zipIdx_iff_getElem?.mpr inside))
  · rintro all ⟨item, position⟩ member
    have inside := List.mem_zipIdx_iff_getElem?.mp member
    exact (succeeds item position).mpr (all item (List.mem_of_getElem? inside))

/-- A loop fails with its first round that does. -/
theorem forM_eq_error_iff {action : First → Except Error Unit} {items : List First} {error : Error} :
    items.forM action = .error error ↔
      ∃ before item after, items = before ++ item :: after ∧
        (∀ earlier ∈ before, action earlier = .ok ()) ∧ action item = .error error := by
  induction items with
  | nil =>
    constructor
    · nofun
    · rintro ⟨before, item, after, split, _⟩
      cases before <;> cases split
  | cons first rest inductionHypothesis =>
    rw [List.forM_eq_forM, List.forM_cons, bind_eq_error_iff, ← List.forM_eq_forM]
    constructor
    · rintro (fails | ⟨_, succeeds, fails⟩)
      · exact ⟨[], first, rest, rfl, nofun, fails⟩
      · obtain ⟨before, item, after, rfl, earlier, here⟩ := inductionHypothesis.mp fails
        exact ⟨first :: before, item, after, rfl,
          List.forall_mem_cons.mpr ⟨succeeds, earlier⟩, here⟩
    · rintro ⟨before, item, after, split, earlier, here⟩
      cases before with
      | nil =>
        cases split
        exact .inl here
      | cons head before =>
        cases split
        obtain ⟨succeeds, earlier⟩ := List.forall_mem_cons.mp earlier
        exact .inr ⟨(), succeeds,
          inductionHypothesis.mpr ⟨before, item, after, rfl, earlier, here⟩⟩

/-- What a loop over a list answers: the answers of its rounds. -/
theorem mapM_eq_ok_iff {action : First → Except Error Second} {items : List First}
    {values : List Second} :
    items.mapM action = .ok values ↔ items.map action = values.map .ok := by
  induction items generalizing values with
  | nil =>
    cases values with
    | nil => exact ⟨fun _ => rfl, fun _ => rfl⟩
    | cons value values => exact ⟨nofun, nofun⟩
  | cons item items inductionHypothesis =>
    rw [List.mapM_cons, bind_eq_ok_iff, List.map_cons]
    constructor
    · rintro ⟨first, answered, succeeds⟩
      obtain ⟨more, others, same⟩ := bind_eq_ok_iff.mp succeeds
      cases same
      rw [List.map_cons, answered, inductionHypothesis.mp others]
    · intro same
      cases values with
      | nil => cases same
      | cons first more =>
        obtain ⟨answered, others⟩ := List.cons.inj same
        exact ⟨first, answered, bind_eq_ok_iff.mpr ⟨more, inductionHypothesis.mpr others, rfl⟩⟩

/-! ## Ways to fail -/

/-- A computation that fails only in the allowed ways, if it fails. -/
def FailsOnly (allowed : Error → Prop) (computation : Except Error First) : Prop :=
  ∀ error, computation = .error error → allowed error

namespace FailsOnly

variable {allowed more : Error → Prop} {computation : Except Error First}

theorem of_eq_ok {value : First} (succeeds : computation = .ok value) :
    FailsOnly allowed computation := by
  intro error fails
  rw [succeeds] at fails
  cases fails

theorem mono (failsOnly : FailsOnly allowed computation)
    (also : ∀ error, allowed error → more error) : FailsOnly more computation :=
  fun error fails => also error (failsOnly error fails)

theorem bind {next : First → Except Error Second} (failsOnly : FailsOnly allowed computation)
    (nextFailsOnly : ∀ value, computation = .ok value → FailsOnly allowed (next value)) :
    FailsOnly allowed (computation >>= next) := by
  intro error fails
  rcases bind_eq_error_iff.mp fails with fails | ⟨value, succeeds, fails⟩
  · exact failsOnly error fails
  · exact nextFailsOnly value succeeds error fails

theorem forM {action : First → Except Error Unit} {items : List First}
    (failsOnly : ∀ item ∈ items, FailsOnly allowed (action item)) :
    FailsOnly allowed (items.forM action) := by
  intro error fails
  obtain ⟨before, item, after, rfl, _, fails⟩ := forM_eq_error_iff.mp fails
  exact failsOnly item (List.mem_append_right _ (List.mem_cons_self ..)) error fails

end FailsOnly

end StaticScheduling
