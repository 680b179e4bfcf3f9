import StaticScheduling.Loading

/-! # What names stand for

Names are looked up from the front of a document.  Where no name is defined
twice, a name stands for the one operation, or the one result, that bears it.
-/

namespace StaticScheduling

/-- Elements that differ from each other and from those seen before. -/
def Fresh {Element : Type} (seen elements : List Element) : Prop :=
  elements.Nodup ∧ ∀ element ∈ elements, element ∉ seen

section Fresh

variable {Element : Type} {seen : List Element}

theorem fresh_nil : Fresh seen [] := ⟨.nil, nofun⟩

theorem fresh_singleton {element : Element} : Fresh seen [element] ↔ element ∉ seen := by
  simp [Fresh]

theorem fresh_of_nothing {elements : List Element} : Fresh [] elements ↔ elements.Nodup := by
  simp [Fresh]

/-- What comes first has been seen by what comes later. -/
theorem fresh_append {first second : List Element} :
    Fresh seen (first ++ second) ↔ Fresh seen first ∧ Fresh (first ++ seen) second := by
  simp only [Fresh, List.nodup_append, List.mem_append, not_or]
  constructor
  · rintro ⟨⟨firstDistinct, secondDistinct, apart⟩, new⟩
    refine ⟨⟨firstDistinct, fun element member => new element (.inl member)⟩, secondDistinct, ?_⟩
    intro element member
    exact ⟨fun before => apart element before element member rfl, new element (.inr member)⟩
  · rintro ⟨⟨firstDistinct, firstNew⟩, secondDistinct, secondNew⟩
    refine ⟨⟨firstDistinct, secondDistinct, ?_⟩, ?_⟩
    · rintro element before _ member rfl
      exact (secondNew element member).1 before
    · intro element member
      rcases member with member | member
      · exact firstNew element member
      · exact (secondNew element member).2

theorem fresh_cons {first : Element} {rest : List Element} :
    Fresh seen (first :: rest) ↔ first ∉ seen ∧ Fresh (first :: seen) rest := by
  rw [← fresh_singleton]
  exact @fresh_append Element seen [first] rest

theorem Fresh.congr {others elements : List Element}
    (same : ∀ element, element ∈ seen ↔ element ∈ others) :
    Fresh seen elements ↔ Fresh others elements := by
  simp only [Fresh, same]

/-- Images that are noted at the end count as those noted in front. -/
theorem fresh_map_concat {Item : Type} (image : Item → Element) (items : List Item) (last : Item)
    {elements : List Element} :
    Fresh ((items ++ [last]).map image) elements ↔
      Fresh (image last :: items.map image) elements := by
  apply Fresh.congr
  simp [or_comm]

/-- Nothing is repeated if all elements are fresh. -/
theorem firstRepeated?_eq_none_iff [DecidableEq Element] {elements : List Element} :
    firstRepeated? seen elements = none ↔ Fresh seen elements := by
  -- what has been looked at counts as seen for the rest
  induction elements generalizing seen with
  | nil => exact ⟨fun _ => fresh_nil, fun _ => rfl⟩
  | cons first rest inductionHypothesis =>
    rw [firstRepeated?, fresh_cons]
    by_cases repeated : first ∈ seen
    · rw [if_pos repeated]
      exact ⟨nofun, fun ⟨new, _⟩ => absurd repeated new⟩
    · rw [if_neg repeated, inductionHypothesis]
      exact ⟨fun others => ⟨repeated, others⟩, fun ⟨_, others⟩ => others⟩

/-- What is found to be repeated was seen before, or stands twice among the elements. -/
theorem split_of_firstRepeated? [DecidableEq Element] {elements : List Element} {repeated : Element}
    (found : firstRepeated? seen elements = some repeated) :
    ∃ before after, elements = before ++ repeated :: after ∧
      (repeated ∈ seen ∨ repeated ∈ before) := by
  induction elements generalizing seen with
  | nil => cases found
  | cons first rest inductionHypothesis =>
    rw [firstRepeated?] at found
    split at found
    · rename_i old
      cases found
      exact ⟨[], rest, rfl, .inl old⟩
    · obtain ⟨before, after, rfl, old⟩ := inductionHypothesis found
      refine ⟨first :: before, after, rfl, ?_⟩
      -- the first element counts as seen for the rest
      rcases old with old | old
      · rcases List.mem_cons.mp old with rfl | old
        · exact .inr (.head _)
        · exact .inl old
      · exact .inr (.tail _ old)

end Fresh

/-- Where the images of a list are distinct, an image stands at one index only. -/
theorem index_eq_of_nodup_filterMap {Element Image : Type} {image : Element → Option Image}
    {elements : List Element} (distinct : (elements.filterMap image).Nodup) {first second : Nat}
    {value : Image} (firstImage : elements[first]?.bind image = some value)
    (secondImage : elements[second]?.bind image = some value) : first = second := by
  obtain ⟨one, firstAt, firstImage⟩ := Option.bind_eq_some_iff.mp firstImage
  obtain ⟨other, secondAt, secondImage⟩ := Option.bind_eq_some_iff.mp secondImage
  obtain ⟨firstInside, rfl⟩ := List.getElem?_eq_some_iff.mp firstAt
  obtain ⟨secondInside, rfl⟩ := List.getElem?_eq_some_iff.mp secondAt
  have apart := List.pairwise_iff_getElem.mp (List.pairwise_filterMap.mp distinct)
  -- of two different indices one comes first, and distinctness speaks of such pairs
  rcases Nat.lt_trichotomy first second with before | same | behind
  · exact absurd rfl (apart first second firstInside secondInside before value firstImage value
      secondImage)
  · exact same
  · exact absurd rfl (apart second first secondInside firstInside behind value secondImage value
      firstImage)

namespace Instance

variable {document : Instance} {name : String}

/-- The names of the operations that have one. -/
def names (document : Instance) : List String := document.operations.filterMap OperationDecl.name

/-- The name of an operation. -/
def nameOf? (document : Instance) (operation : OperationId) : Option String :=
  document.operations[operation.index]?.bind OperationDecl.name

/-- The name of a result. -/
def valueAt? (document : Instance) (operand : Operand) : Option String :=
  document.operations[operand.source.index]?.bind fun declaration =>
    declaration.results[operand.result]?

/-! ## Operations -/

theorem nameOf?_of_resolveOperation? {operation : OperationId}
    (found : document.resolveOperation? name = some operation) :
    document.nameOf? operation = some name := by
  simp only [resolveOperation?, findOperation?, Option.map_map, Option.map_eq_some_iff] at found
  obtain ⟨entry, first, rfl⟩ := found
  have named := List.find?_some first
  have inside := List.mem_zipIdx_iff_getElem?.mp (List.mem_of_find?_eq_some first)
  simp only [decide_eq_true_eq] at named
  simp only [nameOf?, Function.comp_apply, inside, Option.bind_some, named]

theorem resolveOperation?_isSome_iff :
    (document.resolveOperation? name).isSome ↔ name ∈ document.names := by
  constructor
  · intro found
    obtain ⟨operation, found⟩ := Option.isSome_iff_exists.mp found
    obtain ⟨declaration, inside, named⟩ :=
      Option.bind_eq_some_iff.mp (nameOf?_of_resolveOperation? found)
    exact List.mem_filterMap.mpr ⟨declaration, List.mem_of_getElem? inside, named⟩
  · intro member
    obtain ⟨declaration, present, named⟩ := List.mem_filterMap.mp member
    obtain ⟨position, inside⟩ := List.getElem?_of_mem present
    simp only [resolveOperation?, findOperation?, Option.isSome_map, List.find?_isSome]
    exact ⟨(declaration, position), List.mem_zipIdx_iff_getElem?.mpr inside, decide_eq_true named⟩

/-- Where operations have different names, a name stands for the operation that bears it. -/
theorem resolveOperation?_eq_some_iff (distinct : document.names.Nodup)
    {operation : OperationId} :
    document.resolveOperation? name = some operation ↔ document.nameOf? operation = some name := by
  constructor
  · exact nameOf?_of_resolveOperation?
  · intro named
    obtain ⟨declaration, inside, bears⟩ := Option.bind_eq_some_iff.mp named
    have member : name ∈ document.names :=
      List.mem_filterMap.mpr ⟨declaration, List.mem_of_getElem? inside, bears⟩
    obtain ⟨other, found⟩ := Option.isSome_iff_exists.mp (resolveOperation?_isSome_iff.mpr member)
    -- the name is found somewhere, and there is nowhere else to find it
    have same := index_eq_of_nodup_filterMap distinct (nameOf?_of_resolveOperation? found) named
    rw [found]
    exact congrArg some (congrArg OperationId.mk same)

/-! ## Results -/

theorem valueAt?_of_resolveValue? {operand : Operand}
    (found : document.resolveValue? name = some operand) :
    document.valueAt? operand = some name := by
  obtain ⟨entry, present, here⟩ := List.exists_of_findSome?_eq_some found
  obtain ⟨result, position, rfl⟩ := Option.map_eq_some_iff.mp here
  have inside := List.mem_zipIdx_iff_getElem?.mp present
  obtain ⟨below, same, _⟩ := List.idxOf?_eq_some_iff.mp position
  simp only [valueAt?, inside, Option.bind_some, List.getElem?_eq_some_iff]
  exact ⟨below, same⟩

theorem resolveValue?_isSome_iff :
    (document.resolveValue? name).isSome ↔ name ∈ document.values := by
  simp only [resolveValue?, List.findSome?_isSome_iff, Option.isSome_map, List.isSome_idxOf?,
    values, List.mem_flatMap]
  constructor
  · rintro ⟨entry, present, defined⟩
    exact ⟨entry.1, List.mem_of_getElem? (List.mem_zipIdx_iff_getElem?.mp present), defined⟩
  · rintro ⟨declaration, present, defined⟩
    obtain ⟨position, inside⟩ := List.getElem?_of_mem present
    exact ⟨(declaration, position), List.mem_zipIdx_iff_getElem?.mpr inside, defined⟩

/-- Where results have different names, the name and the position of a result determine each
other. -/
theorem operand_eq_of_valueAt? (distinct : document.values.Nodup) {first second : Operand}
    (firstNamed : document.valueAt? first = some name)
    (secondNamed : document.valueAt? second = some name) : first = second := by
  obtain ⟨⟨firstSource⟩, firstResult⟩ := first
  obtain ⟨⟨secondSource⟩, secondResult⟩ := second
  obtain ⟨one, firstAt, firstNamed⟩ := Option.bind_eq_some_iff.mp firstNamed
  obtain ⟨other, secondAt, secondNamed⟩ := Option.bind_eq_some_iff.mp secondNamed
  obtain ⟨within, apart⟩ := List.pairwise_flatMap.mp distinct
  obtain ⟨firstInside, rfl⟩ := List.getElem?_eq_some_iff.mp firstAt
  obtain ⟨secondInside, rfl⟩ := List.getElem?_eq_some_iff.mp secondAt
  have apart := List.pairwise_iff_getElem.mp apart
  have firstMember := List.mem_of_getElem? firstNamed
  have secondMember := List.mem_of_getElem? secondNamed
  -- results of different operations differ, and so do results of the same one
  rcases Nat.lt_trichotomy firstSource secondSource with before | same | behind
  · exact absurd rfl (apart _ _ firstInside secondInside before name firstMember name secondMember)
  · subst same
    have distinctHere := within _ (List.getElem_mem firstInside)
    have below := (List.getElem?_eq_some_iff.mp firstNamed).1
    have same := (List.getElem?_inj below distinctHere).mp (firstNamed.trans secondNamed.symm)
    exact congrArg (Operand.mk _) same
  · exact absurd rfl (apart _ _ secondInside firstInside behind name secondMember name firstMember)

/-- Where results have different names, a name stands for the result that bears it. -/
theorem resolveValue?_eq_some_iff (distinct : document.values.Nodup) {operand : Operand} :
    document.resolveValue? name = some operand ↔ document.valueAt? operand = some name := by
  constructor
  · exact valueAt?_of_resolveValue?
  · intro named
    obtain ⟨declaration, inside, bears⟩ := Option.bind_eq_some_iff.mp named
    have member : name ∈ document.values :=
      List.mem_flatMap.mpr ⟨declaration, List.mem_of_getElem? inside, List.mem_of_getElem? bears⟩
    obtain ⟨other, found⟩ := Option.isSome_iff_exists.mp (resolveValue?_isSome_iff.mpr member)
    rw [found, operand_eq_of_valueAt? distinct (valueAt?_of_resolveValue? found) named]

end Instance

end StaticScheduling
