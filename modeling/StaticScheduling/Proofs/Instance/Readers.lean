import StaticScheduling.Instance.Reading
import StaticScheduling.Proofs.Instance.Derivation

/-! # Readers of phrases

A reader answers what a phrase at the head of its input says, and finds every
phrase behind which nothing comes that it could go on with.  Readers of lists do
so if the readers of their items do.
-/

namespace StaticScheduling

open Phrase

namespace Reading

/-! ## Single tokens -/

@[simp] theorem startsWith_cons (wanted : Delimiter) (kind : TokenKind) (rest : List TokenKind) :
    startsWith wanted (kind :: rest) = decide (kind = .delimiter wanted) := by
  simp [startsWith]

theorem startsWith_eq_true_iff {wanted : Delimiter} {kinds : List TokenKind} :
    startsWith wanted kinds = true ↔ ∃ rest, kinds = .delimiter wanted :: rest := by
  cases kinds with
  | nil => simp [startsWith]
  | cons kind rest => simp

theorem mark_eq_ok_iff {wanted : Delimiter} {kinds rest : List TokenKind} :
    mark wanted kinds = .ok rest ↔ kinds = .delimiter wanted :: rest := by
  cases kinds with
  | nil => simp [mark, expected]
  | cons kind tail =>
    cases kind with
    | delimiter found => by_cases same : found = wanted <;> simp [mark, expected, same]
    | _ => simp [mark, expected]

theorem word_eq_ok_iff {wanted : Keyword} {kinds rest : List TokenKind} :
    word wanted kinds = .ok rest ↔ kinds = .keyword wanted :: rest := by
  cases kinds with
  | nil => simp [word, expected]
  | cons kind tail =>
    cases kind with
    | keyword found => by_cases same : found = wanted <;> simp [word, expected, same]
    | _ => simp [word, expected]

theorem symbol_eq_ok_iff {expectation : Expectation} {kinds rest : List TokenKind}
    {name : String} :
    symbol expectation kinds = .ok (name, rest) ↔ kinds = .symbol name :: rest := by
  cases kinds with
  | nil => simp [symbol, expected]
  | cons kind tail => cases kind <;> simp [symbol, expected]

theorem value_eq_ok_iff {kinds rest : List TokenKind} {name : String} :
    value kinds = .ok (name, rest) ↔ kinds = .value name :: rest := by
  cases kinds with
  | nil => simp [value, expected]
  | cons kind tail => cases kind <;> simp [value, expected]

/-- None of some marks comes next. -/
def Stops (marks : List Delimiter) (rest : List TokenKind) : Prop :=
  ∀ mark ∈ marks, startsWith mark rest = false

/-! ## Readers of phrases -/

/-- A reader of phrases.  Whatever it answers fits, and is what a phrase at the head of its input
says; what such a phrase says is answered if it fits and what comes behind satisfies `ends`. -/
structure Reads {α : Type} (phrase : Phrase α) (fits : α → Prop) (ends : List TokenKind → Prop)
    (read : List TokenKind → Reading (α × List TokenKind)) : Prop where
  sound : ∀ {kinds rest value}, read kinds = .ok (value, rest) →
    fits value ∧ ∃ taken, kinds = taken ++ rest ∧ phrase taken value
  complete : ∀ {taken value} rest, phrase taken value → fits value → ends rest →
    read (taken ++ rest) = .ok (value, rest)

section Items

variable {α : Type} {item : Phrase α} {fits : α → Prop} {ends : List TokenKind → Prop}
  {read : List TokenKind → Reading (α × List TokenKind)}

theorem Reads.commas (reads : Reads item fits ends read)
    (comma : ∀ more, ends (.delimiter .comma :: more)) :
    Reads (Separated item) (fun values => ∀ value ∈ values, fits value)
      (fun rest => ends rest ∧ startsWith .comma rest = false) (commas read) where
  sound := by
    intro kinds rest values succeeds
    -- a list ends where no comma follows, or with an item that took no token
    fun_induction Reading.commas read kinds generalizing rest values with
    | case1 kinds failure failed => cases succeeds
    | case2 kinds first behind found shorter failure failed _ => cases succeeds
    | case3 kinds first behind found shorter more final others inductionHypothesis =>
      cases succeeds
      obtain ⟨fitsFirst, taken, rfl, here⟩ := reads.sound found
      obtain ⟨fitsMore, tail, rfl, there⟩ := inductionHypothesis others
      refine ⟨List.forall_mem_cons.mpr ⟨fitsFirst, fitsMore⟩, _, ?_, .more here there⟩
      rw [List.append_assoc, List.cons_append]
    | case4 kinds first behind found longer =>
      cases succeeds
      obtain ⟨fitsFirst, taken, rfl, here⟩ := reads.sound found
      exact ⟨List.forall_mem_singleton.mpr fitsFirst, taken, rfl, .last here⟩
    | case5 kinds first behind other found =>
      cases succeeds
      obtain ⟨fitsFirst, taken, rfl, here⟩ := reads.sound found
      exact ⟨List.forall_mem_singleton.mpr fitsFirst, taken, rfl, .last here⟩
  complete := by
    rintro taken values rest derives fitsAll ⟨last, noComma⟩
    -- every item but the last stands before a comma, the last one before what ends the list
    induction derives with
    | last only =>
      have found := reads.complete rest only (List.forall_mem_singleton.mp fitsAll) last
      rw [Reading.commas, found]
      split
      · contradiction
      · rename_i same
        cases same
        simp at noComma
      · rename_i same
        cases same
        rfl
    | @more kinds tail value values first others inductionHypothesis =>
      obtain ⟨fitsFirst, fitsMore⟩ := List.forall_mem_cons.mp fitsAll
      have found := reads.complete (.delimiter .comma :: (tail ++ rest)) first fitsFirst (comma _)
      have shorter : (tail ++ rest).length <
          (kinds ++ .delimiter .comma :: (tail ++ rest)).length := by
        simp only [List.length_append, List.length_cons]
        omega
      rw [List.append_assoc, List.cons_append, Reading.commas, found]
      simp only [shorter, if_true, inductionHypothesis fitsMore]

/-- A list up to a closing mark says by itself where it ends. -/
theorem Reads.commasUntil (reads : Reads item fits ends read) (close : Delimiter)
    (comma : ∀ more, ends (.delimiter .comma :: more))
    (closed : ∀ more, ends (.delimiter close :: more)) (noComma : close ≠ .comma)
    (opens : ∀ {taken value}, item taken value → ∀ rest, startsWith close (taken ++ rest) = false) :
    Reads (Listed item close) (fun values => ∀ value ∈ values, fits value) (fun _ => True)
      (commasUntil read close) where
  sound := by
    intro kinds rest values succeeds
    unfold Reading.commasUntil at succeeds
    split at succeeds
    · rename_i starts
      obtain ⟨behind, rfl⟩ := startsWith_eq_true_iff.mp starts
      cases succeeds
      exact ⟨nofun, _, rfl, .empty⟩
    · split at succeeds
      · cases succeeds
      · rename_i items behind found
        obtain ⟨fitsAll, taken, rfl, derives⟩ := (reads.commas comma).sound found
        split at succeeds
        · cases succeeds
        · rename_i final marked
          obtain rfl := mark_eq_ok_iff.mp marked
          cases succeeds
          refine ⟨fitsAll, _, ?_, .items derives⟩
          rw [List.append_assoc, List.singleton_append]
  complete := by
    intro taken values rest listed fitsAll _
    cases listed with
    | empty => simp [Reading.commasUntil]
    | @items kinds _ separated =>
      have starts : startsWith close (kinds ++ .delimiter close :: rest) = false := by
        obtain ⟨first, _, behind, derives, rfl⟩ := separated.exists_append
        rw [List.append_assoc]
        exact opens derives _
      have behind : startsWith .comma (.delimiter close :: rest) = false := by simpa using noComma
      have found := (reads.commas comma).complete (.delimiter close :: rest) separated fitsAll
        ⟨closed rest, behind⟩
      have marked : mark close (.delimiter close :: rest) = .ok rest := mark_eq_ok_iff.mpr rfl
      rw [List.append_assoc, List.singleton_append, Reading.commasUntil, starts, found]
      simp only [Bool.false_eq_true, if_false, marked]

/-- Items one behind the other: each may stand before the next one. -/
theorem Reads.many (reads : Reads item fits ends read) {starts : TokenKind → Bool}
    (opens : ∀ {taken value}, item taken value → ∃ kind more, taken = kind :: more ∧ starts kind)
    (next : ∀ kind more, starts kind → ends (kind :: more)) :
    Reads (Repeated item) (fun values => ∀ value ∈ values, fits value)
      (fun rest => ends rest ∧ rest.head?.any starts = false) (many starts read) where
  sound := by
    intro kinds rest values succeeds
    fun_induction Reading.many starts read kinds generalizing rest values with
    | case1 kinds starting failure failed => cases succeeds
    | case2 kinds starting first behind found shorter failure failed _ => cases succeeds
    | case3 kinds starting first behind found shorter more final others inductionHypothesis =>
      cases succeeds
      obtain ⟨fitsFirst, taken, rfl, here⟩ := reads.sound found
      obtain ⟨fitsMore, tail, rfl, there⟩ := inductionHypothesis others
      exact ⟨List.forall_mem_cons.mpr ⟨fitsFirst, fitsMore⟩, _, (List.append_assoc ..).symm,
        .cons here there⟩
    | case4 kinds starting first behind found longer =>
      cases succeeds
      obtain ⟨fitsFirst, taken, rfl, here⟩ := reads.sound found
      exact ⟨List.forall_mem_singleton.mpr fitsFirst, _, by rw [List.append_nil], .cons here .nil⟩
    | case5 kinds stopped =>
      cases succeeds
      exact ⟨nofun, [], rfl, .nil⟩
  complete := by
    rintro taken values rest derives fitsAll ⟨last, stop⟩
    induction derives with
    | nil =>
      rw [List.nil_append, Reading.many, stop]
      rfl
    | @cons kinds tail value values first others inductionHypothesis =>
      obtain ⟨fitsFirst, fitsMore⟩ := List.forall_mem_cons.mp fitsAll
      -- the next item, or what is behind all of them, ends this one
      have endsHere : ends (tail ++ rest) := by
        cases others with
        | nil => exact last
        | cons second _ =>
          obtain ⟨kind, more, rfl, starting⟩ := opens second
          exact next kind _ starting
      have found := reads.complete (tail ++ rest) first fitsFirst endsHere
      obtain ⟨kind, more, rfl, starting⟩ := opens first
      have shorter : (tail ++ rest).length < (kind :: more ++ (tail ++ rest)).length := by
        simp only [List.length_append, List.length_cons]
        omega
      rw [List.append_assoc, Reading.many, found]
      simp only [List.cons_append, List.head?_cons, Option.any_some, starting, if_true] at shorter ⊢
      simp only [shorter, if_true, inductionHypothesis fitsMore]

end Items

end Reading

end StaticScheduling
