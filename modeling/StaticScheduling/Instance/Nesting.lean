import StaticScheduling.ParseError

/-!
# How deep properties nest
-/

namespace StaticScheduling

/-- The number of properties that enclose a place, and how many may. -/
structure Nesting where
  limit : Nat
  depth : Nat
deriving DecidableEq, Repr, Inhabited

namespace Nesting

/-- The limit where none is asked for. -/
def defaultLimit : Nat := 64

def outermost (limit : Nat) : Nesting := ⟨limit, 0⟩

/-- One property further in, if the limit allows it. -/
def deeper? (nesting : Nesting) : Option Nesting :=
  if nesting.depth < nesting.limit then some { nesting with depth := nesting.depth + 1 } else none

def tooDeepMessage (limit : Nat) : String :=
  "attribute parameters nest deeper than " ++ toString limit ++ " levels"

def descend (nesting : Nesting) (position : Position) : Except ParseError Nesting :=
  match nesting.deeper? with
  | some deeper => .ok deeper
  | none => .error ⟨.nestingTooDeep, position, tooDeepMessage nesting.limit, none⟩

/-- Steps out of a property; outside of every property there is nothing to step out of. -/
def ascend (nesting : Nesting) : Nesting := { nesting with depth := nesting.depth - 1 }

def reset (nesting : Nesting) : Nesting := outermost nesting.limit

/-- One property further in, one property less may open. -/
theorem remaining_lt_of_deeper? {nesting deeper : Nesting} (inside : nesting.deeper? = some deeper) :
    deeper.limit - deeper.depth < nesting.limit - nesting.depth := by
  unfold deeper? at inside
  split at inside
  · cases inside
    simp only
    omega
  · cases inside

end Nesting

end StaticScheduling
