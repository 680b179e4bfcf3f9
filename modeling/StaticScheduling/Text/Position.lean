/-!
# Positions in a text

Lines and columns count from one.  Only a newline starts a line, and a column
counts characters.  `Position.advance` says where a reader stands after a piece
of text, and `advance_append` that reading may be split anywhere.
-/

namespace StaticScheduling

structure Position where
  line : Nat
  column : Nat
deriving DecidableEq, Repr, Inhabited

namespace Position

def start : Position := ⟨1, 1⟩

/-- The position of the character after `c`. -/
def step (position : Position) (c : Char) : Position :=
  if c = '\n' then ⟨position.line + 1, 1⟩ else ⟨position.line, position.column + 1⟩

/-- The position reached by stepping over every character of `text`. -/
def advance (position : Position) (text : List Char) : Position :=
  text.foldl step position

@[simp] theorem advance_nil (position : Position) : position.advance [] = position := rfl

@[simp] theorem advance_cons (position : Position) (c : Char) (text : List Char) :
    position.advance (c :: text) = (position.step c).advance text := rfl

@[simp] theorem advance_append (position : Position) (first second : List Char) :
    position.advance (first ++ second) = (position.advance first).advance second := by
  simp only [advance, List.foldl_append]

/-- A position is written `line:column`. -/
def text (position : Position) : String :=
  toString position.line ++ ":" ++ toString position.column

end Position

/-- The half-open range of positions that a token covers. -/
structure Span where
  start : Position
  stop : Position
deriving DecidableEq, Repr, Inhabited

namespace Span

def empty (position : Position) : Span := ⟨position, position⟩

/-- A range within one line names the line once: `1:4..9`, else `1:4..3:2`. -/
def text (span : Span) : String :=
  if span.start.line = span.stop.line then
    span.start.text ++ ".." ++ toString span.stop.column
  else
    span.start.text ++ ".." ++ span.stop.text

end Span

end StaticScheduling
