import StaticScheduling.Text.Position
import StaticScheduling.Text.Blank

/-!
# Reading a text from left to right

A cursor holds the characters still to be read and the position of the first of
them.  Every move is `Cursor.take`, so the position always is the one reached by
stepping over what was read.
-/

namespace StaticScheduling

/-- The characters still to be read, and where the first of them stands. -/
structure Cursor where
  rest : List Char
  position : Position
deriving DecidableEq, Repr, Inhabited

namespace Cursor

def ofText (text : String) : Cursor := ⟨text.toList, Position.start⟩

def isExhausted (cursor : Cursor) : Bool := cursor.rest.isEmpty

/-- The character that stands a number of places ahead. -/
def peek (cursor : Cursor) (n : Nat) : Option Char := cursor.rest[n]?

/-- Reads a number of characters, or those that are left. -/
def take (cursor : Cursor) (n : Nat) : List Char × Cursor :=
  (cursor.rest.take n, ⟨cursor.rest.drop n, cursor.position.advance (cursor.rest.take n)⟩)

/-- Reads one character; a cursor at the end of its text stays there. -/
def next (cursor : Cursor) : Option Char × Cursor :=
  if cursor.isExhausted then (none, cursor) else (cursor.peek 0, (cursor.take 1).2)

/-- Reads the longest run of characters that satisfy `accept`. -/
def takeWhile (cursor : Cursor) (accept : Char → Bool) : List Char × Cursor :=
  cursor.take (cursor.rest.takeWhile accept).length

/-- Reads the white space that the cursor stands before. -/
def skipBlanks (cursor : Cursor) : Cursor := (cursor.takeWhile isBlank).2

/-- The range from an earlier position to the cursor. -/
def spanFrom (cursor : Cursor) (start : Position) : Span := ⟨start, cursor.position⟩

/-- As many characters are read as the first of two parts has, so that the other part is left. -/
theorem take_of_split {cursor : Cursor} {read left : List Char}
    (split : cursor.rest = read ++ left) :
    cursor.take read.length = (read, ⟨left, cursor.position.advance read⟩) := by
  simp only [take, split, List.take_left, List.drop_left]

theorem next_of_nil {cursor : Cursor} (ahead : cursor.rest = []) :
    cursor.next = (none, cursor) := by
  simp only [next, isExhausted, ahead, List.isEmpty_nil, if_true]

theorem next_of_cons {cursor : Cursor} {c : Char} {rest : List Char}
    (ahead : cursor.rest = c :: rest) :
    cursor.next = (some c, ⟨rest, cursor.position.step c⟩) := by
  have one : cursor.take 1 = ([c], ⟨rest, cursor.position.advance [c]⟩) :=
    @take_of_split cursor [c] rest ahead
  simp [next, isExhausted, peek, ahead, one]

theorem takeWhile_eq (cursor : Cursor) (accept : Char → Bool) :
    cursor.takeWhile accept =
      (cursor.rest.takeWhile accept,
        ⟨cursor.rest.dropWhile accept, cursor.position.advance (cursor.rest.takeWhile accept)⟩) :=
  take_of_split List.takeWhile_append_dropWhile.symm

theorem skipBlanks_eq (cursor : Cursor) :
    cursor.skipBlanks =
      ⟨cursor.rest.dropWhile isBlank, cursor.position.advance (cursor.rest.takeWhile isBlank)⟩ := by
  rw [skipBlanks, takeWhile_eq]

theorem skipBlanks_rest_length_le (cursor : Cursor) :
    cursor.skipBlanks.rest.length ≤ cursor.rest.length := by
  rw [skipBlanks_eq]
  exact (List.dropWhile_suffix isBlank).length_le

end Cursor

end StaticScheduling
