import StaticScheduling.Instance.Entry

/-!
# Canonical text

A document is written as a sequence of tokens, each with the white space before
it.  All formatting decisions are the choice of that white space; how a token is
spelled is `TokenKind.spelling`.
-/

namespace StaticScheduling

/-- A token and the white space written before it. -/
structure Piece where
  blank : String
  kind : TokenKind
deriving DecidableEq, Repr, Inhabited

namespace Piece

def text (piece : Piece) : String := piece.blank ++ piece.kind.spelling

def mark (blank : String) (delimiter : Delimiter) : Piece := ⟨blank, .delimiter delimiter⟩

def word (blank : String) (keyword : Keyword) : Piece := ⟨blank, .keyword keyword⟩

end Piece

def Layout.text (pieces : List Piece) : String := String.join (pieces.map Piece.text)

/-- Items with a comma between each two; `item` is told the white space before it. -/
def Layout.commas {α : Type} (item : String → α → List Piece) (blank : String) :
    List α → List Piece
  | [] => []
  | first :: rest =>
    item blank first ++ rest.flatMap fun next => Piece.mark "" .comma :: item " " next

mutual

/-- A property; parameters stand in angle brackets, if there are any. -/
def Property.pieces (blank : String) : Property → List Piece
  | ⟨dialect, mnemonic, []⟩ => [⟨blank, .attribute dialect mnemonic⟩]
  | ⟨dialect, mnemonic, first :: rest⟩ =>
    ⟨blank, .attribute dialect mnemonic⟩ :: Piece.mark "" .leftAngle ::
      (first.pieces "" ++ Parameter.morePieces rest ++ [Piece.mark "" .rightAngle])

/-- A parameter of a property. -/
def Parameter.pieces (blank : String) : Parameter → List Piece
  | .integer number => [⟨blank, .integer number⟩]
  | .symbol name => [⟨blank, .symbol name⟩]
  | .string text => [⟨blank, .string text⟩]
  | .property nested => nested.pieces blank

def Parameter.morePieces : List Parameter → List Piece
  | [] => []
  | next :: rest => Piece.mark "" .comma :: (next.pieces " " ++ Parameter.morePieces rest)

end

namespace Property

def listPieces (blank : String) (properties : List Property) : List Piece :=
  Piece.mark blank .leftBracket :: (Layout.commas Property.pieces "" properties
    ++ [Piece.mark "" .rightBracket])

/-- A property list that may be absent, behind a space. -/
def optionalPieces : Option (List Property) → List Piece
  | none => []
  | some properties => listPieces " " properties

def text (property : Property) : String := Layout.text (property.pieces "")

def listText (properties : List Property) : String := Layout.text (listPieces "" properties)

end Property

namespace Entry

/-- An entry of an operand list. -/
def pieces (blank : String) : Entry → List Piece
  | .value name properties => ⟨blank, .value name⟩ :: Property.optionalPieces properties
  | .symbol name properties => ⟨blank, .symbol name⟩ :: Property.optionalPieces properties

def listPieces (blank : String) (entries : List Entry) : List Piece :=
  Piece.mark blank .leftParen :: (Layout.commas Entry.pieces "" entries
    ++ [Piece.mark "" .rightParen])

def listText (entries : List Entry) : String := Layout.text (listPieces "" entries)

end Entry

namespace DictionaryEntry

/-- An entry of a dictionary, with its value if it has one. -/
def pieces (blank : String) (entry : DictionaryEntry) : List Piece :=
  ⟨blank, .ofWord entry.name⟩ ::
    match entry.value with
    | none => []
    | some value => Piece.mark " " .equals :: value.pieces " "

def text (entry : DictionaryEntry) : String := Layout.text (entry.pieces "")

end DictionaryEntry

namespace OperatorTypeDecl

/-- The line of an operator type. -/
def pieces (blank : String) (declaration : OperatorTypeDecl) : List Piece :=
  Piece.word blank .operatorTypeWord :: ⟨" ", .symbol declaration.name⟩ ::
    Property.optionalPieces declaration.properties

end OperatorTypeDecl

namespace OperationDecl

/-- The results of an operation up to its reserved word. -/
def resultPieces (blank : String) : List String → List Piece
  | [] => [Piece.word blank .operationWord]
  | results@(_ :: _) =>
    Layout.commas (fun blank name => [⟨blank, .value name⟩]) blank results
      ++ [Piece.mark " " .equals, Piece.word " " .operationWord]

def dictionaryPieces : List DictionaryEntry → List Piece
  | [] => []
  | entries@(_ :: _) =>
    Piece.mark " " .leftBrace :: (Layout.commas DictionaryEntry.pieces "" entries
      ++ [Piece.mark "" .rightBrace])

/-- The line of an operation. -/
def pieces (blank : String) (operation : OperationDecl) : List Piece :=
  resultPieces blank operation.results
    ++ operation.name.toList.map (fun name => ⟨" ", .symbol name⟩)
    ++ Entry.listPieces "" (Entry.join operation.operands operation.dependences)
    ++ Property.optionalPieces operation.properties
    ++ dictionaryPieces operation.dictionary

end OperationDecl

namespace Instance

/-- The white space before a declaration: a new line, indented. -/
def margin (indent : Nat) : String := "\n" ++ String.ofList (List.replicate indent ' ')

/-- A document: its header, one line per declaration, and the closing brace. -/
def pieces (indent : Nat) (document : Instance) : List Piece :=
  [Piece.word "" .instanceWord, ⟨" ", .symbol document.name⟩, Piece.word " " .ofWord,
      ⟨" ", .string document.problem⟩]
    ++ Property.optionalPieces document.properties
    ++ [Piece.mark " " .leftBrace]
    ++ document.operatorTypes.flatMap (OperatorTypeDecl.pieces (margin indent))
    ++ document.operations.flatMap (OperationDecl.pieces (margin indent))
    ++ [Piece.mark "\n" .rightBrace]

/-- The width of an indentation level where none is asked for. -/
def defaultIndent : Nat := 2

def text (document : Instance) (indent : Nat) : String :=
  Layout.text (document.pieces indent) ++ "\n"

end Instance

end StaticScheduling
