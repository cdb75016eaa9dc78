import LoxLang.Source.Piece
import LoxLang.Token.Basic
import LoxLang.Diagnostic

/-!
# Scanning

A scan turns the pieces of a source text into tokens and errors. Each piece is placed on the line on
which it ends: one plus the number of line feeds up to its last character.
-/

namespace LoxLang.Source

/-- A piece with the line on which it ends. -/
structure PlacedPiece where
  piece : Piece
  line : Int
deriving DecidableEq, Repr

/-- The line after a text that begins on the given line. -/
def lineAfter (line : Int) (text : List Char) : Int := line + text.count '\n'

/-- Places pieces that follow one another, after those already placed. -/
def placeOnto (done : List PlacedPiece) (line : Int) : List Piece → List PlacedPiece × Int
  | [] => (done.reverse, line)
  | piece :: rest =>
    let line := lineAfter line piece.text
    placeOnto (⟨piece, line⟩ :: done) line rest

/-- The value that a lexeme of this kind denotes. -/
def literalOf (kind : TokenKind) (text : List Char) : Literal :=
  match kind with
  | .string => .text (.ofList (text.drop 1).dropLast)
  | .number => .number ((Number.Decimal.ofLiteral text).toFloat false)
  | _ => .nil

/-- The token of a piece, if the piece is a lexeme. -/
def PlacedPiece.token? (placed : PlacedPiece) : Option Token :=
  match placed.piece.kind with
  | .lexeme kind =>
    some ⟨kind, .ofList placed.piece.text, literalOf kind placed.piece.text, placed.line⟩
  | _ => none

/-- What can be wrong with a piece of source text. -/
inductive Problem where
  | unexpectedCharacter
  | unterminatedString
deriving DecidableEq, Repr

/-- The wording of a problem. -/
def Problem.message : Problem → String
  | unexpectedCharacter => "Unexpected character."
  | unterminatedString => "Unterminated string."

/-- A problem with the line it is reported at. -/
structure ScanError where
  problem : Problem
  line : Int
deriving DecidableEq, Repr

/-- The report of a scan error; it names no place. -/
def ScanError.diagnostic (error : ScanError) : Diagnostic :=
  ⟨.scanning, error.line, error.problem.message, ""⟩

/-- The error of a piece, if the piece is no part of the language. -/
def PlacedPiece.error? (placed : PlacedPiece) : Option ScanError :=
  match placed.piece.kind with
  | .stray => some ⟨.unexpectedCharacter, placed.line⟩
  | .unclosed => some ⟨.unterminatedString, placed.line⟩
  | _ => none

/-- The result of a scan: the tokens, the line on which the text ends, and the errors in order. -/
structure Scan where
  tokens : List Token
  endLine : Int
  errors : List ScanError
deriving DecidableEq

/-- The tokens with the one that ends the text. -/
def Scan.closedTokens (scan : Scan) : List Token := scan.tokens ++ [.endOfText scan.endLine]

/-- The scan of placed pieces that end on the given line. -/
def Scan.ofPieces (placed : List PlacedPiece) (endLine : Int) : Scan :=
  ⟨placed.filterMap (·.token?), endLine, placed.filterMap (·.error?)⟩

/-- Scans characters from the given line on. -/
def scanFrom (line : Int) (text : List Char) : Scan :=
  let (placed, endLine) := placeOnto [] line (pieces text)
  .ofPieces placed endLine

/-- Scans a source text. -/
def scan (source : String) : Scan := scanFrom 1 source.toList

end LoxLang.Source
