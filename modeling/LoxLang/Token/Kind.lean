/-!
# Token kinds

The closed set of token kinds, the name under which each is written in files and messages, and the
keywords.
-/

namespace LoxLang

/-- What kind of lexeme a token is. -/
inductive TokenKind where
  | leftParen | rightParen | leftBrace | rightBrace | comma | dot | minus | plus | semicolon
  | slash | star
  | bang | bangEqual | equal | equalEqual | greater | greaterEqual | less | lessEqual
  | identifier | string | number
  | keyAnd | keyClass | keyElse | keyFalse | keyFun | keyFor | keyIf | keyNil | keyOr | keyPrint
  | keyReturn | keySuper | keyThis | keyTrue | keyVar | keyWhile
  | endOfFile
deriving DecidableEq, Repr

namespace TokenKind

/-- Every kind once. -/
def all : List TokenKind := [
  leftParen, rightParen, leftBrace, rightBrace, comma, dot, minus, plus, semicolon, slash, star,
  bang, bangEqual, equal, equalEqual, greater, greaterEqual, less, lessEqual,
  identifier, string, number,
  keyAnd, keyClass, keyElse, keyFalse, keyFun, keyFor, keyIf, keyNil, keyOr, keyPrint,
  keyReturn, keySuper, keyThis, keyTrue, keyVar, keyWhile,
  endOfFile]

/-- The name of a kind in files and messages. -/
def name : TokenKind → String
  | leftParen => "LEFT_PAREN"
  | rightParen => "RIGHT_PAREN"
  | leftBrace => "LEFT_BRACE"
  | rightBrace => "RIGHT_BRACE"
  | comma => "COMMA"
  | dot => "DOT"
  | minus => "MINUS"
  | plus => "PLUS"
  | semicolon => "SEMICOLON"
  | slash => "SLASH"
  | star => "STAR"
  | bang => "BANG"
  | bangEqual => "BANG_EQUAL"
  | equal => "EQUAL"
  | equalEqual => "EQUAL_EQUAL"
  | greater => "GREATER"
  | greaterEqual => "GREATER_EQUAL"
  | less => "LESS"
  | lessEqual => "LESS_EQUAL"
  | identifier => "IDENTIFIER"
  | string => "STRING"
  | number => "NUMBER"
  | keyAnd => "AND"
  | keyClass => "CLASS"
  | keyElse => "ELSE"
  | keyFalse => "FALSE"
  | keyFun => "FUN"
  | keyFor => "FOR"
  | keyIf => "IF"
  | keyNil => "NIL"
  | keyOr => "OR"
  | keyPrint => "PRINT"
  | keyReturn => "RETURN"
  | keySuper => "SUPER"
  | keyThis => "THIS"
  | keyTrue => "TRUE"
  | keyVar => "VAR"
  | keyWhile => "WHILE"
  | endOfFile => "EOF"

/-- The kind of a name. -/
def ofName? (text : String) : Option TokenKind := all.find? (·.name = text)

/-- A kind is found under its own name. -/
@[simp] theorem ofName?_name (kind : TokenKind) : ofName? kind.name = some kind := by
  cases kind <;> rfl

/-- The reserved words with their kinds. -/
def keywords : List (String × TokenKind) := [
  ("and", keyAnd), ("class", keyClass), ("else", keyElse), ("false", keyFalse), ("for", keyFor),
  ("fun", keyFun), ("if", keyIf), ("nil", keyNil), ("or", keyOr), ("print", keyPrint),
  ("return", keyReturn), ("super", keySuper), ("this", keyThis), ("true", keyTrue),
  ("var", keyVar), ("while", keyWhile)]

/-- The kind of a word: its keyword's, or an identifier. -/
def ofWord (word : String) : TokenKind := (keywords.lookup word).getD identifier

end TokenKind
end LoxLang
