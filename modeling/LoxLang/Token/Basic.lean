import LoxLang.Token.Kind
import LoxLang.Token.Literal
import LoxLang.Text.Blank

/-!
# Tokens

A token is a lexeme with its kind, the value it denotes and the line it is reported at.
-/

namespace LoxLang

/-- A lexeme of a program. -/
structure Token where
  kind : TokenKind
  /-- The text of the token as the source spells it. -/
  lexeme : String
  /-- The value that a number or string literal denotes. -/
  literal : Literal
  line : Int
deriving DecidableEq

namespace Token

/-- The token that ends a program text. -/
def endOfText (line : Int) : Token := ⟨.endOfFile, "", .nil, line⟩

/-- Equality of tokens, with literals compared by value. -/
def agrees (left right : Token) : Bool :=
  left.kind = right.kind && left.lexeme == right.lexeme && left.literal.agrees right.literal
    && left.line == right.line

/-- The description of a token: kind, lexeme and literal, without blanks at the end. -/
def described (token : Token) : String :=
  .ofList (Text.dropEndBlanks
    (token.kind.name ++ " " ++ token.lexeme ++ " " ++ token.literal.described).toList)

/-- Where a problem with this token is said to be. -/
def place (token : Token) : String :=
  if token.kind = .endOfFile then "at end" else "at '" ++ token.lexeme ++ "'"

end Token
end LoxLang
