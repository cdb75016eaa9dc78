import LoxLang.Token.Basic
import LoxLang.Diagnostic

/-!
# Syntax errors

What a parser can find wrong with a list of tokens, by cause, with the wording of each cause.
-/

namespace LoxLang.Grammar

/-- How many arguments a call and how many parameters a function may have. -/
def listLimit : Nat := 255

/-- What a rule needed and did not find. -/
inductive Expected where
  | expression
  | endOfExpression
  | functionName
  | parenAfterFunctionName
  | parameterName
  | parenAfterParameters
  | braceBeforeBody
  | variableName
  | semicolonAfterDeclaration
  | parenAfterFor
  | semicolonAfterLoopCondition
  | parenAfterForClauses
  | parenAfterIf
  | parenAfterIfCondition
  | parenAfterWhile
  | parenAfterCondition
  | semicolonAfterValue
  | semicolonAfterReturnValue
  | semicolonAfterExpression
  | braceAfterBlock
  | parenAfterArguments
  | parenAfterExpression
deriving DecidableEq, Repr

/-- What a rule needed, in words. -/
def Expected.wording : Expected → String
  | expression => "expression"
  | endOfExpression => "end of expression"
  | functionName => "function name"
  | parenAfterFunctionName => "'(' after function name"
  | parameterName => "parameter name"
  | parenAfterParameters => "')' after parameters"
  | braceBeforeBody => "'\x7b' before function body"
  | variableName => "variable name"
  | semicolonAfterDeclaration => "';' after variable declaration"
  | parenAfterFor => "'(' after 'for'"
  | semicolonAfterLoopCondition => "';' after loop condition"
  | parenAfterForClauses => "')' after for clauses"
  | parenAfterIf => "'(' after 'if'"
  | parenAfterIfCondition => "')' after if condition"
  | parenAfterWhile => "'(' after 'while'"
  | parenAfterCondition => "')' after condition"
  | semicolonAfterValue => "';' after value"
  | semicolonAfterReturnValue => "';' after return value"
  | semicolonAfterExpression => "';' after expression"
  | braceAfterBlock => "'\x7d' after block"
  | parenAfterArguments => "')' after arguments"
  | parenAfterExpression => "')' after expression"

/-- What can be wrong with a list of tokens. Only something expected and not found, and nesting
beyond the limit, keep a rule from going on. -/
inductive Problem where
  | expected (missing : Expected)
  | tooMuchNesting
  | invalidTarget
  | topLevelReturn
  | tooManyArguments
  | tooManyParameters
deriving DecidableEq, Repr

/-- The wording of a problem. -/
def Problem.message : Problem → String
  | expected missing => "Expect " ++ missing.wording ++ "."
  | tooMuchNesting => "Too much nesting."
  | invalidTarget => "Invalid assignment target."
  | topLevelReturn => "Can't return from top-level code."
  | tooManyArguments => "Can't have more than " ++ toString listLimit ++ " arguments."
  | tooManyParameters => "Can't have more than " ++ toString listLimit ++ " parameters."

/-- A problem with the line and the place of the token it is reported at. -/
structure SyntaxError where
  problem : Problem
  line : Int
  place : String
deriving DecidableEq, Repr

namespace SyntaxError

/-- A problem reported at a token. -/
def atToken (problem : Problem) (token : Token) : SyntaxError :=
  ⟨problem, token.line, token.place⟩

/-- A problem reported at the next token, or at the end of the text if there is none. -/
def atNext (problem : Problem) (tokens : List Token) (endLine : Int) : SyntaxError :=
  atToken problem (tokens.head?.getD (.endOfText endLine))

/-- The report of a syntax error. -/
def diagnostic (error : SyntaxError) : Diagnostic :=
  ⟨.parsing, error.line, error.problem.message, error.place⟩

end SyntaxError
end LoxLang.Grammar
