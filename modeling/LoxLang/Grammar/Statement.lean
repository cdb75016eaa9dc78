import LoxLang.Grammar.Expression

/-!
# Statement grammar

A program is a list of declarations. A declaration in which a syntax error is found is dropped: the
rule skips tokens up to a place where a statement probably begins, and the next declaration is read
from there, so that one run reports every independent error.

A `for` loop has no tree of its own. It is read as a `while` loop whose body ends with the
increment, inside a block that begins with the initializer.
-/

namespace LoxLang.Grammar

open Rule

/-- The keywords in front of which the search for the next statement stops. -/
def statementStarts : List TokenKind :=
  [.keyClass, .keyFor, .keyFun, .keyIf, .keyPrint, .keyReturn, .keyVar, .keyWhile]

/-- The tokens from the next probable beginning of a statement on, where `last` is the kind of the
token before them: behind a semicolon or in front of a statement keyword. -/
def statementBoundary (last : TokenKind) : List Token → List Token
  | [] => []
  | token :: rest =>
    if last = .semicolon ∨ token.kind ∈ statementStarts then token :: rest
    else statementBoundary token.kind rest

/-- Skips at least one token, then up to the next probable beginning of a statement. -/
def synchronize : List Token → List Token
  | [] => []
  | token :: rest => statementBoundary token.kind rest

/-- How much of the limit on nesting it takes to report that a declaration is nested too deeply. -/
def reportDepth : Nat := 2

/-- How much of the limit on nesting it takes to search for the next statement behind that. -/
def recoveryDepth : Nat := 4

/-- Reads a declaration, or drops it and skips to the next statement if the rule is stopped. Where
nesting is too deep, the report and the search are nested as well: if what is left of the limit
does not suffice, they are stopped in turn, and the declaration around this one is to recover.
After a syntax error the search is never stopped, since the error was reported from further below
than the search goes. -/
def recovering (depth : Nat) (rule : Rule Stmt) : Rule (Option Stmt) := fun surroundings tokens =>
  let reply := rule surroundings tokens
  match reply.result with
  | .ok statement => ⟨reply.errors, reply.rest, .ok (some statement)⟩
  | .error .syntaxError => ⟨reply.errors, synchronize reply.rest, .ok none⟩
  | .error .tooDeep =>
    let reported := reply.errors ++ [.atNext .tooMuchNesting reply.rest surroundings.endLine]
    if depth < reportDepth then ⟨reply.errors, reply.rest, .error .tooDeep⟩
    else if depth < recoveryDepth then ⟨reported, reply.rest, .error .tooDeep⟩
    else ⟨reported, synchronize reply.rest, .ok none⟩

/-- Declarations as long as `more` says so, without those that were dropped. -/
def declarations (more : Rule Bool) (declaration : Rule (Option Stmt)) : Rule (List Stmt) := do
  let found ← repeated [] fun found => do
    if ← more then
      match ← declaration with
      | some statement => return some (statement :: found)
      | none => return some found
    else return none
  return found.reverse

/-- There is a further token. -/
def hasNext : Rule Bool := do
  return (← next).isSome

/-- There is a further token, and it does not end the block. -/
def inBlock : Rule Bool := do
  return (← hasNext) && !(← nextIs .rightBrace)

/-- The declarations of a block and its closing brace, after the opening one. -/
def block (declaration : Rule (Option Stmt)) : Rule (List Stmt) := do
  let statements ← declarations inBlock declaration
  let _ ← expect .rightBrace .braceAfterBlock
  return statements

/-- A function, after its keyword. -/
def function (declaration : Rule (Option Stmt)) : Rule Stmt := do
  let name ← expect .identifier .functionName
  let _ ← expect .leftParen .parenAfterFunctionName
  let parameters ←
    if ← nextIs .rightParen then pure []
    else listed .tooManyParameters (expect .identifier .parameterName)
  let _ ← expect .rightParen .parenAfterParameters
  let _ ← expect .leftBrace .braceBeforeBody
  let body ← withinFunction (block declaration)
  return .function name parameters body

/-- A variable declaration, after its keyword. -/
def varDeclaration (expression : Rule Expr) : Rule Stmt := do
  let name ← expect .identifier .variableName
  let start ←
    match ← accept [.equal] with
    | some _ => some <$> expression
    | none => pure none
  let _ ← expect .semicolon .semicolonAfterDeclaration
  return .var name start

/-- An expression statement. -/
def expressionStatement (expression : Rule Expr) : Rule Stmt := do
  let value ← expression
  let _ ← expect .semicolon .semicolonAfterExpression
  return .expression value

/-- A print statement, after its keyword. -/
def printStatement (expression : Rule Expr) : Rule Stmt := do
  let value ← expression
  let _ ← expect .semicolon .semicolonAfterValue
  return .print value

/-- A return statement, after its keyword. Outside of a function it is reported and kept. -/
def returnStatement (expression : Rule Expr) (keyword : Token) : Rule Stmt := do
  if !(← inFunction) then reportAt keyword .topLevelReturn
  let value ←
    if ← nextIs .semicolon then pure none
    else some <$> expression
  let _ ← expect .semicolon .semicolonAfterReturnValue
  return .ret keyword value

/-- A conditional, after its keyword. An `else` belongs to the nearest `if` before it. -/
def ifStatement (expression : Rule Expr) (statement : Rule Stmt) : Rule Stmt := do
  let _ ← expect .leftParen .parenAfterIf
  let condition ← expression
  let _ ← expect .rightParen .parenAfterIfCondition
  let consequent ← statement
  let alternative ←
    match ← accept [.keyElse] with
    | some _ => some <$> statement
    | none => pure none
  return .conditional condition consequent alternative

/-- A `while` loop, after its keyword. -/
def whileStatement (expression : Rule Expr) (statement : Rule Stmt) : Rule Stmt := do
  let _ ← expect .leftParen .parenAfterWhile
  let condition ← expression
  let _ ← expect .rightParen .parenAfterCondition
  let body ← statement
  return .loop condition body

/-- The clauses of a `for` loop, each of which may be left out. -/
structure ForClauses where
  start : Option Stmt
  condition : Option Expr
  increment : Option Expr

/-- The tree of a `for` loop: the increment follows the body, a missing condition is true, and the
initializer stands in front of the loop in a block of its own. -/
def ForClauses.around (clauses : ForClauses) (body : Stmt) : Stmt :=
  let step := match clauses.increment with
    | some increment => .block [body, .expression increment]
    | none => body
  let loop := .loop (clauses.condition.getD (.literal (.bool true))) step
  match clauses.start with
  | some start => .block [start, loop]
  | none => loop

/-- The initializer clause of a `for` loop with its semicolon. -/
def forStart (expression : Rule Expr) : Rule (Option Stmt) := do
  match ← accept [.semicolon, .keyVar] with
  | none => some <$> expressionStatement expression
  | some token =>
    if token.kind = .semicolon then return none
    else some <$> varDeclaration expression

/-- An expression that is left out if the closing token stands in its place. -/
def optionalExpression (expression : Rule Expr) (closing : TokenKind) : Rule (Option Expr) := do
  if ← nextIs closing then return none
  else some <$> expression

/-- A `for` loop, after its keyword. -/
def forStatement (expression : Rule Expr) (statement : Rule Stmt) : Rule Stmt := do
  let _ ← expect .leftParen .parenAfterFor
  let start ← forStart expression
  let condition ← optionalExpression expression .semicolon
  let _ ← expect .semicolon .semicolonAfterLoopCondition
  let increment ← optionalExpression expression .rightParen
  let _ ← expect .rightParen .parenAfterForClauses
  let body ← statement
  return ForClauses.around ⟨start, condition, increment⟩ body

mutual

/-- A declaration, or nothing if it was dropped. -/
def declaration : Nat → Rule (Option Stmt)
  | 0 => tooDeep
  | depth + 1 => recovering depth do
    match ← accept [.keyFun, .keyVar] with
    | none => statement depth
    | some keyword =>
      if keyword.kind = .keyFun then function (declaration depth)
      else varDeclaration (expression depth)

/-- A statement. -/
def statement : Nat → Rule Stmt
  | 0 => tooDeep
  | depth + 1 => do
    match ← accept [.keyFor, .keyIf, .keyPrint, .keyReturn, .keyWhile, .leftBrace] with
    | none => expressionStatement (expression depth)
    | some keyword =>
      match keyword.kind with
      | .keyFor => forStatement (expression depth) (statement depth)
      | .keyIf => ifStatement (expression depth) (statement depth)
      | .keyPrint => printStatement (expression depth)
      | .keyReturn => returnStatement (expression depth) keyword
      | .keyWhile => whileStatement (expression depth) (statement depth)
      | _ => .block <$> block (declaration depth)

end

end LoxLang.Grammar
