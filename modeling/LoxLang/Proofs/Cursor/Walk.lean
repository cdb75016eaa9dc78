import LoxLang.Grammar.Program

/-!
# The grammar as a walk over tokens

The rules of the grammar are given the tokens that are left, without the one that ends the text, so
they can neither read outside of a list nor lose count of the functions around them. A walk has to
take care of both. It goes over the whole list with a cursor, counts the function bodies it is in,
and its loops turn until they leave by themselves. What can go wrong with that is a failure here: a
token read outside of the list, and a loop with more turns than there are tokens.

The walks below take the steps of the grammar one token at a time: `peek`, `previous` and `advance`
are all that touches the cursor. They recurse on the same limit on nesting as the rules.
-/

namespace LoxLang.Grammar

/-- Where a walk is, and what it has reported. -/
structure Cursor where
  /-- The index of the next token. -/
  current : Nat
  /-- How many function bodies the walk is in. -/
  functionDepth : Nat
  /-- The errors reported so far, in order. -/
  errors : List SyntaxError
deriving DecidableEq, Repr

/-- The cursor at the start of a list. -/
def Cursor.start : Cursor := ⟨0, 0, []⟩

/-- The cursor behind the next token. -/
def Cursor.moved (cursor : Cursor) : Cursor := { cursor with current := cursor.current + 1 }

/-- A cursor that is moved stands one further on. -/
@[simp] theorem Cursor.current_moved (cursor : Cursor) :
    cursor.moved.current = cursor.current + 1 := rfl

/-- Why a walk has no result. -/
inductive Failure where
  /-- A syntax error, or nesting beyond the limit. -/
  | stopped (stop : Stop)
  /-- A token was read outside of the list. -/
  | outside
  /-- A loop turned as often as there are tokens and did not leave. -/
  | endless
deriving DecidableEq, Repr

/-- What a walk came to, and where. -/
structure Arrival (α : Type) where
  result : Except Failure α
  cursor : Cursor

/-- A walk over a list of tokens. -/
def Walk (α : Type) : Type := List Token → Cursor → Arrival α

namespace Walk

variable {α β : Type}

/-- The walk that goes nowhere. -/
protected def pure (value : α) : Walk α := fun _ cursor => ⟨.ok value, cursor⟩

/-- One walk after the other; the second does not begin if the first fails. -/
protected def bind (first : Walk α) (second : α → Walk β) : Walk β := fun tokens cursor =>
  let arrival := first tokens cursor
  match arrival.result with
  | .ok value => second value tokens arrival.cursor
  | .error failure => ⟨.error failure, arrival.cursor⟩

instance : Monad Walk where
  pure := Walk.pure
  bind := Walk.bind

/-- Fails where it is. -/
def fail (failure : Failure) : Walk α := fun _ cursor => ⟨.error failure, cursor⟩

/-! ## Tokens -/

/-- The token at an index, which has to be in the list. -/
def tokenAt (index : Nat) : Walk Token := fun tokens cursor =>
  match tokens[index]? with
  | some token => ⟨.ok token, cursor⟩
  | none => ⟨.error .outside, cursor⟩

/-- The next token. -/
def peek : Walk Token := fun tokens cursor => tokenAt cursor.current tokens cursor

/-- The token before the cursor. At the start of the list there is none. -/
def previous : Walk Token := fun tokens cursor =>
  match cursor.current with
  | 0 => ⟨.error .outside, cursor⟩
  | index + 1 => tokenAt index tokens cursor

/-- The next token ends the text. -/
def isAtEnd : Walk Bool := do
  return (← peek).kind = .endOfFile

/-- The next token is of a kind, and does not end the text. -/
def check (kind : TokenKind) : Walk Bool := do
  if ← isAtEnd then return false
  else return (← peek).kind = kind

/-- Moves behind the next token. -/
def move : Walk Unit := fun _ cursor => ⟨.ok (), cursor.moved⟩

/-- Moves behind the next token unless it ends the text, and gives the token before the cursor. -/
def advance : Walk Token := do
  if !(← isAtEnd) then move
  previous

/-- Moves behind the next token if its kind is one of the given kinds. -/
def takes : List TokenKind → Walk Bool
  | [] => return false
  | kind :: kinds => do
    if ← check kind then
      let _ ← advance
      return true
    else takes kinds

/-- Reports a problem at a token and goes on. -/
def reportAt (token : Token) (problem : Problem) : Walk Unit := fun _ cursor =>
  ⟨.ok (), { cursor with errors := cursor.errors ++ [.atToken problem token] }⟩

/-- Reports a problem at the next token and goes on. -/
def reportNext (problem : Problem) : Walk Unit := do
  reportAt (← peek) problem

/-- Reports at the next token what was expected there, and fails. -/
def missing (expected : Expected) : Walk α := do
  reportNext (.expected expected)
  fail (.stopped .syntaxError)

/-- Takes the next token, which has to be of the given kind. -/
def consume (kind : TokenKind) (expected : Expected) : Walk Token := do
  if ← check kind then advance else missing expected

/-- Turns until a turn gives nothing, but not more often than the given number. -/
def turns (turn : α → Walk (Option α)) : Nat → α → Walk α
  | 0, _ => fail .endless
  | count + 1, value => do
    match ← turn value with
    | none => return value
    | some further => turns turn count further

/-- Turns until a turn gives nothing; more turns than there are tokens are a failure. -/
def loop (start : α) (turn : α → Walk (Option α)) : Walk α := fun tokens =>
  turns turn tokens.length start tokens

/-! ## Expressions -/

/-- One more operator of a level with its right operand. -/
def chainTurn (level : Level) (operand : Walk Expr) (left : Expr) : Walk (Option Expr) := do
  if ← takes level.operators then
    let operator ← previous
    let right ← operand
    return some (level.combine left operator right)
  else return none

/-- Operands with operators of one level between them. -/
def chain (level : Level) (operand : Walk Expr) : Walk Expr := do
  loop (← operand) (chainTurn level operand)

/-- Operators of the given levels, the loosest first, over operands that bind tighter than all. -/
def operations (levels : List Level) (operand : Walk Expr) : Walk Expr :=
  levels.foldr chain operand

/-- One more item, after a comma. -/
def listedTurn (tooMany : Problem) (item : Walk α) (listed : Nat × List α) :
    Walk (Option (Nat × List α)) := do
  if ← takes [.comma] then
    if listLimit ≤ listed.1 then reportNext tooMany
    let further ← item
    return some (listed.1 + 1, further :: listed.2)
  else return none

/-- One or more items with commas between them. -/
def listed (tooMany : Problem) (item : Walk α) : Walk (List α) := do
  let first ← item
  let listed ← loop (1, [first]) (listedTurn tooMany item)
  return listed.2.reverse

/-- One more list of arguments in parentheses. -/
def callTurn (expression : Walk Expr) (callee : Expr) : Walk (Option Expr) := do
  if ← takes [.leftParen] then
    let arguments ←
      if ← check .rightParen then pure []
      else listed .tooManyArguments expression
    let paren ← consume .rightParen .parenAfterArguments
    return some (.call callee paren arguments)
  else return none

/-- Argument lists after an expression. -/
def calls (expression : Walk Expr) (callee : Expr) : Walk Expr :=
  loop callee (callTurn expression)

/-- A literal, a name, or an expression in parentheses. -/
def primary (expression : Walk Expr) : Walk Expr := do
  if ← takes [.keyFalse] then return .literal (.bool false)
  else if ← takes [.keyTrue] then return .literal (.bool true)
  else if ← takes [.keyNil] then return .literal .nil
  else if ← takes [.number, .string] then return .literal (← previous).literal
  else if ← takes [.identifier] then return .reference (← previous)
  else if ← takes [.leftParen] then
    let inner ← expression
    let _ ← consume .rightParen .parenAfterExpression
    return .grouping inner
  else missing .expression

mutual

/-- A unary operator with its operand, or a call or primary expression. -/
def unary : Nat → Walk Expr
  | 0 => fail (.stopped .tooDeep)
  | depth + 1 => do
    if ← takes [.bang, .minus] then
      let operator ← previous
      let right ← unary depth
      return .unary operator right
    else
      let callee ← primary (expression depth)
      calls (expression depth) callee

/-- An expression. -/
def expression : Nat → Walk Expr
  | 0 => fail (.stopped .tooDeep)
  | depth + 1 => do
    let target ← operations levels (unary depth)
    if ← takes [.equal] then
      let equals ← previous
      let value ← expression depth
      match target with
      | .reference name => return .assign name value
      | _ =>
        reportAt equals .invalidTarget
        return target
    else return target

end

/-! ## Statements -/

/-- Moves behind the next token unless a statement probably begins with it. -/
def skipInStatement : Walk (Option Unit) := do
  if ← isAtEnd then return none
  else if (← previous).kind = .semicolon then return none
  else if (← peek).kind ∈ statementStarts then return none
  else
    let _ ← advance
    return some ()

/-- Skips a token, then moves on to the next probable beginning of a statement. -/
def synchronize : Walk Unit := do
  let _ ← advance
  loop () fun _ => skipInStatement

/-- A walk whose stops end here: they are reported, if they were not yet, and the walk goes on at
the next probable beginning of a statement. Where nesting is too deep and what is left of the limit
does not suffice for that, the walk is stopped again. Other failures pass through. -/
def recovering (depth : Nat) (walk : Walk Stmt) : Walk (Option Stmt) := fun tokens cursor =>
  let arrival := walk tokens cursor
  match arrival.result with
  | .ok statement => ⟨.ok (some statement), arrival.cursor⟩
  | .error (.stopped .syntaxError) =>
    (do
      synchronize
      return none : Walk (Option Stmt)) tokens arrival.cursor
  | .error (.stopped .tooDeep) =>
    (do
      if depth < reportDepth then fail (.stopped .tooDeep)
      else
        reportNext .tooMuchNesting
        if depth < recoveryDepth then fail (.stopped .tooDeep)
        else
          synchronize
          return none : Walk (Option Stmt)) tokens arrival.cursor
  | .error failure => ⟨.error failure, arrival.cursor⟩

/-- One more declaration, which may be dropped. -/
def declarationTurn (more : Walk Bool) (declaration : Walk (Option Stmt)) (found : List Stmt) :
    Walk (Option (List Stmt)) := do
  if ← more then
    match ← declaration with
    | some statement => return some (statement :: found)
    | none => return some found
  else return none

/-- Declarations as long as `more` says so, without those that were dropped. -/
def declarations (more : Walk Bool) (declaration : Walk (Option Stmt)) : Walk (List Stmt) := do
  return (← loop [] (declarationTurn more declaration)).reverse

/-- The text does not end here. -/
def hasNext : Walk Bool := do
  return !(← isAtEnd)

/-- The next token does not close the block, and the text does not end here. -/
def inBlock : Walk Bool := do
  if ← check .rightBrace then return false
  else hasNext

/-- The declarations of a block and its closing brace, after the opening one. -/
def block (declaration : Walk (Option Stmt)) : Walk (List Stmt) := do
  let statements ← declarations inBlock declaration
  let _ ← consume .rightBrace .braceAfterBlock
  return statements

/-- A part of a function body. The count of function bodies goes down again in any case. -/
def withinFunction (walk : Walk α) : Walk α := fun tokens cursor =>
  let arrival := walk tokens { cursor with functionDepth := cursor.functionDepth + 1 }
  ⟨arrival.result,
    { arrival.cursor with functionDepth := arrival.cursor.functionDepth - 1 }⟩

/-- The walk is in a function body. -/
def inFunction : Walk Bool := fun _ cursor => ⟨.ok (cursor.functionDepth ≠ 0), cursor⟩

/-- A function, after its keyword. -/
def function (declaration : Walk (Option Stmt)) : Walk Stmt := do
  let name ← consume .identifier .functionName
  let _ ← consume .leftParen .parenAfterFunctionName
  let parameters ←
    if ← check .rightParen then pure []
    else listed .tooManyParameters (consume .identifier .parameterName)
  let _ ← consume .rightParen .parenAfterParameters
  let _ ← consume .leftBrace .braceBeforeBody
  let body ← withinFunction (block declaration)
  return .function name parameters body

/-- A variable declaration, after its keyword. -/
def varDeclaration (expression : Walk Expr) : Walk Stmt := do
  let name ← consume .identifier .variableName
  let start ←
    if ← takes [.equal] then some <$> expression
    else pure none
  let _ ← consume .semicolon .semicolonAfterDeclaration
  return .var name start

/-- An expression statement. -/
def expressionStatement (expression : Walk Expr) : Walk Stmt := do
  let value ← expression
  let _ ← consume .semicolon .semicolonAfterExpression
  return .expression value

/-- A print statement, after its keyword. -/
def printStatement (expression : Walk Expr) : Walk Stmt := do
  let value ← expression
  let _ ← consume .semicolon .semicolonAfterValue
  return .print value

/-- A return statement, after its keyword. -/
def returnStatement (expression : Walk Expr) : Walk Stmt := do
  let keyword ← previous
  if !(← inFunction) then reportAt keyword .topLevelReturn
  let value ←
    if ← check .semicolon then pure none
    else some <$> expression
  let _ ← consume .semicolon .semicolonAfterReturnValue
  return .ret keyword value

/-- A conditional, after its keyword. -/
def ifStatement (expression : Walk Expr) (statement : Walk Stmt) : Walk Stmt := do
  let _ ← consume .leftParen .parenAfterIf
  let condition ← expression
  let _ ← consume .rightParen .parenAfterIfCondition
  let consequent ← statement
  let alternative ←
    if ← takes [.keyElse] then some <$> statement
    else pure none
  return .conditional condition consequent alternative

/-- A `while` loop, after its keyword. -/
def whileStatement (expression : Walk Expr) (statement : Walk Stmt) : Walk Stmt := do
  let _ ← consume .leftParen .parenAfterWhile
  let condition ← expression
  let _ ← consume .rightParen .parenAfterCondition
  let body ← statement
  return .loop condition body

/-- The initializer clause of a `for` loop with its semicolon. -/
def forStart (expression : Walk Expr) : Walk (Option Stmt) := do
  if ← takes [.semicolon] then return none
  else if ← takes [.keyVar] then some <$> varDeclaration expression
  else some <$> expressionStatement expression

/-- An expression that is left out if the closing token stands in its place. -/
def optionalExpression (expression : Walk Expr) (closing : TokenKind) : Walk (Option Expr) := do
  if ← check closing then return none
  else some <$> expression

/-- A `for` loop, after its keyword. -/
def forStatement (expression : Walk Expr) (statement : Walk Stmt) : Walk Stmt := do
  let _ ← consume .leftParen .parenAfterFor
  let start ← forStart expression
  let condition ← optionalExpression expression .semicolon
  let _ ← consume .semicolon .semicolonAfterLoopCondition
  let increment ← optionalExpression expression .rightParen
  let _ ← consume .rightParen .parenAfterForClauses
  let body ← statement
  return ForClauses.around ⟨start, condition, increment⟩ body

mutual

/-- A declaration, or nothing if it was dropped. -/
def declaration : Nat → Walk (Option Stmt)
  | 0 => fail (.stopped .tooDeep)
  | depth + 1 => recovering depth do
    if ← takes [.keyFun] then function (declaration depth)
    else if ← takes [.keyVar] then varDeclaration (expression depth)
    else statement depth

/-- A statement. -/
def statement : Nat → Walk Stmt
  | 0 => fail (.stopped .tooDeep)
  | depth + 1 => do
    if ← takes [.keyFor] then forStatement (expression depth) (statement depth)
    else if ← takes [.keyIf] then ifStatement (expression depth) (statement depth)
    else if ← takes [.keyPrint] then printStatement (expression depth)
    else if ← takes [.keyReturn] then returnStatement (expression depth)
    else if ← takes [.keyWhile] then whileStatement (expression depth) (statement depth)
    else if ← takes [.leftBrace] then .block <$> block (declaration depth)
    else expressionStatement (expression depth)

end

/-- The declarations of a program. -/
def parse (limit : Nat) : Walk (List Stmt) :=
  declarations hasNext (declaration (depthOf limit + 1))

/-- One expression and nothing behind it. -/
def wholeExpression (limit : Nat) : Walk Expr := do
  let value ← expression (depthOf limit)
  if ← hasNext then missing .endOfExpression
  else return value

/-- One expression, or nothing if the walk stops. Other failures pass through. -/
def parseExpression (limit : Nat) : Walk (Option Expr) := fun tokens cursor =>
  let arrival := wholeExpression limit tokens cursor
  match arrival.result with
  | .ok value => ⟨.ok (some value), arrival.cursor⟩
  | .error (.stopped _) => ⟨.ok none, arrival.cursor⟩
  | .error failure => ⟨.error failure, arrival.cursor⟩

end Walk
end LoxLang.Grammar
