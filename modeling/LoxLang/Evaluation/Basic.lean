import LoxLang.Evaluation.Machine
import LoxLang.Evaluation.Operator

/-!
# Evaluation

How expressions are evaluated, statements executed and callables called. Operands, callee and
arguments are evaluated once each from left to right; a `return` ends the statements around it up to
the call they belong to; a runtime error ends everything.

The definitions recurse on the stack that is left: every expression inside an expression, every
statement and every call takes one unit. Where it is used up, the innermost enclosing operator or
call reports it. The turns of a loop do not use up the stack; their number is limited apart from it.
-/

namespace LoxLang

/-- What a run may use, and what it tells. -/
structure Settings where
  /-- The level up to which messages are traced. -/
  debugLevel : Nat
  /-- How often one loop may turn. -/
  turns : Nat
deriving DecidableEq, Repr

/-- How a statement came to its end. -/
inductive Completion where
  | normal
  | returned (value : Value)

namespace Completion

/-- The value of a call whose body came to its end this way. -/
def value : Completion → Value
  | normal => .nil
  | returned value => value

/-- The text that describes the end of a statement. -/
def described : Completion → String
  | normal => "None"
  | returned value => "ReturnSignal(" ++ value.described ++ ")"

end Completion

namespace Run

/-- Turns a loop until a turn brings it to an end, but not more often than the given number. -/
def loop : Nat → Run (Option Completion) → Run Completion
  | 0, _ => halt .endless
  | turns + 1, turn => fun machine =>
    match turn machine with
    | .done none machine => loop turns turn machine
    | .done (some completion) machine => .done completion machine
    | .halted halt machine => .halted halt machine

/-- Executes statements up to the first that returns. -/
def sequence (execute : Stmt → Run Completion) : List Stmt → Run Completion
  | [] => pure .normal
  | statement :: statements => fun machine =>
    match execute statement machine with
    | .done .normal machine => sequence execute statements machine
    | outcome => outcome

/-- Binds parameters to arguments in a scope. -/
def bindParameters (scope : ScopeId) : List Token → List Value → Run Unit
  | parameter :: parameters, argument :: arguments => do
    define scope parameter.lexeme argument
    bindParameters scope parameters arguments
  | _, _ => pure ()

/-- The value of a native function. -/
def native (closure : Option ScopeId) (function : NativeFunction) (arguments : List Value) :
    Run Value :=
  match function (arguments.map (·.shown)) with
  | .ok (.literal value) => pure (.ofLiteral value)
  | .ok (.argument place) => pure (arguments[place]?.getD .nil)
  | .ok (.captured name) => readCaptured closure name
  | .error exception => halt (.raised exception)

/-- Calls a value, which has to be a callable that needs as many arguments as there are. -/
def call (debugLevel : Nat) (invoke : Callable → List Value → Run Value) (paren : Token)
    (callee : Value) (arguments : List Value) : Run Value :=
  match callee with
  | .callable callable =>
    if arguments.length ≠ callable.arity then
      halt (.failed ⟨.wrongCount callable.arity arguments.length, paren⟩)
    else do
      trace debugLevel (.called callable arguments.length paren.line)
      reportingOverflow paren (invoke callable arguments)
  | _ => halt (.failed ⟨.notCallable, paren⟩)

end Run

open Run

mutual

/-- The value of an expression. -/
def evaluate (settings : Settings) : Nat → ScopeId → Expr → Run Value
  | 0, _, _ => halt .overflow
  | stack + 1, scope, expr =>
    match expr with
    | .literal value => pure (.ofLiteral value)
    | .grouping inner => evaluate settings stack scope inner
    | .reference name => readVariable scope name
    | .assign name value => do
      let value ← evaluate settings stack scope value
      assignVariable scope name value
      return value
    | .logical left operator right => reportingOverflow operator do
      let left ← evaluate settings stack scope left
      if Operator.decides operator left then return left
      else evaluate settings stack scope right
    | .unary operator right => do
      let right ← reportingOverflow operator (evaluate settings stack scope right)
      ofExcept (Operator.unary operator right)
    | .binary left operator right => do
      let (left, right) ← reportingOverflow operator do
        let left ← evaluate settings stack scope left
        let right ← evaluate settings stack scope right
        return (left, right)
      ofExcept (Operator.binary operator left right)
    | .call callee paren arguments => do
      let callee ← evaluate settings stack scope callee
      let arguments ← each (evaluate settings stack scope) arguments
      call settings.debugLevel (invoke settings stack) paren callee arguments
    | .unexpected kind => halt (.unexpectedNode .evaluate kind)

/-- The value of a call whose arguments are as many as the callable needs. The body of a function
runs in a new scope inside the scope of its declaration. -/
def invoke (settings : Settings) : Nat → Callable → List Value → Run Value
  | 0, _, _ => halt .overflow
  | stack + 1, callable, arguments =>
    match callable.behaviour with
    | .function declaration closure => do
      let scope ← openScope closure
      bindParameters scope declaration.parameters arguments
      let completion ← sequence (execute settings stack scope) declaration.body
      return completion.value
    | .clock => readClock
    | .native _ closure function => Run.native closure function arguments
    | .abstract _ => halt .notImplemented

/-- Executes a statement. -/
def execute (settings : Settings) : Nat → ScopeId → Stmt → Run Completion
  | 0, _, _ => halt .overflow
  | stack + 1, scope, stmt =>
    match stmt with
    | .expression value => do
      let _ ← evaluate settings stack scope value
      return .normal
    | .print value => do
      let value ← evaluate settings stack scope value
      print value.display
      return .normal
    | .var name start => do
      let value ←
        match start with
        | some start => evaluate settings stack scope start
        | none => pure .nil
      define scope name.lexeme value
      trace settings.debugLevel (.defined name.lexeme value)
      return .normal
    | .block statements => do
      let inner ← openScope scope
      sequence (execute settings stack inner) statements
    | .conditional condition consequent alternative => do
      let condition ← evaluate settings stack scope condition
      trace settings.debugLevel (.ifCondition condition)
      if condition.isTruthy then execute settings stack scope consequent
      else
        match alternative with
        | some alternative => execute settings stack scope alternative
        | none => return .normal
    | .loop condition body =>
      Run.loop settings.turns do
        let condition ← evaluate settings stack scope condition
        trace settings.debugLevel (.whileCondition condition)
        if condition.isTruthy then
          match ← execute settings stack scope body with
          | .normal => return none
          | .returned value => return some (.returned value)
        else return some .normal
    | .function name parameters body => do
      let callable ← makeCallable (.function ⟨name, parameters, body⟩ scope)
      define scope name.lexeme (.callable callable)
      trace settings.debugLevel (.definedFunction name.lexeme parameters.length)
      return .normal
    | .ret _ value => do
      let value ←
        match value with
        | some value => evaluate settings stack scope value
        | none => pure .nil
      return .returned value
    | .unexpected kind => halt (.unexpectedNode .execute kind)

end

end LoxLang
