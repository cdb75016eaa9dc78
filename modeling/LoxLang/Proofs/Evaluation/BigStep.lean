import LoxLang.Evaluation.Basic

/-!
# The meaning of programs

What expressions, statements and calls do, as a relation between the state before and the state
after. The relation, rather than the definitions that run, is authoritative: it names no stack, no
limit on the turns of a loop and no debug level, and it says of every form by itself which of its
parts are evaluated, in which order, and what becomes of it if one of them fails.

Scopes, bindings, arithmetic on doubles and the text that is printed for a value are those of the
program; look-up along a chain of scopes, truth, equality and operators are stated anew.
-/

namespace LoxLang.BigStep

/-- What can be told of a machine by a program and its reader: everything but traced messages. -/
structure State where
  store : Store Value
  /-- How many callables were made. -/
  callables : Nat
  /-- What the clock tells at each reading. -/
  clock : Nat → Float
  /-- How often the clock was read. -/
  readings : Nat
  /-- The lines printed so far, in order. -/
  printed : List String

/-! ## Values -/

/-- The values that count as false. -/
inductive Falsy : Value → Prop where
  | nil : Falsy .nil
  | false : Falsy (.bool false)

/-- The values that are equal. Values of different types differ, numbers are equal as numbers or if
neither is one, and callables are told apart by identity. -/
inductive Same : Value → Value → Prop where
  | nil : Same .nil .nil
  | bool (value : Bool) : Same (.bool value) (.bool value)
  | number {left right : Float} (equal : left == right) : Same (.number left) (.number right)
  | noNumber {left right : Float} (noLeft : left.isNaN) (noRight : right.isNaN) :
      Same (.number left) (.number right)
  | text (value : String) : Same (.text value) (.text value)
  | callable {left right : Callable} (identical : left.identity = right.identity) :
      Same (.callable left) (.callable right)

/-- The left value decides an `and`, if it is false, or an `or`, if it is not. -/
inductive Decides : TokenKind → Value → Prop where
  | either {left : Value} (holds : ¬ Falsy left) : Decides .keyOr left
  | both {kind : TokenKind} {left : Value} (noOr : kind ≠ .keyOr) (fails : Falsy left) :
      Decides kind left

/-- The operators that need two numbers, with their values. -/
inductive Arithmetic : TokenKind → Float → Float → Value → Prop where
  | minus (left right : Float) : Arithmetic .minus left right (.number (left - right))
  | star (left right : Float) : Arithmetic .star left right (.number (left * right))
  | slash (left right : Float) : Arithmetic .slash left right (.number (left / right))
  | greater (left right : Float) : Arithmetic .greater left right (.bool (right < left))
  | greaterEqual (left right : Float) : Arithmetic .greaterEqual left right (.bool (right ≤ left))
  | less (left right : Float) : Arithmetic .less left right (.bool (left < right))
  | lessEqual (left right : Float) : Arithmetic .lessEqual left right (.bool (left ≤ right))

/-- How a task ends: with a result, or with what stops the whole program. -/
abbrev Ending (α : Type) : Type := Except Halt α

/-- The end by a fault at a token. -/
def fault {α : Type} (fault : Fault) (token : Token) : Ending α := .error (.failed ⟨fault, token⟩)

/-- What a unary operator makes of its operand. -/
inductive Unary (operator : Token) : Value → Ending Value → Prop where
  | holds {operand : Value} (isBang : operator.kind = .bang) (falsy : Falsy operand) :
      Unary operator operand (.ok (.bool true))
  | fails {operand : Value} (isBang : operator.kind = .bang) (truthy : ¬ Falsy operand) :
      Unary operator operand (.ok (.bool false))
  | negative {operand : Float} (isMinus : operator.kind = .minus) :
      Unary operator (.number operand) (.ok (.number (-operand)))
  | noNumber {operand : Value} (isMinus : operator.kind = .minus)
      (noNumber : ∀ number, operand ≠ .number number) :
      Unary operator operand (fault .operandNotNumber operator)
  | unknown {operand : Value} (noBang : operator.kind ≠ .bang) (noMinus : operator.kind ≠ .minus) :
      Unary operator operand (fault .unknownUnary operator)

/-- The operators of the table of arithmetic, `+`, `==` and `!=`. -/
def binaryKinds : List TokenKind :=
  [.minus, .star, .slash, .greater, .greaterEqual, .less, .lessEqual, .plus, .equalEqual,
    .bangEqual]

/-- What a binary operator makes of its operands. -/
inductive Binary (operator : Token) : Value → Value → Ending Value → Prop where
  | arithmetic {left right : Float} {value : Value}
      (arithmetic : Arithmetic operator.kind left right value) :
      Binary operator (.number left) (.number right) (.ok value)
  | noNumbers {left right : Value} {zero : Value} (isArithmetic : Arithmetic operator.kind 0 0 zero)
      (noNumbers : ∀ first second, ¬ (left = .number first ∧ right = .number second)) :
      Binary operator left right (fault .operandsNotNumbers operator)
  | sum {left right : Float} (isPlus : operator.kind = .plus) :
      Binary operator (.number left) (.number right) (.ok (.number (left + right)))
  | joined {left right : String} (isPlus : operator.kind = .plus) :
      Binary operator (.text left) (.text right) (.ok (.text (left ++ right)))
  | notAlike {left right : Value} (isPlus : operator.kind = .plus)
      (noNumbers : ∀ first second, ¬ (left = .number first ∧ right = .number second))
      (noTexts : ∀ first second, ¬ (left = .text first ∧ right = .text second)) :
      Binary operator left right (fault .operandsNotAlike operator)
  | equal {left right : Value} (isEqual : operator.kind = .equalEqual) (same : Same left right) :
      Binary operator left right (.ok (.bool true))
  | notEqual {left right : Value} (isEqual : operator.kind = .equalEqual)
      (different : ¬ Same left right) : Binary operator left right (.ok (.bool false))
  | unequal {left right : Value} (isUnequal : operator.kind = .bangEqual)
      (different : ¬ Same left right) : Binary operator left right (.ok (.bool true))
  | notUnequal {left right : Value} (isUnequal : operator.kind = .bangEqual)
      (same : Same left right) : Binary operator left right (.ok (.bool false))
  | unknown {left right : Value} (isOther : operator.kind ∉ binaryKinds) :
      Binary operator left right (fault .unknownBinary operator)

/-! ## Scopes -/

/-- The scope is the nearest one of a chain that binds the name, and it binds it to the value. -/
def Binds (store : Store Value) (scope : ScopeId) (name : String) (holder : ScopeId)
    (value : Value) : Prop :=
  ∃ inner outer, store.chain scope = inner ++ holder :: outer ∧
    (store.bindings holder).get? name = some value ∧
    ∀ nearer ∈ inner, (store.bindings nearer).get? name = none

/-- No scope of a chain binds the name. -/
def Unbound (store : Store Value) (scope : ScopeId) (name : String) : Prop :=
  ∀ holder ∈ store.chain scope, (store.bindings holder).get? name = none

namespace State

/-- The state with a name bound in a scope. -/
def define (state : State) (scope : ScopeId) (name : String) (value : Value) : State :=
  { state with store := state.store.define scope name value }

/-- The state with a new scope inside another one. -/
def inside (state : State) (outer : ScopeId) : State :=
  { state with store := state.store.push (some outer) }

/-- The number of the scope that `inside` opens. -/
def fresh (state : State) : ScopeId := state.store.size

/-- The state with parameters bound to arguments by position. -/
def bound (state : State) (scope : ScopeId) (parameters : List Token) (arguments : List Value) :
    State :=
  (parameters.zip arguments).foldl (fun state pair => state.define scope pair.1.lexeme pair.2) state

/-- The state after one more line was printed. -/
def print (state : State) (line : String) : State :=
  { state with printed := state.printed ++ [line] }

end State

/-- What a native function answers to arguments, in a state. -/
inductive Answers (function : NativeFunction) (closure : Option ScopeId) (arguments : List Value)
    (state : State) : Ending Value → Prop where
  | literal {value : Literal} (gives : function (arguments.map (·.shown)) = .ok (.literal value)) :
      Answers function closure arguments state (.ok (.ofLiteral value))
  | argument {place : Nat} {value : Value}
      (gives : function (arguments.map (·.shown)) = .ok (.argument place))
      (stands : arguments[place]? = some value) :
      Answers function closure arguments state (.ok value)
  | noArgument {place : Nat} (gives : function (arguments.map (·.shown)) = .ok (.argument place))
      (missing : arguments[place]? = none) : Answers function closure arguments state (.ok .nil)
  | captured {name : String} {scope holder : ScopeId} {value : Value}
      (gives : function (arguments.map (·.shown)) = .ok (.captured name))
      (isClosure : closure = some scope) (binds : Binds state.store scope name holder value) :
      Answers function closure arguments state (.ok value)
  | notCaptured {name : String} (gives : function (arguments.map (·.shown)) = .ok (.captured name))
      (unbound : ∀ scope ∈ closure, Unbound state.store scope name) :
      Answers function closure arguments state (.ok .nil)
  | raises {exception : String} (gives : function (arguments.map (·.shown)) = .error exception) :
      Answers function closure arguments state (.error (.raised exception))

/-! ## Tasks -/

/-- What there is to do. -/
inductive Task where
  | evaluate (scope : ScopeId) (expr : Expr)
  /-- All expressions, from left to right. -/
  | evaluateAll (scope : ScopeId) (exprs : List Expr)
  /-- A call, whose parenthesis is the place of its faults. -/
  | call (paren : Token) (callee : Value) (arguments : List Value)
  | execute (scope : ScopeId) (stmt : Stmt)
  /-- All statements, up to one that returns. -/
  | executeAll (scope : ScopeId) (stmts : List Stmt)

/-- What a task results in. -/
abbrev Task.Result : Task → Type
  | evaluate _ _ => Value
  | evaluateAll _ _ => List Value
  | call _ _ _ => Value
  | execute _ _ => Completion
  | executeAll _ _ => Completion

/-- The operators that report a used up stack of their operands. -/
inductive Reports : Expr → Token → Prop where
  | logical {left right : Expr} {operator : Token} : Reports (.logical left operator right) operator
  | unary {operator : Token} {right : Expr} : Reports (.unary operator right) operator
  | binary {left right : Expr} {operator : Token} : Reports (.binary left operator right) operator

/-- A task that begins in the first state ends this way, in the second state. On a limited machine
it may also be stopped anywhere; what a task means is how it ends on a machine that is not. -/
inductive Ends (limited : Bool) : (task : Task) → State → Ending task.Result → State → Prop where
  | literal {scope : ScopeId} {literal : Literal} {state : State} :
      Ends limited (.evaluate scope (.literal literal)) state (.ok (.ofLiteral literal)) state
  | grouping {scope : ScopeId} {inner : Expr} {before after : State} {ending : Ending Value}
      (evaluated : Ends limited (.evaluate scope inner) before ending after) :
      Ends limited (.evaluate scope (.grouping inner)) before ending after
  | reference {scope holder : ScopeId} {name : Token} {value : Value} {state : State}
      (binds : Binds state.store scope name.lexeme holder value) :
      Ends limited (.evaluate scope (.reference name)) state (.ok value) state
  | undefined {scope : ScopeId} {name : Token} {state : State}
      (unbound : Unbound state.store scope name.lexeme) :
      Ends limited (.evaluate scope (.reference name)) state (fault .undefinedVariable name) state
  | assign {scope holder : ScopeId} {name : Token} {expr : Expr} {old value : Value}
      {before after : State}
      (evaluated : Ends limited (.evaluate scope expr) before (.ok value) after)
      (binds : Binds after.store scope name.lexeme holder old) :
      Ends limited (.evaluate scope (.assign name expr)) before
        (.ok value) (after.define holder name.lexeme value)
  | assignUndefined {scope : ScopeId} {name : Token} {expr : Expr} {value : Value}
      {before after : State}
      (evaluated : Ends limited (.evaluate scope expr) before (.ok value) after)
      (unbound : Unbound after.store scope name.lexeme) :
      Ends limited (.evaluate scope (.assign name expr)) before
        (fault .undefinedVariable name) after
  | assignFails {scope : ScopeId} {name : Token} {expr : Expr} {halt : Halt}
      {before after : State}
      (fails : Ends limited (.evaluate scope expr) before (.error halt) after) :
      Ends limited (.evaluate scope (.assign name expr)) before (.error halt) after
  | decided {scope : ScopeId} {left right : Expr} {operator : Token} {value : Value}
      {before after : State}
      (evaluated : Ends limited (.evaluate scope left) before (.ok value) after)
      (decides : Decides operator.kind value) :
      Ends limited (.evaluate scope (.logical left operator right)) before (.ok value) after
  | undecided {scope : ScopeId} {left right : Expr} {operator : Token} {value : Value}
      {before between after : State} {ending : Ending Value}
      (evaluated : Ends limited (.evaluate scope left) before (.ok value) between)
      (decides : ¬ Decides operator.kind value)
      (further : Ends limited (.evaluate scope right) between ending after) :
      Ends limited (.evaluate scope (.logical left operator right)) before ending after
  | logicalFails {scope : ScopeId} {left right : Expr} {operator : Token} {halt : Halt}
      {before after : State}
      (fails : Ends limited (.evaluate scope left) before (.error halt) after) :
      Ends limited (.evaluate scope (.logical left operator right)) before (.error halt) after
  | unary {scope : ScopeId} {operator : Token} {right : Expr} {operand : Value}
      {before after : State} {ending : Ending Value}
      (evaluated : Ends limited (.evaluate scope right) before (.ok operand) after)
      (operates : Unary operator operand ending) :
      Ends limited (.evaluate scope (.unary operator right)) before ending after
  | unaryFails {scope : ScopeId} {operator : Token} {right : Expr} {halt : Halt}
      {before after : State}
      (fails : Ends limited (.evaluate scope right) before (.error halt) after) :
      Ends limited (.evaluate scope (.unary operator right)) before (.error halt) after
  | binary {scope : ScopeId} {left right : Expr} {operator : Token} {first second : Value}
      {before between after : State} {ending : Ending Value}
      (evaluatedLeft : Ends limited (.evaluate scope left) before (.ok first) between)
      (evaluatedRight : Ends limited (.evaluate scope right) between (.ok second) after)
      (operates : Binary operator first second ending) :
      Ends limited (.evaluate scope (.binary left operator right)) before ending after
  | leftFails {scope : ScopeId} {left right : Expr} {operator : Token} {halt : Halt}
      {before after : State}
      (fails : Ends limited (.evaluate scope left) before (.error halt) after) :
      Ends limited (.evaluate scope (.binary left operator right)) before (.error halt) after
  | rightFails {scope : ScopeId} {left right : Expr} {operator : Token} {first : Value}
      {halt : Halt} {before between after : State}
      (evaluatedLeft : Ends limited (.evaluate scope left) before (.ok first) between)
      (fails : Ends limited (.evaluate scope right) between (.error halt) after) :
      Ends limited (.evaluate scope (.binary left operator right)) before (.error halt) after
  | call {scope : ScopeId} {callee : Expr} {paren : Token} {arguments : List Expr} {value : Value}
      {values : List Value} {before between called after : State} {ending : Ending Value}
      (evaluatedCallee : Ends limited (.evaluate scope callee) before (.ok value) between)
      (evaluatedArguments : Ends limited (.evaluateAll scope arguments) between (.ok values) called)
      (calls : Ends limited (.call paren value values) called ending after) :
      Ends limited (.evaluate scope (.call callee paren arguments)) before ending after
  | calleeFails {scope : ScopeId} {callee : Expr} {paren : Token} {arguments : List Expr}
      {halt : Halt} {before after : State}
      (fails : Ends limited (.evaluate scope callee) before (.error halt) after) :
      Ends limited (.evaluate scope (.call callee paren arguments)) before (.error halt) after
  | argumentsFail {scope : ScopeId} {callee : Expr} {paren : Token} {arguments : List Expr}
      {value : Value} {halt : Halt} {before between after : State}
      (evaluatedCallee : Ends limited (.evaluate scope callee) before (.ok value) between)
      (fails : Ends limited (.evaluateAll scope arguments) between (.error halt) after) :
      Ends limited (.evaluate scope (.call callee paren arguments)) before (.error halt) after
  | noExpression {scope : ScopeId} {kind : NodeKind} {state : State} :
      Ends limited (.evaluate scope (.unexpected kind)) state
        (.error (.unexpectedNode .evaluate kind)) state
  | evaluateNone {scope : ScopeId} {state : State} :
      Ends limited (.evaluateAll scope []) state (.ok []) state
  | evaluateMore {scope : ScopeId} {expr : Expr} {exprs : List Expr} {value : Value}
      {values : List Value} {before between after : State}
      (first : Ends limited (.evaluate scope expr) before (.ok value) between)
      (further : Ends limited (.evaluateAll scope exprs) between (.ok values) after) :
      Ends limited (.evaluateAll scope (expr :: exprs)) before (.ok (value :: values)) after
  | firstFails {scope : ScopeId} {expr : Expr} {exprs : List Expr} {halt : Halt}
      {before after : State}
      (fails : Ends limited (.evaluate scope expr) before (.error halt) after) :
      Ends limited (.evaluateAll scope (expr :: exprs)) before (.error halt) after
  | furtherFails {scope : ScopeId} {expr : Expr} {exprs : List Expr} {value : Value} {halt : Halt}
      {before between after : State}
      (first : Ends limited (.evaluate scope expr) before (.ok value) between)
      (fails : Ends limited (.evaluateAll scope exprs) between (.error halt) after) :
      Ends limited (.evaluateAll scope (expr :: exprs)) before (.error halt) after
  | notCallable {paren : Token} {callee : Value} {arguments : List Value} {state : State}
      (noCallable : ∀ callable, callee ≠ .callable callable) :
      Ends limited (.call paren callee arguments) state (fault .notCallable paren) state
  | wrongCount {paren : Token} {callable : Callable} {arguments : List Value} {state : State}
      (wrong : arguments.length ≠ callable.arity) :
      Ends limited (.call paren (.callable callable) arguments) state
        (fault (.wrongCount callable.arity arguments.length) paren) state
  | returns {paren : Token} {identity : Nat} {declaration : Declaration} {closure : ScopeId}
      {arguments : List Value} {value : Value} {before after : State}
      (enough : arguments.length = declaration.parameters.length)
      (body : Ends limited (.executeAll before.fresh declaration.body)
        ((before.inside closure).bound before.fresh declaration.parameters arguments)
        (.ok (.returned value)) after) :
      Ends limited (.call paren (.callable ⟨identity, .function declaration closure⟩) arguments)
        before (.ok value) after
  | returnsNothing {paren : Token} {identity : Nat} {declaration : Declaration}
      {closure : ScopeId} {arguments : List Value} {before after : State}
      (enough : arguments.length = declaration.parameters.length)
      (body : Ends limited (.executeAll before.fresh declaration.body)
        ((before.inside closure).bound before.fresh declaration.parameters arguments)
        (.ok .normal) after) :
      Ends limited (.call paren (.callable ⟨identity, .function declaration closure⟩) arguments)
        before (.ok .nil) after
  | bodyFails {paren : Token} {identity : Nat} {declaration : Declaration} {closure : ScopeId}
      {arguments : List Value} {halt : Halt} {before after : State}
      (enough : arguments.length = declaration.parameters.length)
      (fails : Ends limited (.executeAll before.fresh declaration.body)
        ((before.inside closure).bound before.fresh declaration.parameters arguments)
        (.error halt) after) :
      Ends limited (.call paren (.callable ⟨identity, .function declaration closure⟩) arguments)
        before (.error halt) after
  | clock {paren : Token} {identity : Nat} {state : State} :
      Ends limited (.call paren (.callable ⟨identity, .clock⟩) []) state
        (.ok (.number (state.clock state.readings))) { state with readings := state.readings + 1 }
  | native {paren : Token} {identity : Nat} {closure : Option ScopeId} {function : NativeFunction}
      {arguments : List Value} {state : State} {ending : Ending Value}
      (answers : Answers function closure arguments state ending) :
      Ends limited
        (.call paren (.callable ⟨identity, .native arguments.length closure function⟩) arguments)
        state ending state
  | abstract {paren : Token} {identity : Nat} {arguments : List Value} {state : State} :
      Ends limited (.call paren (.callable ⟨identity, .abstract arguments.length⟩) arguments) state
        (.error .notImplemented) state
  | expression {scope : ScopeId} {expr : Expr} {value : Value} {before after : State}
      (evaluated : Ends limited (.evaluate scope expr) before (.ok value) after) :
      Ends limited (.execute scope (.expression expr)) before (.ok .normal) after
  | expressionFails {scope : ScopeId} {expr : Expr} {halt : Halt} {before after : State}
      (fails : Ends limited (.evaluate scope expr) before (.error halt) after) :
      Ends limited (.execute scope (.expression expr)) before (.error halt) after
  | print {scope : ScopeId} {expr : Expr} {value : Value} {before after : State}
      (evaluated : Ends limited (.evaluate scope expr) before (.ok value) after) :
      Ends limited (.execute scope (.print expr)) before (.ok .normal) (after.print value.display)
  | printFails {scope : ScopeId} {expr : Expr} {halt : Halt} {before after : State}
      (fails : Ends limited (.evaluate scope expr) before (.error halt) after) :
      Ends limited (.execute scope (.print expr)) before (.error halt) after
  | var {scope : ScopeId} {name : Token} {expr : Expr} {value : Value} {before after : State}
      (evaluated : Ends limited (.evaluate scope expr) before (.ok value) after) :
      Ends limited (.execute scope (.var name (some expr))) before
        (.ok .normal) (after.define scope name.lexeme value)
  | varNil {scope : ScopeId} {name : Token} {state : State} :
      Ends limited (.execute scope (.var name none)) state
        (.ok .normal) (state.define scope name.lexeme .nil)
  | varFails {scope : ScopeId} {name : Token} {expr : Expr} {halt : Halt} {before after : State}
      (fails : Ends limited (.evaluate scope expr) before (.error halt) after) :
      Ends limited (.execute scope (.var name (some expr))) before (.error halt) after
  | block {scope : ScopeId} {stmts : List Stmt} {before after : State}
      {ending : Ending Completion}
      (body : Ends limited (.executeAll before.fresh stmts) (before.inside scope) ending after) :
      Ends limited (.execute scope (.block stmts)) before ending after
  | conditionalFails {scope : ScopeId} {condition : Expr} {consequent : Stmt}
      {alternative : Option Stmt} {halt : Halt} {before after : State}
      (fails : Ends limited (.evaluate scope condition) before (.error halt) after) :
      Ends limited (.execute scope (.conditional condition consequent alternative)) before
        (.error halt) after
  | chosen {scope : ScopeId} {condition : Expr} {consequent : Stmt} {alternative : Option Stmt}
      {value : Value} {before between after : State} {ending : Ending Completion}
      (evaluated : Ends limited (.evaluate scope condition) before (.ok value) between)
      (truthy : ¬ Falsy value)
      (executed : Ends limited (.execute scope consequent) between ending after) :
      Ends limited (.execute scope (.conditional condition consequent alternative)) before
        ending after
  | refused {scope : ScopeId} {condition : Expr} {consequent alternative : Stmt} {value : Value}
      {before between after : State} {ending : Ending Completion}
      (evaluated : Ends limited (.evaluate scope condition) before (.ok value) between)
      (falsy : Falsy value)
      (executed : Ends limited (.execute scope alternative) between ending after) :
      Ends limited (.execute scope (.conditional condition consequent (some alternative))) before
        ending after
  | skipped {scope : ScopeId} {condition : Expr} {consequent : Stmt} {value : Value}
      {before after : State}
      (evaluated : Ends limited (.evaluate scope condition) before (.ok value) after)
      (falsy : Falsy value) :
      Ends limited (.execute scope (.conditional condition consequent none)) before
        (.ok .normal) after
  | loopFails {scope : ScopeId} {condition : Expr} {body : Stmt} {halt : Halt}
      {before after : State}
      (fails : Ends limited (.evaluate scope condition) before (.error halt) after) :
      Ends limited (.execute scope (.loop condition body)) before (.error halt) after
  | loopEnds {scope : ScopeId} {condition : Expr} {body : Stmt} {value : Value}
      {before after : State}
      (evaluated : Ends limited (.evaluate scope condition) before (.ok value) after)
      (falsy : Falsy value) :
      Ends limited (.execute scope (.loop condition body)) before (.ok .normal) after
  | loopBodyFails {scope : ScopeId} {condition : Expr} {body : Stmt} {value : Value} {halt : Halt}
      {before between after : State}
      (evaluated : Ends limited (.evaluate scope condition) before (.ok value) between)
      (truthy : ¬ Falsy value)
      (fails : Ends limited (.execute scope body) between (.error halt) after) :
      Ends limited (.execute scope (.loop condition body)) before (.error halt) after
  | loopReturns {scope : ScopeId} {condition : Expr} {body : Stmt} {value returned : Value}
      {before between after : State}
      (evaluated : Ends limited (.evaluate scope condition) before (.ok value) between)
      (truthy : ¬ Falsy value)
      (executed : Ends limited (.execute scope body) between (.ok (.returned returned)) after) :
      Ends limited (.execute scope (.loop condition body)) before (.ok (.returned returned)) after
  | loopTurns {scope : ScopeId} {condition : Expr} {body : Stmt} {value : Value}
      {before between turned after : State} {ending : Ending Completion}
      (evaluated : Ends limited (.evaluate scope condition) before (.ok value) between)
      (truthy : ¬ Falsy value)
      (executed : Ends limited (.execute scope body) between (.ok .normal) turned)
      (further : Ends limited (.execute scope (.loop condition body)) turned ending after) :
      Ends limited (.execute scope (.loop condition body)) before ending after
  | function {scope : ScopeId} {name : Token} {parameters : List Token} {body : List Stmt}
      {state : State} :
      Ends limited (.execute scope (.function name parameters body)) state
        (.ok .normal) ({ state with callables := state.callables + 1 }.define scope name.lexeme
          (.callable ⟨state.callables, .function ⟨name, parameters, body⟩ scope⟩))
  | ret {scope : ScopeId} {keyword : Token} {expr : Expr} {value : Value} {before after : State}
      (evaluated : Ends limited (.evaluate scope expr) before (.ok value) after) :
      Ends limited (.execute scope (.ret keyword (some expr))) before (.ok (.returned value)) after
  | retNil {scope : ScopeId} {keyword : Token} {state : State} :
      Ends limited (.execute scope (.ret keyword none)) state (.ok (.returned .nil)) state
  | retFails {scope : ScopeId} {keyword : Token} {expr : Expr} {halt : Halt}
      {before after : State}
      (fails : Ends limited (.evaluate scope expr) before (.error halt) after) :
      Ends limited (.execute scope (.ret keyword (some expr))) before (.error halt) after
  | noStatement {scope : ScopeId} {kind : NodeKind} {state : State} :
      Ends limited (.execute scope (.unexpected kind)) state
        (.error (.unexpectedNode .execute kind)) state
  | executeNone {scope : ScopeId} {state : State} :
      Ends limited (.executeAll scope []) state (.ok .normal) state
  | executeMore {scope : ScopeId} {stmt : Stmt} {stmts : List Stmt} {before between after : State}
      {ending : Ending Completion}
      (first : Ends limited (.execute scope stmt) before (.ok .normal) between)
      (further : Ends limited (.executeAll scope stmts) between ending after) :
      Ends limited (.executeAll scope (stmt :: stmts)) before ending after
  | executeReturns {scope : ScopeId} {stmt : Stmt} {stmts : List Stmt} {value : Value}
      {before after : State}
      (first : Ends limited (.execute scope stmt) before (.ok (.returned value)) after) :
      Ends limited (.executeAll scope (stmt :: stmts)) before (.ok (.returned value)) after
  | executeFails {scope : ScopeId} {stmt : Stmt} {stmts : List Stmt} {halt : Halt}
      {before after : State}
      (fails : Ends limited (.execute scope stmt) before (.error halt) after) :
      Ends limited (.executeAll scope (stmt :: stmts)) before (.error halt) after
  | overflow {task : Task} {state : State} (isLimited : limited = true) :
      Ends limited task state (.error .overflow) state
  | endless {scope : ScopeId} {condition : Expr} {body : Stmt} {state : State}
      (isLimited : limited = true) :
      Ends limited (.execute scope (.loop condition body)) state (.error .endless) state
  | operatorReports {scope : ScopeId} {expr : Expr} {token : Token} {before after : State}
      (reports : Reports expr token)
      (overflows : Ends limited (.evaluate scope expr) before (.error .overflow) after) :
      Ends limited (.evaluate scope expr) before (fault .stackOverflow token) after
  | callReports {paren : Token} {callee : Value} {arguments : List Value} {before after : State}
      (overflows : Ends limited (.call paren callee arguments) before (.error .overflow) after) :
      Ends limited (.call paren callee arguments) before (fault .stackOverflow paren) after

/-- What a task means: how it ends on a machine without limits. -/
abbrev Finishes (task : Task) (before : State) (ending : Ending task.Result) (after : State) :
    Prop :=
  Ends false task before ending after

end LoxLang.BigStep
