import LoxLang.Evaluation.Program
import LoxLang.Proofs.Evaluation.View

/-!
# Laws of runs

Runs come to an end together if each of them does. A law is a property that runs have together if
each of them has it, and that failures and endless loops have: it holds over lists, in sequences of
statements and in loops, part by part. If every step that a run can take has it as well, then every
task has it, whatever it evaluates, calls or executes.
-/

namespace LoxLang

open BigStep

variable {α β : Type}

/-- Behind a computation that is done, the next one goes on where it stopped. -/
theorem Run.bind_of_done {run : Run α} {next : α → Run β} {machine middle : Machine}
    {value : α} (isFirst : run machine = .done value middle) :
    (run >>= next) machine = next value middle := by
  change Run.bind run next machine = _
  unfold Run.bind
  rw [isFirst]

/-- Two computations that are done together were done one after the other. -/
theorem Run.bind_eq_done {run : Run α} {next : α → Run β} {machine final : Machine}
    {result : β} (ends : (run >>= next) machine = .done result final) :
    ∃ value middle, run machine = .done value middle ∧ next value middle = .done result final := by
  change Run.bind run next machine = _ at ends
  unfold Run.bind at ends
  cases first : run machine with
  | done value middle =>
    rw [first] at ends
    exact ⟨value, middle, rfl, ends⟩
  | halted halt middle =>
    rw [first] at ends
    cases ends

/-- A property that runs have together if each of them has it. -/
structure Run.Law (Holds : ∀ {α : Type}, Run α → Prop) : Prop where
  pure : ∀ {α : Type} (value : α), Holds (pure value : Run α)
  bind : ∀ {α β : Type} {first : Run α} {next : α → Run β}, Holds first →
    (∀ value, Holds (next value)) → Holds (first >>= next)
  failed : ∀ {α : Type} (error : RuntimeError), Holds (Run.halt (.failed error) : Run α)
  endless : ∀ {α : Type}, Holds (Run.halt .endless : Run α)

namespace Run.Law

variable {Holds : ∀ {α : Type}, Run α → Prop} (law : Run.Law Holds)

include law

/-- The result of an operation is a value or a failure, and both obey the law. -/
theorem ofExcept (result : Except RuntimeError α) : Holds (Run.ofExcept result) := by
  cases result with
  | ok value => exact law.pure value
  | error error => exact law.failed error

/-- A computation over a list obeys the law if it does for each item. -/
theorem each {run : α → Run β} {items : List α} (holds : ∀ item ∈ items, Holds (run item)) :
    Holds (Run.each run items) := by
  induction items with
  | nil => exact law.pure []
  | cons item items inductionHypothesis =>
    obtain ⟨first, further⟩ := List.forall_mem_cons.mp holds
    exact law.bind first fun _ => law.bind (inductionHypothesis further) fun _ => law.pure _

/-- Statements one after the other obey the law if each of them does. -/
theorem sequence {execute : Stmt → Run Completion} {stmts : List Stmt}
    (holds : ∀ stmt ∈ stmts, Holds (execute stmt)) : Holds (Run.sequence execute stmts) := by
  induction stmts with
  | nil => exact law.pure Completion.normal
  | cons stmt stmts inductionHypothesis =>
    obtain ⟨first, further⟩ := List.forall_mem_cons.mp holds
    rw [sequence_cons]
    refine law.bind first fun completion => ?_
    cases completion with
    | normal => exact inductionHypothesis further
    | returned value => exact law.pure _

/-- A loop obeys the law if its turns do, by induction on those that are left. -/
theorem loop {turn : Run (Option Completion)} (holds : Holds turn) (turns : Nat) :
    Holds (Run.loop turns turn) := by
  induction turns with
  | zero => exact law.endless
  | succ turns inductionHypothesis =>
    rw [loop_succ]
    refine law.bind holds fun completion => ?_
    cases completion with
    | none => exact inductionHypothesis
    | some completion => exact law.pure completion

end Run.Law

/-! ## Every step of a run -/

/-- The message tells that a function declaration was executed. -/
def TraceEntry.isFunction : TraceEntry → Bool
  | .definedFunction _ _ => true
  | _ => false

/-- A law that every step of a run obeys. A function declaration is one step: it makes a callable,
binds it and tells so. -/
structure Run.StepLaw (settings : Settings) (Holds : ∀ {α : Type}, Run α → Prop) : Prop
    extends Run.Law Holds where
  halt : ∀ {α : Type} (halt : Halt), Holds (Run.halt halt : Run α)
  reportingOverflow : ∀ {α : Type} (token : Token) {run : Run α}, Holds run →
    Holds (Run.reportingOverflow token run)
  readVariable : ∀ scope name, Holds (Run.readVariable scope name)
  assignVariable : ∀ scope name value, Holds (Run.assignVariable scope name value)
  define : ∀ scope name value, Holds (Run.define scope name value)
  openScope : ∀ outer, Holds (Run.openScope outer)
  readClock : Holds Run.readClock
  readCaptured : ∀ closure name, Holds (Run.readCaptured closure name)
  print : ∀ line, Holds (Run.print line)
  trace : ∀ {entry : TraceEntry}, entry.isFunction = false →
    Holds (Run.trace settings.debugLevel entry)
  function : ∀ stack scope name parameters body,
    Holds (execute settings (stack + 1) scope (.function name parameters body))

namespace Run.StepLaw

variable {settings : Settings} {stack : Nat} {Holds : ∀ {α : Type}, Run α → Prop}
  (law : Run.StepLaw settings Holds)

section Parts

include law

/-- Parameters are bound one by one. -/
theorem bindParameters (scope : ScopeId) (parameters : List Token) (arguments : List Value) :
    Holds (Run.bindParameters scope parameters arguments) := by
  induction parameters generalizing arguments with
  | nil => exact law.pure ()
  | cons parameter parameters inductionHypothesis =>
    cases arguments with
    | nil => exact law.pure ()
    | cons argument arguments =>
      exact law.bind (law.define scope parameter.lexeme argument) fun _ =>
        inductionHypothesis arguments

/-- A native function gives a value, fails, or reads what it captured. -/
theorem native (closure : Option ScopeId) (function : NativeFunction) (arguments : List Value) :
    Holds (Run.native closure function arguments) := by
  unfold Run.native
  split
  · exact law.pure _
  · exact law.pure _
  · exact law.readCaptured closure _
  · exact law.halt _

/-- A call is refused, or traced and done. -/
theorem call {invoke : Callable → List Value → Run Value}
    (holds : ∀ callable arguments, Holds (invoke callable arguments)) (paren : Token)
    (callee : Value) (arguments : List Value) :
    Holds (Run.call settings.debugLevel invoke paren callee arguments) := by
  unfold Run.call
  cases callee with
  | callable callable =>
    dsimp only
    split
    · exact law.halt _
    · exact law.bind (law.trace rfl) fun _ => law.reportingOverflow paren (holds callable arguments)
  | _ => exact law.halt _

end Parts

/-- Evaluating, calling and executing with this stack obey the law. -/
structure HoldsAt (settings : Settings) (Holds : ∀ {α : Type}, Run α → Prop) (stack : Nat) :
    Prop where
  evaluate : ∀ scope expr, Holds (LoxLang.evaluate settings stack scope expr)
  invoke : ∀ callable arguments, Holds (LoxLang.invoke settings stack callable arguments)
  execute : ∀ scope stmt, Holds (LoxLang.execute settings stack scope stmt)

section Trees

variable (holds : HoldsAt settings Holds stack)

include law holds

/-- The parts of an expression are evaluated with less stack. -/
theorem evaluate_succ (scope : ScopeId) (expr : Expr) :
    Holds (LoxLang.evaluate settings (stack + 1) scope expr) := by
  cases expr with
  | literal value => exact law.pure _
  | grouping inner => exact holds.evaluate scope inner
  | reference name => exact law.readVariable scope name
  | assign name value =>
    refine law.bind (holds.evaluate scope value) fun value => ?_
    exact law.bind (law.assignVariable scope name value) fun _ => law.pure value
  | logical left operator right =>
    refine law.reportingOverflow operator (law.bind (holds.evaluate scope left) fun value => ?_)
    split
    · exact law.pure value
    · exact holds.evaluate scope right
  | unary operator right =>
    exact law.bind (law.reportingOverflow operator (holds.evaluate scope right)) fun _ =>
      law.ofExcept _
  | binary left operator right =>
    refine law.bind (law.reportingOverflow operator
      (law.bind (holds.evaluate scope left) fun _ => ?_)) fun _ => law.ofExcept _
    exact law.bind (holds.evaluate scope right) fun _ => law.pure _
  | call callee paren arguments =>
    refine law.bind (holds.evaluate scope callee) fun callee => ?_
    exact law.bind (law.each fun argument _ => holds.evaluate scope argument) fun arguments =>
      law.call holds.invoke paren callee arguments
  | unexpected kind => exact law.halt _

/-- The body of a function is executed with less stack. -/
theorem invoke_succ (callable : Callable) (arguments : List Value) :
    Holds (LoxLang.invoke settings (stack + 1) callable arguments) := by
  obtain ⟨identity, behaviour⟩ := callable
  cases behaviour with
  | function declaration closure =>
    refine law.bind (law.openScope closure) fun scope => ?_
    refine law.bind (law.bindParameters scope declaration.parameters arguments) fun _ => ?_
    exact law.bind (law.sequence fun stmt _ => holds.execute scope stmt) fun _ => law.pure _
  | clock => exact law.readClock
  | native arity closure function => exact law.native closure function arguments
  | abstract arity => exact law.halt _

/-- A turn of a loop evaluates its condition and executes its body. -/
theorem loopTurn (scope : ScopeId) (condition : Expr) (body : Stmt) :
    Holds (BigStep.loopTurn settings stack scope condition body) := by
  refine law.bind (holds.evaluate scope condition) fun value => law.bind (law.trace rfl) fun _ => ?_
  split
  · refine law.bind (holds.execute scope body) fun completion => ?_
    cases completion <;> exact law.pure _
  · exact law.pure _

/-- The parts of a statement are executed with less stack. The turns of a loop have an induction of
their own. -/
theorem execute_succ (scope : ScopeId) (stmt : Stmt) :
    Holds (LoxLang.execute settings (stack + 1) scope stmt) := by
  cases stmt with
  | expression value => exact law.bind (holds.evaluate scope value) fun _ => law.pure _
  | print value =>
    exact law.bind (holds.evaluate scope value) fun _ => law.bind (law.print _) fun _ => law.pure _
  | var name start =>
    have defined (value : Value) : Holds (do
        Run.define scope name.lexeme value
        Run.trace settings.debugLevel (.defined name.lexeme value)
        return Completion.normal) :=
      law.bind (law.define scope name.lexeme value) fun _ =>
        law.bind (law.trace rfl) fun _ => law.pure _
    cases start with
    | none => exact law.bind (law.pure _) defined
    | some start => exact law.bind (holds.evaluate scope start) defined
  | block statements =>
    exact law.bind (law.openScope scope) fun inner =>
      law.sequence fun stmt _ => holds.execute inner stmt
  | conditional condition consequent alternative =>
    refine law.bind (holds.evaluate scope condition) fun value =>
      law.bind (law.trace rfl) fun _ => ?_
    split
    · exact holds.execute scope consequent
    · cases alternative with
      | none => exact law.pure _
      | some alternative => exact holds.execute scope alternative
  | loop condition body =>
    rw [execute_loop]
    exact law.loop (law.loopTurn holds scope condition body) _
  | function name parameters body => exact law.function stack scope name parameters body
  | ret keyword value =>
    cases value with
    | none => exact law.bind (law.pure _) fun _ => law.pure _
    | some value => exact law.bind (holds.evaluate scope value) fun _ => law.pure _
  | unexpected kind => exact law.halt _

end Trees

include law

/-- Every step of the trees obeys the law with every stack, by induction on it. -/
theorem holdsAt (stack : Nat) : HoldsAt settings Holds stack := by
  -- Whatever is run inside has less stack.
  induction stack with
  | zero => exact ⟨fun _ _ => law.halt _, fun _ _ => law.halt _, fun _ _ => law.halt _⟩
  | succ stack inductionHypothesis =>
    exact ⟨law.evaluate_succ inductionHypothesis, law.invoke_succ inductionHypothesis,
      law.execute_succ inductionHypothesis⟩

/-- Every task obeys a law that its steps obey. -/
theorem task (stack : Nat) (task : Task) : Holds (task.run settings stack) := by
  have holds := law.holdsAt stack
  cases task with
  | evaluate scope expr => exact holds.evaluate scope expr
  | evaluateAll scope exprs => exact law.each fun expr _ => holds.evaluate scope expr
  | call paren callee arguments => exact law.call holds.invoke paren callee arguments
  | execute scope stmt => exact holds.execute scope stmt
  | executeAll scope stmts => exact law.sequence fun stmt _ => holds.execute scope stmt

/-- The statements of a program are executed one after the other. -/
theorem statements (nesting : Nat) (stmts : List Stmt) :
    Holds (Run.statements settings nesting stmts) := by
  induction stmts with
  | nil => exact law.pure ()
  | cons stmt stmts inductionHypothesis =>
    rw [Run.statements_cons]
    exact law.bind (law.task nesting (.execute Store.globals stmt)) fun _ => inductionHypothesis

end Run.StepLaw
end LoxLang
