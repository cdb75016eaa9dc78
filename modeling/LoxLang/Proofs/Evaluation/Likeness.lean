import LoxLang.Proofs.Evaluation.View
import Mathlib.Data.List.Forall2

/-!
# Runs in step

Two computations are in step if, begun on machines that are alike, they end in the same way and
leave machines that are alike. A likeness says which machines are alike, which values runs come by,
in which scopes they evaluate and in which they bind names. It has to be kept by the few steps that
touch the machine; every task then keeps it, by induction on the stack. A likeness of a machine to
itself is an invariant of single runs.
-/

namespace LoxLang

open BigStep

/-! ## Arguments that are alike -/

section Arguments

variable {alike : Value → Value → Prop} {values others : List Value}

/-- A native function is told the same of arguments each of which tells the same. -/
theorem map_shown_eq (sameShown : ∀ {value other}, alike value other → other.shown = value.shown)
    (all : List.Forall₂ alike values others) : others.map (·.shown) = values.map (·.shown) := by
  induction all with
  | nil => rfl
  | cons first _ inductionHypothesis =>
    rw [List.map_cons, List.map_cons, sameShown first, inductionHypothesis]

/-- What stands at the same place is alike, and beyond the last place it is nil. -/
theorem alike_getD (alikeNil : alike .nil .nil) (all : List.Forall₂ alike values others)
    (place : Nat) : alike (values[place]?.getD .nil) (others[place]?.getD .nil) := by
  induction all generalizing place with
  | nil => exact alikeNil
  | cons first _ inductionHypothesis =>
    cases place with
    | zero => exact first
    | succ place => exact inductionHypothesis place

end Arguments

/-! ## Computations in step -/

section Steps

variable {α β : Type} {alike : Machine → Machine → Prop}

/-- Two computations ended in the same way, with a good result if they have one. -/
inductive Outcome.Match (alike : Machine → Machine → Prop) (good : α → Prop) :
    Outcome α → Outcome α → Prop where
  | done {value : α} {first second : Machine} (isGood : good value)
      (areAlike : alike first second) : Match alike good (.done value first) (.done value second)
  | halted {halt : Halt} {first second : Machine} (areAlike : alike first second) :
      Match alike good (.halted halt first) (.halted halt second)

/-- Computations that match leave machines that are alike. -/
theorem Outcome.Match.alike_machine {good : α → Prop} {outcome other : Outcome α}
    (ended : outcome.Match alike good other) : alike outcome.machine other.machine := by
  cases ended <;> assumption

/-- On machines that are alike, two computations end in the same way. -/
def Run.InStep (alike : Machine → Machine → Prop) (good : α → Prop) (run other : Run α) : Prop :=
  ∀ ⦃first second : Machine⦄, alike first second → (run first).Match alike good (other second)

namespace Run.InStep

variable {good : α → Prop} {fine : β → Prop} {run other : Run α}

/-- A good value is given on both machines. -/
theorem pure {value : α} (isGood : good value) :
    InStep alike good (Pure.pure value : Run α) (Pure.pure value) :=
  fun _ _ areAlike => .done isGood areAlike

/-- Both computations halt for the same reason. -/
theorem halt (halt : Halt) : InStep alike good (Run.halt halt) (Run.halt halt) :=
  fun _ _ areAlike => .halted areAlike

/-- Computations one after the other are in step if each of them is. -/
theorem bind {next further : α → Run β} (inStep : InStep alike good run other)
    (nextInStep : ∀ value, good value → InStep alike fine (next value) (further value)) :
    InStep alike fine (run >>= next) (other >>= further) := by
  intro first second areAlike
  change Outcome.Match alike fine (Run.bind run next first) (Run.bind other further second)
  have ended := inStep areAlike
  unfold Run.bind
  generalize run first = ending, other second = otherEnding at ended ⊢
  cases ended with
  | done isGood areAlike => exact nextInStep _ isGood areAlike
  | halted areAlike => exact .halted areAlike

/-- Computations that are in step with better results are in step with good ones. -/
theorem mono {better : α → Prop} (inStep : InStep alike better run other)
    (isGood : ∀ value, better value → good value) : InStep alike good run other := by
  intro first second areAlike
  have ended := inStep areAlike
  generalize run first = ending, other second = otherEnding at ended ⊢
  cases ended with
  | done isBetter areAlike => exact .done (isGood _ isBetter) areAlike
  | halted areAlike => exact .halted areAlike

/-- A change of the machine is in step with one that keeps machines alike. -/
theorem change {step otherStep : Machine → Machine}
    (keeps : ∀ {first second}, alike first second → alike (step first) (otherStep second)) :
    InStep alike (fun _ => True) (Run.change step) (Run.change otherStep) :=
  fun _ _ areAlike => .done trivial (keeps areAlike)

/-- The result of an operation is the same on both machines. -/
theorem ofExcept {result : Except RuntimeError α}
    (isGood : ∀ value, result = .ok value → good value) :
    InStep alike good (Run.ofExcept result) (Run.ofExcept result) := by
  cases result with
  | ok value => exact .pure (isGood value rfl)
  | error error => exact .halt _

/-- A used up stack is reported on both machines or on none. -/
theorem reportingOverflow (token : Token) (inStep : InStep alike good run other) :
    InStep alike good (Run.reportingOverflow token run) (Run.reportingOverflow token other) := by
  intro first second areAlike
  have ended := inStep areAlike
  unfold Run.reportingOverflow
  generalize run first = ending, other second = otherEnding at ended ⊢
  cases ended with
  | done isGood areAlike => exact .done isGood areAlike
  | @halted halt _ _ areAlike => cases halt <;> exact .halted areAlike

/-- Where no value could be had, `nil` stands for it on both machines. -/
theorem orNil {good : Value → Prop} {run other : Run Value} (nilIsGood : good .nil)
    (inStep : InStep alike good run other) :
    InStep alike good (Run.orNil run) (Run.orNil other) := by
  intro first second areAlike
  have ended := inStep areAlike
  unfold Run.orNil
  generalize run first = ending, other second = otherEnding at ended ⊢
  cases ended with
  | done isGood areAlike => exact .done isGood areAlike
  | halted areAlike => exact .done nilIsGood areAlike

/-- Computations over a list are in step, item by item. -/
theorem each {run other : α → Run β} {items : List α}
    (inStep : ∀ item ∈ items, InStep alike fine (run item) (other item)) :
    InStep alike (fun results => ∀ result ∈ results, fine result)
      (Run.each run items) (Run.each other items) := by
  induction items with
  | nil => exact .pure (List.forall_mem_nil _)
  | cons item items inductionHypothesis =>
    rw [List.forall_mem_cons] at inStep
    refine .bind inStep.1 fun result isFine => ?_
    refine .bind (inductionHypothesis inStep.2) fun results areFine => ?_
    exact .pure (List.forall_mem_cons.mpr ⟨isFine, areFine⟩)

/-- Statements one after the other are in step if each of them is. -/
theorem sequence {execute otherExecute : Stmt → Run Completion} {good : Completion → Prop}
    {stmts : List Stmt} (endsWell : good .normal)
    (inStep : ∀ stmt ∈ stmts, InStep alike good (execute stmt) (otherExecute stmt)) :
    InStep alike good (Run.sequence execute stmts) (Run.sequence otherExecute stmts) := by
  induction stmts with
  | nil => exact .pure endsWell
  | cons stmt stmts inductionHypothesis =>
    rw [List.forall_mem_cons] at inStep
    rw [sequence_cons, sequence_cons]
    refine .bind inStep.1 fun completion isGood => ?_
    cases completion with
    | normal => exact inductionHypothesis inStep.2
    | returned value => exact .pure isGood

/-- Loops are in step if their turns are, by induction on those that are left. -/
theorem loop {turn otherTurn : Run (Option Completion)} {good : Completion → Prop}
    (inStep : InStep alike (fun ends => ∀ completion ∈ ends, good completion) turn otherTurn)
    (turns : Nat) : InStep alike good (Run.loop turns turn) (Run.loop turns otherTurn) := by
  induction turns with
  | zero => exact .halt _
  | succ turns inductionHypothesis =>
    rw [loop_succ, loop_succ]
    refine .bind inStep fun ends areGood => ?_
    cases ends with
    | none => exact inductionHypothesis
    | some completion => exact .pure (areGood completion rfl)

end Run.InStep

end Steps

/-! ## Likenesses -/

open Run (InStep)

/-- A relation of machines that every step of runs with these settings keeps. -/
structure Likeness (settings other : Settings) where
  /-- The machines are alike. -/
  Alike : Machine → Machine → Prop
  /-- A value that a run may come by. -/
  Known : Value → Prop
  /-- A scope in which a run may evaluate. -/
  Seen : ScopeId → Prop
  /-- A scope in which a run may bind names. -/
  Own : ScopeId → Prop
  seen_of_own : ∀ {scope}, Own scope → Seen scope
  known_of_plain : ∀ {value : Value}, value.isCallable = false → Known value
  seen_of_known : ∀ {value : Value} {closure}, Known value → value.closure? = some closure →
    Seen closure
  readVariable : ∀ {scope} name, Seen scope →
    InStep Alike Known (Run.readVariable scope name) (Run.readVariable scope name)
  assignVariable : ∀ {scope value} name, Seen scope → Known value →
    InStep Alike (fun _ => True) (Run.assignVariable scope name value)
      (Run.assignVariable scope name value)
  define : ∀ {scope value} name, Own scope → Known value →
    InStep Alike (fun _ => True) (Run.define scope name value) (Run.define scope name value)
  openScope : ∀ {outer}, Seen outer → InStep Alike Own (Run.openScope outer) (Run.openScope outer)
  makeFunction : ∀ {scope} declaration, Own scope →
    InStep Alike (fun callable => Known (.callable callable))
      (Run.makeCallable (.function declaration scope))
      (Run.makeCallable (.function declaration scope))
  readClock : InStep Alike Known Run.readClock Run.readClock
  print : ∀ line, InStep Alike (fun _ => True) (Run.print line) (Run.print line)
  trace : ∀ entry, InStep Alike (fun _ => True) (Run.trace settings.debugLevel entry)
    (Run.trace other.debugLevel entry)

/-- What a binary operator gives is no callable. -/
theorem Operator.binary_plain {operator : Token} {left right value : Value}
    (isValue : Operator.binary operator left right = .ok value) : value.isCallable = false := by
  unfold Operator.binary Operator.plus Operator.onNumbers at isValue
  split at isValue <;> (try split at isValue) <;> cases isValue <;> rfl

/-- What a unary operator gives is no callable. -/
theorem Operator.unary_plain {operator : Token} {operand value : Value}
    (isValue : Operator.unary operator operand = .ok value) : value.isCallable = false := by
  unfold Operator.unary at isValue
  split at isValue <;> (try split at isValue) <;> cases isValue <;> rfl

namespace Likeness

variable {settings other : Settings} (likeness : Likeness settings other)

/-- The task needs nothing but what is known, and binds names in scopes of its own. -/
def Admits : Task → Prop
  | .evaluate scope _ | .evaluateAll scope _ => likeness.Seen scope
  | .call _ callee arguments =>
    likeness.Known callee ∧ ∀ argument ∈ arguments, likeness.Known argument
  | .execute scope _ | .executeAll scope _ => likeness.Own scope

/-- The result of the task is known. -/
def Gives : (task : Task) → task.Result → Prop
  | .evaluate _ _, value | .call _ _ _, value => likeness.Known value
  | .evaluateAll _ _, values => ∀ value ∈ values, likeness.Known value
  | .execute _ _, completion | .executeAll _ _, completion => likeness.Known completion.value

/-- Evaluating, calling and executing with this stack are in step. -/
structure HoldsAt (stack : Nat) : Prop where
  evaluate : ∀ {scope} expr, likeness.Seen scope →
    InStep likeness.Alike likeness.Known (LoxLang.evaluate settings stack scope expr)
      (LoxLang.evaluate other stack scope expr)
  invoke : ∀ {callable arguments}, likeness.Known (.callable callable) →
    (∀ argument ∈ arguments, likeness.Known argument) →
    InStep likeness.Alike likeness.Known (LoxLang.invoke settings stack callable arguments)
      (LoxLang.invoke other stack callable arguments)
  execute : ∀ {scope} stmt, likeness.Own scope →
    InStep likeness.Alike (fun completion => likeness.Known completion.value)
      (LoxLang.execute settings stack scope stmt) (LoxLang.execute other stack scope stmt)

variable {likeness} {stack : Nat}

/-- The value `nil` is known, as all plain values are. -/
theorem known_nil : likeness.Known .nil := likeness.known_of_plain rfl

/-- A call is in step if what it invokes is. -/
theorem HoldsAt.call (holds : likeness.HoldsAt stack) {callee : Value} {arguments : List Value}
    (paren : Token) (calleeKnown : likeness.Known callee)
    (argumentsKnown : ∀ argument ∈ arguments, likeness.Known argument) :
    InStep likeness.Alike likeness.Known
      (Run.call settings.debugLevel (LoxLang.invoke settings stack) paren callee arguments)
      (Run.call other.debugLevel (LoxLang.invoke other stack) paren callee arguments) := by
  unfold Run.call
  cases callee with
  | callable callable =>
    dsimp only
    split
    next => exact .halt _
    next =>
      refine .bind (likeness.trace _) fun _ _ => ?_
      exact .reportingOverflow _ (holds.invoke calleeKnown argumentsKnown)
  | _ => exact .halt _

/-- Statements one after the other are in step with the same stack. -/
theorem HoldsAt.executeAll (holds : likeness.HoldsAt stack) {scope : ScopeId} (stmts : List Stmt)
    (isOwn : likeness.Own scope) :
    InStep likeness.Alike (fun completion => likeness.Known completion.value)
      (Run.sequence (LoxLang.execute settings stack scope) stmts)
      (Run.sequence (LoxLang.execute other stack scope) stmts) :=
  .sequence known_nil fun stmt _ => holds.execute stmt isOwn

/-- Every form of expression, where its parts are in step. -/
theorem HoldsAt.evaluate_succ (holds : likeness.HoldsAt stack) {scope : ScopeId} (expr : Expr)
    (isSeen : likeness.Seen scope) :
    InStep likeness.Alike likeness.Known (LoxLang.evaluate settings (stack + 1) scope expr)
      (LoxLang.evaluate other (stack + 1) scope expr) := by
  cases expr with
  | literal value => exact .pure (likeness.known_of_plain (by cases value <;> rfl))
  | grouping inner => exact holds.evaluate inner isSeen
  | reference name => exact likeness.readVariable name isSeen
  | assign name value =>
    refine .bind (holds.evaluate value isSeen) fun value isKnown => ?_
    refine .bind (likeness.assignVariable name isSeen isKnown) fun _ _ => ?_
    exact .pure isKnown
  | logical left operator right =>
    refine .reportingOverflow _ (.bind (holds.evaluate left isSeen) fun value isKnown => ?_)
    split
    next => exact .pure isKnown
    next => exact holds.evaluate right isSeen
  | unary operator right =>
    refine .bind (.reportingOverflow _ (holds.evaluate right isSeen)) fun value _ => ?_
    exact .ofExcept fun _ isValue => likeness.known_of_plain (Operator.unary_plain isValue)
  | binary left operator right =>
    have operands : InStep likeness.Alike (fun _ => True)
        (do
          let left ← LoxLang.evaluate settings stack scope left
          let right ← LoxLang.evaluate settings stack scope right
          return (left, right))
        (do
          let left ← LoxLang.evaluate other stack scope left
          let right ← LoxLang.evaluate other stack scope right
          return (left, right)) := by
      refine .bind (holds.evaluate left isSeen) fun _ _ => ?_
      exact .bind (holds.evaluate right isSeen) fun _ _ => .pure trivial
    refine .bind (.reportingOverflow _ operands) fun values _ => ?_
    exact .ofExcept fun _ isValue => likeness.known_of_plain (Operator.binary_plain isValue)
  | call callee paren arguments =>
    refine .bind (holds.evaluate callee isSeen) fun callee calleeKnown => ?_
    refine .bind (.each fun argument _ => holds.evaluate argument isSeen) ?_
    exact fun arguments argumentsKnown => holds.call paren calleeKnown argumentsKnown
  | unexpected kind => exact .halt _

/-- To bind parameters is in step in a scope of one's own. -/
theorem bindParameters {scope : ScopeId} (isOwn : likeness.Own scope) (parameters : List Token)
    {arguments : List Value} (argumentsKnown : ∀ argument ∈ arguments, likeness.Known argument) :
    InStep likeness.Alike (fun _ => True) (Run.bindParameters scope parameters arguments)
      (Run.bindParameters scope parameters arguments) := by
  induction parameters generalizing arguments with
  | nil => exact .pure trivial
  | cons parameter parameters inductionHypothesis =>
    cases arguments with
    | nil => exact .pure trivial
    | cons argument arguments =>
      rw [List.forall_mem_cons] at argumentsKnown
      refine .bind (likeness.define parameter.lexeme isOwn argumentsKnown.1) fun _ _ => ?_
      exact inductionHypothesis argumentsKnown.2

/-- What a native function captured is read alike if its scope is seen. -/
theorem readCaptured {closure : Option ScopeId} (isSeen : ∀ scope ∈ closure, likeness.Seen scope)
    (name : String) :
    InStep likeness.Alike likeness.Known (Run.readCaptured closure name)
      (Run.readCaptured closure name) := by
  cases closure with
  | none => exact .pure known_nil
  | some scope => exact .orNil known_nil (likeness.readVariable _ (isSeen scope rfl))

/-- A native function gives what it is given, what it has captured, or a plain value. -/
theorem native {closure : Option ScopeId} (isSeen : ∀ scope ∈ closure, likeness.Seen scope)
    (function : NativeFunction) {arguments : List Value}
    (argumentsKnown : ∀ argument ∈ arguments, likeness.Known argument) :
    InStep likeness.Alike likeness.Known (Run.native closure function arguments)
      (Run.native closure function arguments) := by
  unfold Run.native
  split
  next value _ => exact .pure (likeness.known_of_plain (by cases value <;> rfl))
  next place _ =>
    refine .pure ?_
    cases stands : arguments[place]? with
    | none => exact known_nil
    | some value => exact argumentsKnown value (List.mem_of_getElem? stands)
  next name _ => exact readCaptured isSeen name
  next exception _ => exact .halt _

/-- A call, where the body of the function is in step. -/
theorem HoldsAt.invoke_succ (holds : likeness.HoldsAt stack) {callable : Callable}
    {arguments : List Value} (isKnown : likeness.Known (.callable callable))
    (argumentsKnown : ∀ argument ∈ arguments, likeness.Known argument) :
    InStep likeness.Alike likeness.Known (LoxLang.invoke settings (stack + 1) callable arguments)
      (LoxLang.invoke other (stack + 1) callable arguments) := by
  obtain ⟨identity, behaviour⟩ := callable
  cases behaviour with
  | function declaration closure =>
    refine .bind (likeness.openScope (likeness.seen_of_known isKnown rfl)) fun scope isOwn => ?_
    refine .bind (bindParameters isOwn declaration.parameters argumentsKnown) fun _ _ => ?_
    refine .bind (holds.executeAll declaration.body isOwn) fun completion valueKnown => ?_
    exact .pure valueKnown
  | clock => exact likeness.readClock
  | native arity closure function =>
    exact native (fun scope isClosure => likeness.seen_of_known isKnown isClosure) function
      argumentsKnown
  | abstract arity => exact .halt _

/-- One turn of a loop, where the condition and the body are in step. -/
theorem HoldsAt.loopTurn (holds : likeness.HoldsAt stack) {scope : ScopeId} (condition : Expr)
    (body : Stmt) (isOwn : likeness.Own scope) :
    InStep likeness.Alike
      (fun ends => ∀ completion ∈ ends, likeness.Known (Completion.value completion))
      (BigStep.loopTurn settings stack scope condition body)
      (BigStep.loopTurn other stack scope condition body) := by
  refine .bind (holds.evaluate condition (likeness.seen_of_own isOwn)) fun value _ => ?_
  refine .bind (likeness.trace _) fun _ _ => ?_
  split
  next =>
    refine .bind (holds.execute body isOwn) fun completion isKnown => ?_
    cases completion with
    | normal => exact .pure nofun
    | returned value =>
      refine .pure ?_
      rintro _ ⟨⟩
      exact isKnown
  next =>
    refine .pure ?_
    rintro _ ⟨⟩
    exact known_nil

/-- A block binds names only in the scope that it opens, wherever it stands. -/
theorem HoldsAt.block_succ (holds : likeness.HoldsAt stack) {scope : ScopeId} (stmts : List Stmt)
    (isSeen : likeness.Seen scope) :
    InStep likeness.Alike (fun completion => likeness.Known completion.value)
      (LoxLang.execute settings (stack + 1) scope (.block stmts))
      (LoxLang.execute other (stack + 1) scope (.block stmts)) :=
  .bind (likeness.openScope isSeen) fun _ isInner => holds.executeAll stmts isInner

/-- Every form of statement, where its parts are in step. -/
theorem HoldsAt.execute_succ (holds : likeness.HoldsAt stack)
    (sameTurns : other.turns = settings.turns) {scope : ScopeId} (stmt : Stmt)
    (isOwn : likeness.Own scope) :
    InStep likeness.Alike (fun completion => likeness.Known completion.value)
      (LoxLang.execute settings (stack + 1) scope stmt)
      (LoxLang.execute other (stack + 1) scope stmt) := by
  have isSeen := likeness.seen_of_own isOwn
  have ended : InStep likeness.Alike (fun completion => likeness.Known completion.value)
      (Pure.pure Completion.normal : Run Completion) (Pure.pure Completion.normal) :=
    .pure known_nil
  cases stmt with
  | expression value => exact .bind (holds.evaluate value isSeen) fun _ _ => ended
  | print value =>
    refine .bind (holds.evaluate value isSeen) fun value _ => ?_
    exact .bind (likeness.print _) fun _ _ => ended
  | var name start =>
    have defined {value : Value} (isKnown : likeness.Known value) :
        InStep likeness.Alike (fun completion => likeness.Known completion.value)
          (do
            Run.define scope name.lexeme value
            Run.trace settings.debugLevel (.defined name.lexeme value)
            return Completion.normal)
          (do
            Run.define scope name.lexeme value
            Run.trace other.debugLevel (.defined name.lexeme value)
            return Completion.normal) :=
      .bind (likeness.define name.lexeme isOwn isKnown) fun _ _ =>
        .bind (likeness.trace _) fun _ _ => ended
    cases start with
    | none => exact defined known_nil
    | some start => exact .bind (holds.evaluate start isSeen) fun _ isKnown => defined isKnown
  | block statements => exact holds.block_succ statements isSeen
  | conditional condition consequent alternative =>
    refine .bind (holds.evaluate condition isSeen) fun value _ => ?_
    refine .bind (likeness.trace _) fun _ _ => ?_
    split
    next => exact holds.execute consequent isOwn
    next =>
      cases alternative with
      | none => exact ended
      | some alternative => exact holds.execute alternative isOwn
  | loop condition body =>
    rw [execute_loop, execute_loop, sameTurns]
    exact .loop (holds.loopTurn condition body isOwn) _
  | function name parameters body =>
    refine .bind (likeness.makeFunction _ isOwn) fun callable isKnown => ?_
    refine .bind (likeness.define name.lexeme isOwn isKnown) fun _ _ => ?_
    exact .bind (likeness.trace _) fun _ _ => ended
  | ret keyword value =>
    cases value with
    | none => exact .pure known_nil
    | some value => exact .bind (holds.evaluate value isSeen) fun _ isKnown => .pure isKnown
  | unexpected kind => exact .halt _

/-- Tasks are in step with every stack, by induction on it. -/
theorem holdsAt (sameTurns : other.turns = settings.turns) (stack : Nat) :
    likeness.HoldsAt stack := by
  -- Whatever is evaluated inside has less stack. The turns of a loop have their own induction.
  induction stack with
  | zero => exact ⟨fun _ _ => .halt _, fun _ _ => .halt _, fun _ _ => .halt _⟩
  | succ stack inductionHypothesis =>
    exact ⟨inductionHypothesis.evaluate_succ, inductionHypothesis.invoke_succ,
      inductionHypothesis.execute_succ sameTurns⟩

/-- Every task that a likeness admits keeps it, however it ends. -/
theorem inStep (sameTurns : other.turns = settings.turns) (task : Task)
    (admitted : likeness.Admits task) :
    InStep likeness.Alike (likeness.Gives task) (task.run settings stack)
      (task.run other stack) := by
  have holds : likeness.HoldsAt stack := holdsAt sameTurns stack
  cases task with
  | evaluate scope expr => exact holds.evaluate expr admitted
  | evaluateAll scope exprs => exact .each fun expr _ => holds.evaluate expr admitted
  | call paren callee arguments => exact holds.call paren admitted.1 admitted.2
  | execute scope stmt => exact holds.execute stmt admitted
  | executeAll scope stmts => exact holds.executeAll stmts admitted

/-- A block keeps a likeness in every scope that may be evaluated in. -/
theorem inStep_block (sameTurns : other.turns = settings.turns) {scope : ScopeId}
    (stmts : List Stmt) (isSeen : likeness.Seen scope) :
    InStep likeness.Alike (fun completion => likeness.Known completion.value)
      (execute settings stack scope (.block stmts)) (execute other stack scope (.block stmts)) := by
  cases stack with
  | zero => exact .halt _
  | succ stack => exact (holdsAt sameTurns stack).block_succ stmts isSeen

end Likeness

end LoxLang
