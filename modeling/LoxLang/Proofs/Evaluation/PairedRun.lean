import LoxLang.Evaluation.Program
import LoxLang.Proofs.Evaluation.PairedMachine

/-!
# Runs of programs that differ in their lines

Trees that stand for each other do the same on machines that stand for each other: they end in the
same way, with values or at tokens that stand for each other, and leave machines that again do. One
lemma for each computation on the machine and each way to put computations together says so of them;
trees follow by induction on the stack, and from them programs and source texts.
-/

namespace LoxLang

open BigStep

/-- Runs a program and reports the runtime error that ended it, if there is one. -/
def Run.report (limits : Limits) (debugLevel : Nat) (stmts : List Stmt) :
    Run (List Diagnostic) := do
  let error ← Run.program limits debugLevel stmts
  return error.toList.map (·.diagnostic)

namespace Pairing

variable {pairing : Pairing} {α β : Type}

/-- Begun on machines that stand for each other, the computations end in the same way. -/
def OnRun (pairing : Pairing) (alike : α → α → Prop) (run other : Run α) : Prop :=
  ∀ ⦃machine otherMachine⦄, pairing.OnMachine machine otherMachine →
    pairing.OnOutcome alike (run machine) (other otherMachine)

/-! ## Computations -/

namespace OnRun

variable {alike : α → α → Prop} {similar : β → β → Prop} {run other : Run α}

/-- A computation that only gives a value ends with that. -/
theorem pure {value otherValue : α} (values : alike value otherValue) :
    pairing.OnRun alike (Pure.pure value : Run α) (Pure.pure otherValue) :=
  fun _ _ machines => .done values machines

/-- Computations that halt alike end alike. -/
theorem halt {reason otherReason : Halt} (halts : pairing.OnHalt reason otherReason) :
    pairing.OnRun alike (Run.halt reason) (Run.halt otherReason) :=
  fun _ _ machines => .halted halts machines

/-- The second computations are begun on the machines that the first ones left. -/
theorem bind {next further : α → Run β} (runs : pairing.OnRun alike run other)
    (nexts : ∀ value otherValue, alike value otherValue →
      pairing.OnRun similar (next value) (further otherValue)) :
    pairing.OnRun similar (run >>= next) (other >>= further) := by
  intro machine otherMachine machines
  change pairing.OnOutcome similar (Run.bind run next machine) (Run.bind other further otherMachine)
  have ended := runs machines
  unfold Run.bind
  generalize run machine = outcome, other otherMachine = otherOutcome at ended ⊢
  cases ended with
  | done values machines => exact nexts _ _ values machines
  | halted halts machines => exact .halted halts machines

/-- A change of the machine is made on both. -/
theorem change {step otherStep : Machine → Machine}
    (keeps : ∀ {machine otherMachine}, pairing.OnMachine machine otherMachine →
      pairing.OnMachine (step machine) (otherStep otherMachine)) :
    pairing.OnRun (fun _ _ => True) (Run.change step) (Run.change otherStep) :=
  fun _ _ machines => .done trivial (keeps machines)

/-- The result of an operation is a plain value, or an error at tokens that stand for each other. -/
theorem ofExcept {result otherResult : Except RuntimeError Value}
    (results : pairing.OnResult result otherResult) :
    pairing.OnRun pairing.OnValue (Run.ofExcept result) (Run.ofExcept otherResult) := by
  cases results with
  | ok isPlain => exact .pure (.plain isPlain)
  | error errors => exact .halt (.failed errors)

/-- A used up stack is reported at tokens that stand for each other. -/
theorem reportingOverflow {token otherToken : Token} (tokens : pairing.Pairs token otherToken)
    (runs : pairing.OnRun alike run other) :
    pairing.OnRun alike (Run.reportingOverflow token run)
      (Run.reportingOverflow otherToken other) := by
  intro machine otherMachine machines
  have ended := runs machines
  unfold Run.reportingOverflow
  generalize run machine = outcome, other otherMachine = otherOutcome at ended ⊢
  cases ended with
  | done values machines => exact .done values machines
  | halted halts machines =>
    cases halts with
    | overflow => exact .halted (.failed (.atToken .stackOverflow tokens)) machines
    | failed errors => exact .halted (.failed errors) machines
    | unexpectedNode activity kind => exact .halted (.unexpectedNode activity kind) machines
    | notImplemented => exact .halted .notImplemented machines
    | raised exception => exact .halted (.raised exception) machines
    | endless => exact .halted .endless machines

/-- Computations over lists give lists, item by item. -/
theorem each {item : β → β → Prop} {run other : β → Run α} {items others : List β}
    (all : List.Forall₂ item items others)
    (runs : ∀ {first second}, item first second →
      pairing.OnRun alike (run first) (other second)) :
    pairing.OnRun (List.Forall₂ alike) (Run.each run items) (Run.each other others) := by
  induction all with
  | nil => exact .pure .nil
  | cons items _ inductionHypothesis =>
    refine .bind (runs items) fun _ _ first => ?_
    exact .bind inductionHypothesis fun _ _ further => .pure (.cons first further)

/-- Statements one after the other end at the same one. -/
theorem sequence {execute otherExecute : Stmt → Run Completion} {stmts others : List Stmt}
    (all : List.Forall₂ pairing.OnStmt stmts others)
    (runs : ∀ {stmt other}, pairing.OnStmt stmt other →
      pairing.OnRun pairing.OnCompletion (execute stmt) (otherExecute other)) :
    pairing.OnRun pairing.OnCompletion (Run.sequence execute stmts)
      (Run.sequence otherExecute others) := by
  induction all with
  | nil => exact .pure .normal
  | cons stmts _ inductionHypothesis =>
    rw [sequence_cons, sequence_cons]
    refine .bind (runs stmts) fun completion otherCompletion completions => ?_
    cases completions with
    | normal => exact inductionHypothesis
    | returned values => exact .pure (.returned values)

/-- Loops turn equally often, and end with the same turn. -/
theorem loop {turn otherTurn : Run (Option Completion)}
    (runs : pairing.OnRun (Option.Rel pairing.OnCompletion) turn otherTurn) (turns : Nat) :
    pairing.OnRun pairing.OnCompletion (Run.loop turns turn) (Run.loop turns otherTurn) := by
  induction turns with
  | zero => exact .halt .endless
  | succ turns inductionHypothesis =>
    rw [loop_succ, loop_succ]
    refine .bind runs fun ends otherEnds completions => ?_
    cases completions with
    | none => exact inductionHypothesis
    | some completions => exact .pure completions

/-! ## Steps on the machine -/

/-- A message is traced on both machines or on none. -/
theorem trace (level : Nat) {entry otherEntry : TraceEntry}
    (entries : pairing.OnTraceEntry entry otherEntry) :
    pairing.OnRun (fun _ _ => True) (Run.trace level entry) (Run.trace level otherEntry) :=
  .change fun machines => machines.trace level entries

/-- The same line is printed on both machines. -/
theorem print {line otherLine : String} (sameLine : otherLine = line) :
    pairing.OnRun (fun _ _ => True) (Run.print line) (Run.print otherLine) := by
  rw [sameLine]
  exact .change fun machines => machines.emit (.same _)

/-- The same name is bound on both machines. -/
theorem define (scope : ScopeId) {name otherName : String} (sameName : otherName = name)
    {value otherValue : Value} (values : pairing.OnValue value otherValue) :
    pairing.OnRun (fun _ _ => True) (Run.define scope name value)
      (Run.define scope otherName otherValue) := by
  rw [sameName]
  exact .change fun machines => machines.withStore (machines.store.define scope name values)

/-- A variable is read on both machines, or undefined on both at its name. -/
theorem readVariable (scope : ScopeId) {name otherName : Token}
    (names : pairing.Pairs name otherName) :
    pairing.OnRun pairing.OnValue (Run.readVariable scope name)
      (Run.readVariable scope otherName) := by
  intro machine otherMachine machines
  have found := machines.store.lookup? scope name.lexeme
  unfold Run.readVariable
  rw [lexeme_eq names]
  generalize machine.store.lookup? scope name.lexeme = value at found ⊢
  generalize otherMachine.store.lookup? scope name.lexeme = otherValue at found ⊢
  cases found with
  | none => exact .halted (.failed (.atToken .undefinedVariable names)) machines
  | some values => exact .done values machines

/-- A variable is changed on both machines, or undefined on both at its name. -/
theorem assignVariable (scope : ScopeId) {name otherName : Token}
    (names : pairing.Pairs name otherName) {value otherValue : Value}
    (values : pairing.OnValue value otherValue) :
    pairing.OnRun (fun _ _ => True) (Run.assignVariable scope name value)
      (Run.assignVariable scope otherName otherValue) := by
  intro machine otherMachine machines
  unfold Run.assignVariable
  rw [lexeme_eq names, machines.store.holder? scope name.lexeme]
  split
  next holder _ =>
    exact .done trivial (machines.withStore (machines.store.define holder name.lexeme values))
  next => exact .halted (.failed (.atToken .undefinedVariable names)) machines

/-- A new scope has the same number on both machines. -/
theorem openScope (outer : ScopeId) :
    pairing.OnRun (fun scope other => other = scope) (Run.openScope outer) (Run.openScope outer) :=
  fun _ _ machines => .done machines.store.size (machines.withStore (machines.store.push _))

/-- A new callable has the same identity on both machines. -/
theorem makeCallable {behaviour other : Behaviour}
    (behaviours : pairing.OnBehaviour behaviour other) :
    pairing.OnRun pairing.OnCallable (Run.makeCallable behaviour) (Run.makeCallable other) :=
  fun _ _ machines => .done ⟨machines.callables, behaviours⟩
    ⟨machines.store, congrArg (· + 1) machines.callables, machines.clock, machines.readings,
      machines.events⟩

/-- The clock tells the same on both machines. -/
theorem readClock : pairing.OnRun pairing.OnValue Run.readClock Run.readClock := by
  intro machine otherMachine machines
  unfold Run.readClock
  rw [machines.clock, machines.readings]
  exact .done (.plain rfl) ⟨machines.store, machines.callables, rfl, rfl, machines.events⟩

/-- What a native function captured is the same on both machines. -/
theorem readCaptured (closure : Option ScopeId) (name : String) :
    pairing.OnRun pairing.OnValue (Run.readCaptured closure name)
      (Run.readCaptured closure name) := by
  cases closure with
  | none => exact .pure onValue_nil
  | some scope =>
    intro machine otherMachine machines
    have found := machines.store.lookup? scope name
    rw [readCaptured_some, readCaptured_some]
    refine .done ?_ machines
    generalize machine.store.lookup? scope name = value at found ⊢
    generalize otherMachine.store.lookup? scope name = otherValue at found ⊢
    cases found with
    | none => exact onValue_nil
    | some values => exact values

end OnRun

/-- Parameters are bound to arguments that stand for each other. -/
theorem onRun_bindParameters (scope : ScopeId) {parameters others : List Token}
    (all : List.Forall₂ pairing.Pairs parameters others) {arguments otherArguments : List Value}
    (values : List.Forall₂ pairing.OnValue arguments otherArguments) :
    pairing.OnRun (fun _ _ => True) (Run.bindParameters scope parameters arguments)
      (Run.bindParameters scope others otherArguments) := by
  induction all generalizing arguments otherArguments with
  | nil => exact .pure trivial
  | cons parameters _ inductionHypothesis =>
    cases values with
    | nil => exact .pure trivial
    | cons first further =>
      refine .bind (.define scope (lexeme_eq parameters) first) fun _ _ _ => ?_
      exact inductionHypothesis further

/-- Native functions that are told the same of their arguments answer in the same way. -/
theorem onRun_native (closure : Option ScopeId) (function : NativeFunction)
    {arguments others : List Value} (values : List.Forall₂ pairing.OnValue arguments others) :
    pairing.OnRun pairing.OnValue (Run.native closure function arguments)
      (Run.native closure function others) := by
  unfold Run.native
  rw [map_shown_eq OnValue.shown values]
  split
  next value _ => exact .pure (.plain (by cases value <;> rfl))
  next place _ => exact .pure (alike_getD onValue_nil values place)
  next name _ => exact .readCaptured closure name
  next exception _ => exact .halt (.raised exception)

/-! ## Trees -/

/-- Evaluating, calling and executing with this stack do the same for trees that stand for each
other. -/
structure HoldsAt (pairing : Pairing) (settings : Settings) (stack : Nat) : Prop where
  evaluate : ∀ scope {expr other}, pairing.OnExpr expr other →
    pairing.OnRun pairing.OnValue (LoxLang.evaluate settings stack scope expr)
      (LoxLang.evaluate settings stack scope other)
  invoke : ∀ {callable other}, pairing.OnCallable callable other →
    ∀ {arguments others}, List.Forall₂ pairing.OnValue arguments others →
      pairing.OnRun pairing.OnValue (LoxLang.invoke settings stack callable arguments)
        (LoxLang.invoke settings stack other others)
  execute : ∀ scope {stmt other}, pairing.OnStmt stmt other →
    pairing.OnRun pairing.OnCompletion (LoxLang.execute settings stack scope stmt)
      (LoxLang.execute settings stack scope other)

section Trees

variable {settings : Settings} {stack : Nat}

/-- A call is refused alike, or traced and done alike. -/
theorem HoldsAt.call (holds : pairing.HoldsAt settings stack) {paren otherParen : Token}
    (parens : pairing.Pairs paren otherParen) {callee otherCallee : Value}
    (callees : pairing.OnValue callee otherCallee) {arguments others : List Value}
    (values : List.Forall₂ pairing.OnValue arguments others) :
    pairing.OnRun pairing.OnValue
      (Run.call settings.debugLevel (LoxLang.invoke settings stack) paren callee arguments)
      (Run.call settings.debugLevel (LoxLang.invoke settings stack) otherParen otherCallee
        others) := by
  unfold Run.call
  rw [← values.length_eq]
  cases callees with
  | plain =>
    cases callee with
    | callable => contradiction
    | _ => exact .halt (.failed (.atToken .notCallable parens))
  | callable callables =>
    dsimp only
    rw [callables.arity]
    split
    next => exact .halt (.failed (.atToken _ parens))
    next =>
      refine .bind (.trace _ (.called _ callables parens)) fun _ _ _ => ?_
      exact .reportingOverflow parens (holds.invoke callables values)

/-- Every form of expression, where its parts do the same. -/
theorem HoldsAt.evaluate_succ (holds : pairing.HoldsAt settings stack) (scope : ScopeId)
    {expr other : Expr} (exprs : pairing.OnExpr expr other) :
    pairing.OnRun pairing.OnValue (LoxLang.evaluate settings (stack + 1) scope expr)
      (LoxLang.evaluate settings (stack + 1) scope other) := by
  cases exprs with
  | literal value => exact .pure (.plain (by cases value <;> rfl))
  | grouping inners => exact holds.evaluate scope inners
  | reference names => exact .readVariable scope names
  | assign names values =>
    refine .bind (holds.evaluate scope values) fun value otherValue values => ?_
    refine .bind (.assignVariable scope names values) fun _ _ _ => ?_
    exact .pure values
  | logical lefts operators rights =>
    refine .reportingOverflow operators (.bind (holds.evaluate scope lefts) fun _ _ values => ?_)
    rw [decides_eq operators values]
    split
    next => exact .pure values
    next => exact holds.evaluate scope rights
  | unary operators rights =>
    refine .bind (.reportingOverflow operators (holds.evaluate scope rights)) fun _ _ values => ?_
    exact .ofExcept (onResult_unary operators values)
  | @binary left right otherLeft otherRight operator otherOperator lefts operators rights =>
    have operands : pairing.OnRun
        (fun values others => pairing.OnValue values.1 others.1 ∧ pairing.OnValue values.2 others.2)
        (do
          let left ← LoxLang.evaluate settings stack scope left
          let right ← LoxLang.evaluate settings stack scope right
          return (left, right))
        (do
          let left ← LoxLang.evaluate settings stack scope otherLeft
          let right ← LoxLang.evaluate settings stack scope otherRight
          return (left, right)) := by
      refine .bind (holds.evaluate scope lefts) fun _ _ leftValues => ?_
      refine .bind (holds.evaluate scope rights) fun _ _ rightValues => ?_
      exact .pure ⟨leftValues, rightValues⟩
    refine .bind (.reportingOverflow operators operands) fun _ _ values => ?_
    exact .ofExcept (onResult_binary operators values.1 values.2)
  | call callees parens all =>
    refine .bind (holds.evaluate scope callees) fun _ _ calleeValues => ?_
    refine .bind (.each all (holds.evaluate scope)) fun _ _ values => ?_
    exact holds.call parens calleeValues values
  | unexpected kind => exact .halt (.unexpectedNode .evaluate kind)

/-- A call, where the body of the function does the same. -/
theorem HoldsAt.invoke_succ (holds : pairing.HoldsAt settings stack) {callable other : Callable}
    (callables : pairing.OnCallable callable other) {arguments others : List Value}
    (values : List.Forall₂ pairing.OnValue arguments others) :
    pairing.OnRun pairing.OnValue (LoxLang.invoke settings (stack + 1) callable arguments)
      (LoxLang.invoke settings (stack + 1) other others) := by
  obtain ⟨identity, behaviour⟩ := callable
  obtain ⟨otherIdentity, otherBehaviour⟩ := other
  obtain ⟨-, behaviours⟩ := callables
  cases behaviours with
  | function closure declarations =>
    refine .bind (.openScope closure) ?_
    rintro _ scope rfl
    refine .bind (onRun_bindParameters scope declarations.parameters values) fun _ _ _ => ?_
    refine .bind (.sequence declarations.body (holds.execute scope)) fun _ _ completions => ?_
    exact .pure completions.value
  | clock => exact .readClock
  | native arity closure function => exact onRun_native closure function values
  | abstract arity => exact .halt .notImplemented

/-- One turn of a loop, where the condition and the body do the same. -/
theorem HoldsAt.loopTurn (holds : pairing.HoldsAt settings stack) (scope : ScopeId)
    {condition otherCondition : Expr} (conditions : pairing.OnExpr condition otherCondition)
    {body otherBody : Stmt} (bodies : pairing.OnStmt body otherBody) :
    pairing.OnRun (Option.Rel pairing.OnCompletion)
      (BigStep.loopTurn settings stack scope condition body)
      (BigStep.loopTurn settings stack scope otherCondition otherBody) := by
  refine .bind (holds.evaluate scope conditions) fun _ _ values => ?_
  refine .bind (.trace _ (.whileCondition values)) fun _ _ _ => ?_
  rw [values.isTruthy]
  split
  next =>
    refine .bind (holds.execute scope bodies) fun _ _ completions => ?_
    cases completions with
    | normal => exact .pure .none
    | returned values => exact .pure (.some (.returned values))
  next => exact .pure (.some .normal)

/-- Every form of statement, where its parts do the same. -/
theorem HoldsAt.execute_succ (holds : pairing.HoldsAt settings stack) (scope : ScopeId)
    {stmt other : Stmt} (stmts : pairing.OnStmt stmt other) :
    pairing.OnRun pairing.OnCompletion (LoxLang.execute settings (stack + 1) scope stmt)
      (LoxLang.execute settings (stack + 1) scope other) := by
  cases stmts with
  | expression values =>
    exact .bind (holds.evaluate scope values) fun _ _ _ => .pure .normal
  | print values =>
    refine .bind (holds.evaluate scope values) fun _ _ values => ?_
    exact .bind (.print values.display) fun _ _ _ => .pure .normal
  | @var name otherName start otherStart names starts =>
    have defined {value otherValue : Value} (values : pairing.OnValue value otherValue) :
        pairing.OnRun pairing.OnCompletion
          (do
            Run.define scope name.lexeme value
            Run.trace settings.debugLevel (.defined name.lexeme value)
            return Completion.normal)
          (do
            Run.define scope otherName.lexeme otherValue
            Run.trace settings.debugLevel (.defined otherName.lexeme otherValue)
            return Completion.normal) := by
      refine .bind (.define scope (lexeme_eq names) values) fun _ _ _ => ?_
      rw [lexeme_eq names]
      exact .bind (.trace _ (.defined _ values)) fun _ _ _ => .pure .normal
    cases starts with
    | none => exact defined onValue_nil
    | some starts => exact .bind (holds.evaluate scope starts) fun _ _ values => defined values
  | block all =>
    refine .bind (.openScope scope) ?_
    rintro _ inner rfl
    exact .sequence all (holds.execute inner)
  | conditional conditions consequents alternatives =>
    refine .bind (holds.evaluate scope conditions) fun _ _ values => ?_
    refine .bind (.trace _ (.ifCondition values)) fun _ _ _ => ?_
    rw [values.isTruthy]
    split
    next => exact holds.execute scope consequents
    next =>
      cases alternatives with
      | none => exact .pure .normal
      | some alternatives => exact holds.execute scope alternatives
  | loop conditions bodies =>
    rw [execute_loop, execute_loop]
    exact .loop (holds.loopTurn scope conditions bodies) _
  | @function name otherName parameters otherParameters body otherBody names all bodies =>
    refine .bind (.makeCallable (.function scope ⟨names, all, bodies⟩)) fun _ _ callables => ?_
    refine .bind (.define scope (lexeme_eq names) (.callable callables)) fun _ _ _ => ?_
    rw [lexeme_eq names, ← all.length_eq]
    exact .bind (.trace _ (.definedFunction _ _)) fun _ _ _ => .pure .normal
  | ret keywords values =>
    cases values with
    | none => exact .pure (.returned onValue_nil)
    | some values =>
      exact .bind (holds.evaluate scope values) fun _ _ values => .pure (.returned values)
  | unexpected kind => exact .halt (.unexpectedNode .execute kind)

/-- Trees that stand for each other do the same with every stack, by induction on it. -/
theorem holdsAt (pairing : Pairing) (settings : Settings) (stack : Nat) :
    pairing.HoldsAt settings stack := by
  -- Whatever is evaluated inside has less stack. The turns of a loop have their own induction.
  induction stack with
  | zero => exact ⟨fun _ _ _ _ => .halt .overflow, fun _ _ _ _ => .halt .overflow,
      fun _ _ _ _ => .halt .overflow⟩
  | succ stack inductionHypothesis =>
    exact ⟨inductionHypothesis.evaluate_succ, inductionHypothesis.invoke_succ,
      inductionHypothesis.execute_succ⟩

end Trees

/-! ## Programs -/

/-- Programs do the same statement by statement. -/
theorem onRun_statements (settings : Settings) (nesting : Nat) {stmts others : List Stmt}
    (all : List.Forall₂ pairing.OnStmt stmts others) :
    pairing.OnRun (fun _ _ => True) (Run.statements settings nesting stmts)
      (Run.statements settings nesting others) := by
  induction all with
  | nil => exact .pure trivial
  | cons stmts _ inductionHypothesis =>
    rw [Run.statements_cons, Run.statements_cons]
    refine .bind ((pairing.holdsAt settings nesting).execute Store.globals stmts) fun _ _ _ => ?_
    exact inductionHypothesis

/-- A program ends with the same error, which is traced alike. -/
theorem onRun_program (limits : Limits) (debugLevel : Nat) {stmts others : List Stmt}
    (all : List.Forall₂ pairing.OnStmt stmts others) :
    pairing.OnRun (Option.Rel pairing.OnRuntimeError) (Run.program limits debugLevel stmts)
      (Run.program limits debugLevel others) := by
  intro machine otherMachine machines
  have ended := onRun_statements (limits.settings debugLevel) limits.nesting all machines
  unfold Run.program
  generalize Run.statements _ _ stmts machine = outcome at ended ⊢
  generalize Run.statements _ _ others otherMachine = otherOutcome at ended ⊢
  cases ended with
  | done _ machines => exact .done .none machines
  | halted halts machines =>
    cases halts with
    | failed errors => exact .done (.some errors) (machines.trace _ errors.traceEntry)
    | overflow => exact .halted .overflow machines
    | unexpectedNode activity kind => exact .halted (.unexpectedNode activity kind) machines
    | notImplemented => exact .halted .notImplemented machines
    | raised exception => exact .halted (.raised exception) machines
    | endless => exact .halted .endless machines

/-- The reports of programs that stand for each other do. -/
theorem onRun_report (limits : Limits) (debugLevel : Nat) {stmts others : List Stmt}
    (all : List.Forall₂ pairing.OnStmt stmts others) :
    pairing.OnRun (List.Forall₂ pairing.OnDiagnostic) (Run.report limits debugLevel stmts)
      (Run.report limits debugLevel others) := by
  refine .bind (onRun_program limits debugLevel all) fun error otherError errors => .pure ?_
  cases errors with
  | none => exact .nil
  | some errors => exact .cons errors.diagnostic .nil

/-- Source texts do the same if they are read as trees that stand for each other. -/
theorem onRun_source (limits : Limits) (debugLevel : Nat) {text other : String}
    (statements : List.Forall₂ pairing.OnStmt (Program.ofSource limits.nesting text).statements
      (Program.ofSource limits.nesting other).statements)
    (diagnostics : List.Forall₂ pairing.OnDiagnostic
      (Program.ofSource limits.nesting text).diagnostics
      (Program.ofSource limits.nesting other).diagnostics) :
    pairing.OnRun (List.Forall₂ pairing.OnDiagnostic) (Run.source limits debugLevel text)
      (Run.source limits debugLevel other) := by
  unfold Run.source
  generalize Program.ofSource limits.nesting text = program at *
  generalize Program.ofSource limits.nesting other = otherProgram at *
  have sameClean : otherProgram.isClean = program.isClean := by
    unfold Program.isClean
    generalize program.diagnostics = all, otherProgram.diagnostics = others at diagnostics ⊢
    cases diagnostics <;> rfl
  dsimp only
  rw [sameClean]
  split
  next => exact onRun_report limits debugLevel statements
  next => exact .pure diagnostics

end Pairing
end LoxLang
