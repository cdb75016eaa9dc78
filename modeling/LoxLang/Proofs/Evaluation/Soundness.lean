import LoxLang.Proofs.Evaluation.View

/-!
# Runs end as the semantics says

From every machine a task ends in a way that the big-step semantics derives: on a limited machine
always, and on one without limits unless the run reaches a limit. `Sound` says so of a computation
and the endings that are asked of it, and has one lemma for every way in which computations are put
together. The induction is on the stack; within one unit of it, lists are taken from the front and
loops turn by turn.
-/

namespace LoxLang.BigStep

open Run

variable {α β : Type} {limited : Bool}

/-- From any machine with this view the computation ends in one of the ways that are asked for. If
those are the ways of a machine without limits, it may reach a limit instead. -/
def Sound (limited : Bool) (before : State) (run : Run α) (endings : Ending α → State → Prop) :
    Prop :=
  ∀ machine, view machine = before →
    (limited = false ∧ Limited (run machine)) ∨
      endings (ending (run machine)) (finalState (run machine))

namespace Sound

variable {before : State} {endings : Ending α → State → Prop}

/-- A limit may be reached, and on a limited machine that has to be among the endings. -/
theorem limit {halt : Halt} (isLimit : IsLimit halt)
    (ends : limited = true → endings (.error halt) before) :
    Sound limited before (Run.halt halt) endings := by
  rintro machine rfl
  cases limited with
  | false => exact .inl ⟨rfl, halt, rfl, isLimit⟩
  | true => exact .inr (ends rfl)

/-- A computation that halts ends for its reason. -/
theorem halt {halt : Halt} (ends : endings (.error halt) before) :
    Sound limited before (Run.halt halt) endings := by
  rintro machine rfl
  exact .inr ends

/-- A computation that only gives a value ends with it. -/
protected theorem pure {value : α} (ends : endings (.ok value) before) :
    Sound limited before (pure value) endings := by
  rintro machine rfl
  exact .inr ends

/-- Computations one after the other end as the second does, or as the first fails. -/
theorem bind {first : Run α} {next : α → Run β} {firstEndings : Ending α → State → Prop}
    {endings : Ending β → State → Prop} (soundFirst : Sound limited before first firstEndings)
    (fails : ∀ halt after, firstEndings (.error halt) after → endings (.error halt) after)
    (goesOn : ∀ value between, firstEndings (.ok value) between →
      Sound limited between (next value) endings) :
    Sound limited before (first >>= next) endings := by
  intro machine isBefore
  have ends := soundFirst machine isBefore
  change (limited = false ∧ Limited (Run.bind first next machine)) ∨ endings
    (ending (Run.bind first next machine)) (finalState (Run.bind first next machine))
  unfold Run.bind
  cases result : first machine with
  | halted halt final =>
    rw [result] at ends
    rcases ends with ⟨isUnlimited, other, isEnd, isLimit⟩ | ends
    · exact .inl ⟨isUnlimited, other, congrArg Except.error (Except.error.inj isEnd), isLimit⟩
    · exact .inr (fails halt _ ends)
  | done value final =>
    rw [result] at ends
    rcases ends with ⟨-, halt, isEnd, -⟩ | ends
    · exact nomatch isEnd
    · exact goesOn value _ ends final rfl

/-- A change of the machine, and what follows it. -/
theorem change {step : Machine → Machine} {after : State} {next : Run β}
    {endings : Ending β → State → Prop}
    (changes : ∀ machine, view machine = before → view (step machine) = after)
    (sound : Sound limited after next endings) :
    Sound limited before (Run.change step >>= fun _ => next) endings :=
  fun machine isBefore => sound (step machine) (changes machine isBefore)

/-- A name is bound in the state that goes on. -/
theorem define {scope : ScopeId} {name : String} {value : Value} {next : Run α}
    (sound : Sound limited (before.define scope name value) next endings) :
    Sound limited before (Run.define scope name value >>= fun _ => next) endings :=
  .change (fun _ isBefore => by rw [← isBefore, ← view_define]) sound

/-- A message changes nothing of the state that goes on. -/
theorem trace {level : Nat} {entry : TraceEntry} {next : Run α}
    (sound : Sound limited before next endings) :
    Sound limited before (Run.trace level entry >>= fun _ => next) endings :=
  .change (fun machine isBefore => by rw [view_trace, isBefore]) sound

/-- A line is printed in the state that goes on. -/
theorem print {line : String} {next : Run α}
    (sound : Sound limited (before.print line) next endings) :
    Sound limited before (Run.print line >>= fun _ => next) endings :=
  .change (fun machine isBefore => by rw [view_print, isBefore]) sound

/-- A new scope has the number that the state says is fresh. -/
theorem openScope {outer : ScopeId} {next : ScopeId → Run α}
    (sound : Sound limited (before.inside outer) (next before.fresh) endings) :
    Sound limited before (Run.openScope outer >>= next) endings := by
  rintro machine rfl
  exact sound { machine with store := machine.store.push (some outer) } rfl

/-- A new callable has the identity that the state says is next. -/
theorem makeCallable {behaviour : Behaviour} {next : Callable → Run α}
    (sound : Sound limited { before with callables := before.callables + 1 }
      (next ⟨before.callables, behaviour⟩) endings) :
    Sound limited before (Run.makeCallable behaviour >>= next) endings := by
  rintro machine rfl
  exact sound { machine with callables := machine.callables + 1 } rfl

/-- A variable has the value it is bound to, or is a fault at its name. -/
theorem readVariable {scope : ScopeId} {name : Token} {endings : Ending Value → State → Prop}
    (found : ∀ holder value, Binds before.store scope name.lexeme holder value →
      endings (.ok value) before)
    (missing : Unbound before.store scope name.lexeme →
      endings (fault .undefinedVariable name) before) :
    Sound limited before (Run.readVariable scope name) endings := by
  rintro machine rfl
  right
  unfold Run.readVariable
  split
  next value isFound =>
    obtain ⟨holder, binds⟩ := lookup?_eq_some_iff.mp isFound
    exact found holder value binds
  next isMissing => exact missing (lookup?_eq_none_iff.mp isMissing)

/-- A variable is changed where it is bound, or is a fault at its name. -/
theorem assignVariable {scope : ScopeId} {name : Token} {value : Value} {next : Run α}
    (found : ∀ holder old, Binds before.store scope name.lexeme holder old →
      Sound limited (before.define holder name.lexeme value) next endings)
    (missing : Unbound before.store scope name.lexeme →
      endings (fault .undefinedVariable name) before) :
    Sound limited before (Run.assignVariable scope name value >>= fun _ => next) endings := by
  rintro machine rfl
  change (limited = false ∧
    Limited (Run.bind (Run.assignVariable scope name value) (fun _ => next) machine)) ∨ endings
    (ending (Run.bind (Run.assignVariable scope name value) (fun _ => next) machine))
    (finalState (Run.bind (Run.assignVariable scope name value) (fun _ => next) machine))
  unfold Run.bind Run.assignVariable
  cases isFound : machine.store.holder? scope name.lexeme with
  | some holder =>
    obtain ⟨old, binds⟩ := holder?_eq_some_iff.mp isFound
    exact found holder old binds
      { machine with store := machine.store.define holder name.lexeme value } rfl
  | none => exact .inr (missing (holder?_eq_none_iff.mp isFound))

/-- An operation ends with what the interpreter computes. -/
theorem ofExcept {endings : Ending Value → State → Prop} {result : Except RuntimeError Value}
    (ends : endings (ofOperator result) before) :
    Sound limited before (Run.ofExcept result) endings := by
  rintro machine rfl
  right
  cases result <;> exact ends

/-- A used up stack is reported at the token, if that is one of the endings. -/
theorem reportingOverflow {token : Token} {run : Run α} (sound : Sound limited before run endings)
    (reports : ∀ after, endings (.error .overflow) after →
      endings (fault .stackOverflow token) after) :
    Sound limited before (Run.reportingOverflow token run) endings := by
  intro machine isBefore
  have ends := sound machine isBefore
  unfold Run.reportingOverflow
  split
  next final isResult =>
    rw [isResult] at ends
    rcases ends with ⟨isUnlimited, -⟩ | ends
    · exact .inl ⟨isUnlimited, _, rfl, rfl⟩
    · exact .inr (reports _ ends)
  · exact ends

/-- What ends in one of fewer ways ends in one of more. -/
theorem mono {fewer : Ending α → State → Prop} {run : Run α}
    (sound : Sound limited before run fewer)
    (more : ∀ ending after, fewer ending after → endings ending after) :
    Sound limited before run endings :=
  fun machine isBefore => (sound machine isBefore).imp_right (more _ _)

end Sound

section Soundness

variable {settings : Settings} {stack : Nat}

/-- With this stack every task ends as the semantics says. -/
def SoundWith (limited : Bool) (settings : Settings) (stack : Nat) : Prop :=
  ∀ (task : Task) (before : State),
    Sound limited before (task.run settings stack) (Ends limited task before)

/-- Expressions one after the other end as the semantics says, by induction on them. -/
theorem sound_evaluateAll {scope : ScopeId}
    (sound : ∀ expr before, Sound limited before (evaluate settings stack scope expr)
      (Ends limited (.evaluate scope expr) before))
    (exprs : List Expr) (before : State) :
    Sound limited before (each (evaluate settings stack scope) exprs)
      (Ends limited (.evaluateAll scope exprs) before) := by
  induction exprs generalizing before with
  | nil => exact .pure .evaluateNone
  | cons expr exprs inductionHypothesis =>
    refine .bind (sound expr before) (fun _ _ fails => .firstFails fails) fun _ _ first => ?_
    refine .bind (inductionHypothesis _) (fun _ _ fails => .furtherFails first fails) ?_
    exact fun _ _ further => .pure (.evaluateMore first further)

/-- Statements one after the other end as the semantics says, by induction on them. -/
theorem sound_executeAll {scope : ScopeId}
    (sound : ∀ stmt before, Sound limited before (execute settings stack scope stmt)
      (Ends limited (.execute scope stmt) before))
    (stmts : List Stmt) (before : State) :
    Sound limited before (Run.sequence (execute settings stack scope) stmts)
      (Ends limited (.executeAll scope stmts) before) := by
  induction stmts generalizing before with
  | nil => exact .pure .executeNone
  | cons stmt stmts inductionHypothesis =>
    rw [sequence_cons]
    refine .bind (sound stmt before) (fun _ _ fails => .executeFails fails) ?_
    rintro (_ | value) between first
    · exact (inductionHypothesis between).mono fun _ _ further => .executeMore first further
    · exact .pure (.executeReturns first)

/-- Every form of expression, where its parts end as the semantics says. -/
theorem sound_evaluate (sound : SoundWith limited settings stack) (scope : ScopeId) (expr : Expr)
    (before : State) :
    Sound limited before (evaluate settings (stack + 1) scope expr)
      (Ends limited (.evaluate scope expr) before) := by
  have evaluates (expr : Expr) (before : State) := sound (.evaluate scope expr) before
  cases expr with
  | literal value => exact .pure .literal
  | grouping inner => exact (evaluates inner before).mono fun _ _ evaluated => .grouping evaluated
  | reference name =>
    exact .readVariable (fun _ _ binds => .reference binds) fun unbound => .undefined unbound
  | assign name value =>
    refine .bind (evaluates value before) (fun _ _ fails => .assignFails fails) ?_
    intro value between evaluated
    exact .assignVariable (fun _ _ binds => .pure (.assign evaluated binds))
      fun unbound => .assignUndefined evaluated unbound
  | logical left operator right =>
    refine .reportingOverflow ?_ fun _ overflows => .operatorReports .logical overflows
    refine .bind (evaluates left before) (fun _ _ fails => .logicalFails fails) ?_
    intro value between evaluated
    split
    next decided => exact .pure (.decided evaluated (decides_iff.mpr decided))
    next undecided =>
      have notDecided : ¬ Decides operator.kind value := fun decides =>
        undecided (decides_iff.mp decides)
      exact (evaluates right between).mono fun _ _ further =>
        .undecided evaluated notDecided further
  | unary operator right =>
    let evaluatedOperand (ending : Ending Value) (after : State) : Prop :=
      match ending with
      | .ok value => Ends limited (.evaluate scope right) before (.ok value) after
      | .error halt =>
        Ends limited (.evaluate scope (.unary operator right)) before (.error halt) after
    have operand : Sound limited before (evaluate settings stack scope right) evaluatedOperand := by
      refine (evaluates right before).mono ?_
      rintro (halt | value) after evaluated
      · exact .unaryFails evaluated
      · exact evaluated
    refine .bind (.reportingOverflow operand fun _ overflows => .operatorReports .unary overflows)
      (fun _ _ fails => fails) ?_
    exact fun value between evaluated => .ofExcept (.unary evaluated (unary_iff.mpr rfl))
  | binary left operator right =>
    let operands (ending : Ending (Value × Value)) (after : State) : Prop :=
      match ending with
      | .ok (first, second) =>
        ∃ between, Ends limited (.evaluate scope left) before (.ok first) between ∧
          Ends limited (.evaluate scope right) between (.ok second) after
      | .error halt =>
        Ends limited (.evaluate scope (.binary left operator right)) before (.error halt) after
    have both : Sound limited before
        (do
          let left ← evaluate settings stack scope left
          let right ← evaluate settings stack scope right
          return (left, right)) operands := by
      refine .bind (evaluates left before) (fun _ _ fails => .leftFails fails) ?_
      intro first between evaluatedLeft
      refine .bind (evaluates right between) (fun _ _ fails => .rightFails evaluatedLeft fails) ?_
      exact fun second after evaluatedRight => .pure ⟨between, evaluatedLeft, evaluatedRight⟩
    refine .bind (.reportingOverflow both fun _ overflows => .operatorReports .binary overflows)
      (fun _ _ fails => fails) ?_
    rintro ⟨first, second⟩ after ⟨between, evaluatedLeft, evaluatedRight⟩
    exact .ofExcept (.binary evaluatedLeft evaluatedRight (binary_iff.mpr rfl))
  | call callee paren arguments =>
    refine .bind (evaluates callee before) (fun _ _ fails => .calleeFails fails) ?_
    intro value between evaluatedCallee
    refine .bind (sound (.evaluateAll scope arguments) between)
      (fun _ _ fails => .argumentsFail evaluatedCallee fails) ?_
    intro values called evaluatedArguments
    exact (sound (.call paren value values) called).mono fun _ _ calls =>
      .call evaluatedCallee evaluatedArguments calls
  | unexpected kind => exact .halt .noExpression

/-- A loop, whose turns are limited apart from the stack. -/
theorem sound_loop (sound : SoundWith limited settings stack) (scope : ScopeId) (condition : Expr)
    (body : Stmt) (turns : Nat) (before : State) :
    Sound limited before (Run.loop turns (loopTurn settings stack scope condition body))
      (Ends limited (.execute scope (.loop condition body)) before) := by
  induction turns generalizing before with
  | zero => exact .limit trivial fun isLimited => .endless isLimited
  | succ turns inductionHypothesis =>
    let turned (ending : Ending (Option Completion)) (after : State) : Prop :=
      match ending with
      | .ok (some completion) =>
        Ends limited (.execute scope (.loop condition body)) before (.ok completion) after
      | .ok none =>
        ∀ ending final, Ends limited (.execute scope (.loop condition body)) after ending final →
          Ends limited (.execute scope (.loop condition body)) before ending final
      | .error halt =>
        Ends limited (.execute scope (.loop condition body)) before (.error halt) after
    rw [loop_succ]
    refine .bind (?_ : Sound limited before _ turned) (fun _ _ fails => fails) ?_
    · refine .bind (sound (.evaluate scope condition) before) (fun _ _ fails => .loopFails fails) ?_
      intro value between evaluated
      refine .trace ?_
      split
      next truthy =>
        have holds := not_falsy_iff.mpr truthy
        refine .bind (sound (.execute scope body) between)
          (fun _ _ fails => .loopBodyFails evaluated holds fails) ?_
        rintro (_ | returned) after executed
        · exact .pure fun _ _ further => .loopTurns evaluated holds executed further
        · exact .pure (.loopReturns evaluated holds executed)
      next falsy =>
        exact .pure (.loopEnds evaluated (falsy_iff.mpr (Bool.eq_false_iff.mpr falsy)))
    · rintro (_ | completion) between goesOn
      · exact (inductionHypothesis between).mono goesOn
      · exact .pure goesOn

/-- Every form of statement, where its parts end as the semantics says. -/
theorem sound_execute (sound : SoundWith limited settings stack) (scope : ScopeId) (stmt : Stmt)
    (before : State) :
    Sound limited before (execute settings (stack + 1) scope stmt)
      (Ends limited (.execute scope stmt) before) := by
  have evaluates (expr : Expr) (before : State) := sound (.evaluate scope expr) before
  have executes (stmt : Stmt) (before : State) := sound (.execute scope stmt) before
  cases stmt with
  | expression value =>
    refine .bind (evaluates value before) (fun _ _ fails => .expressionFails fails) ?_
    exact fun _ _ evaluated => .pure (.expression evaluated)
  | print value =>
    refine .bind (evaluates value before) (fun _ _ fails => .printFails fails) ?_
    exact fun _ _ evaluated => .print (.pure (.print evaluated))
  | var name start =>
    cases start with
    | none => exact .define (.trace (.pure .varNil))
    | some start =>
      refine .bind (evaluates start before) (fun _ _ fails => .varFails fails) ?_
      exact fun _ _ evaluated => .define (.trace (.pure (.var evaluated)))
  | block statements =>
    refine .openScope ?_
    exact (sound (.executeAll before.fresh statements) (before.inside scope)).mono
      fun _ _ body => .block body
  | conditional condition consequent alternative =>
    refine .bind (evaluates condition before) (fun _ _ fails => .conditionalFails fails) ?_
    intro value between evaluated
    refine .trace ?_
    split
    next truthy =>
      exact (executes consequent between).mono fun _ _ executed =>
        .chosen evaluated (not_falsy_iff.mpr truthy) executed
    next isFalse =>
      have falsy := falsy_iff.mpr (Bool.eq_false_iff.mpr isFalse)
      cases alternative with
      | none => exact .pure (.skipped evaluated falsy)
      | some alternative =>
        exact (executes alternative between).mono fun _ _ executed =>
          .refused evaluated falsy executed
  | loop condition body => exact sound_loop sound scope condition body settings.turns before
  | function name parameters body => exact .makeCallable (.define (.trace (.pure .function)))
  | ret keyword value =>
    cases value with
    | none => exact .pure .retNil
    | some value =>
      refine .bind (evaluates value before) (fun _ _ fails => .retFails fails) ?_
      exact fun _ _ evaluated => .pure (.ret evaluated)
  | unexpected kind => exact .halt .noStatement

/-- Parameters are bound by position. -/
theorem sound_bindParameters {scope : ScopeId} {parameters : List Token} {arguments : List Value}
    {before : State} {next : Run α} {endings : Ending α → State → Prop}
    (sound : Sound limited (before.bound scope parameters arguments) next endings) :
    Sound limited before (bindParameters scope parameters arguments >>= fun _ => next) endings := by
  induction parameters generalizing arguments before with
  | nil => exact sound
  | cons parameter parameters inductionHypothesis =>
    cases arguments with
    | nil => exact sound
    | cons argument arguments => exact .define (inductionHypothesis sound)

/-- A native function answers as the semantics says. -/
theorem sound_native (closure : Option ScopeId) (function : NativeFunction)
    (arguments : List Value) (before : State) :
    Sound limited before (Run.native closure function arguments) fun ending after =>
      after = before ∧ Answers function closure arguments before ending := by
  rintro machine rfl
  obtain ⟨ends, answers⟩ := answers_exists function closure arguments (view machine)
  rw [native_of_answers answers]
  cases ends <;> exact .inr ⟨rfl, answers⟩

/-- A call of a callable with as many arguments as it needs. -/
theorem sound_invoke (sound : SoundWith limited settings stack) {paren : Token}
    {callable : Callable} {arguments : List Value}
    (enough : arguments.length = callable.arity) (before : State) :
    Sound limited before (invoke settings (stack + 1) callable arguments)
      (Ends limited (.call paren (.callable callable) arguments) before) := by
  obtain ⟨identity, behaviour⟩ := callable
  cases behaviour with
  | function declaration closure =>
    refine .openScope (sound_bindParameters ?_)
    refine .bind (sound (.executeAll before.fresh declaration.body) _)
      (fun _ _ fails => .bodyFails enough fails) ?_
    rintro (_ | value) after body
    · exact .pure (.returnsNothing enough body)
    · exact .pure (.returns enough body)
  | clock =>
    obtain rfl : arguments = [] := List.length_eq_zero_iff.mp enough
    rintro machine rfl
    exact .inr .clock
  | native arity closure function =>
    obtain rfl : arguments.length = arity := enough
    refine (sound_native closure function arguments before).mono ?_
    rintro _ _ ⟨rfl, answers⟩
    exact .native answers
  | abstract arity =>
    obtain rfl : arguments.length = arity := enough
    exact .halt .abstract

/-- A call, where the callable, if there is one, is invoked as the semantics says. -/
theorem sound_call {paren : Token} {callee : Value} {arguments : List Value} (before : State)
    (invokes : ∀ callable, callee = .callable callable → arguments.length = callable.arity →
      Sound limited before (invoke settings stack callable arguments)
        (Ends limited (.call paren callee arguments) before)) :
    Sound limited before
      (Run.call settings.debugLevel (invoke settings stack) paren callee arguments)
      (Ends limited (.call paren callee arguments) before) := by
  unfold Run.call
  cases callee with
  | callable callable =>
    dsimp only
    split
    next wrong => exact .halt (.wrongCount wrong)
    next enough =>
      have invoked := invokes callable rfl (Decidable.not_not.mp enough)
      exact .trace (.reportingOverflow invoked fun _ overflows => .callReports overflows)
  | _ =>
    refine .halt (.notCallable ?_)
    rintro callable ⟨⟩

/-- Tasks end as the semantics says with every stack, by induction on it. -/
theorem soundWith (limited : Bool) (settings : Settings) (stack : Nat) :
    SoundWith limited settings stack := by
  induction stack with
  | zero =>
    have evaluates (scope : ScopeId) (expr : Expr) (before : State) :
        Sound limited before (evaluate settings 0 scope expr)
          (Ends limited (.evaluate scope expr) before) :=
      .limit trivial fun isLimited => .overflow isLimited
    have executes (scope : ScopeId) (stmt : Stmt) (before : State) :
        Sound limited before (execute settings 0 scope stmt)
          (Ends limited (.execute scope stmt) before) :=
      .limit trivial fun isLimited => .overflow isLimited
    intro task before
    cases task with
    | evaluate scope expr => exact evaluates scope expr before
    | evaluateAll scope exprs => exact sound_evaluateAll (evaluates scope) exprs before
    | call paren callee arguments =>
      exact sound_call before fun _ _ _ => .limit trivial fun isLimited => .overflow isLimited
    | execute scope stmt => exact executes scope stmt before
    | executeAll scope stmts => exact sound_executeAll (executes scope) stmts before
  | succ stack inductionHypothesis =>
    have evaluates := sound_evaluate inductionHypothesis
    have executes := sound_execute inductionHypothesis
    intro task before
    cases task with
    | evaluate scope expr => exact evaluates scope expr before
    | evaluateAll scope exprs => exact sound_evaluateAll (evaluates scope) exprs before
    | call paren callee arguments =>
      refine sound_call before fun callable isCallable enough => ?_
      subst isCallable
      exact sound_invoke inductionHypothesis enough before
    | execute scope stmt => exact executes scope stmt before
    | executeAll scope stmts => exact sound_executeAll (executes scope) stmts before

end Soundness

end LoxLang.BigStep
