import LoxLang.Proofs.Evaluation.View

/-!
# What the semantics derives is run

Whatever the big-step semantics derives is what every run with enough stack and enough turns of its
loops ends with, at every debug level. `Settles` says so of a family of computations, one for each
setting and stack, and has one lemma for every way in which computations are put together. The
induction is on the derivation.

A derivation that turns a loop once more has a shorter derivation for the same loop in it, which
runs with one turn less; the turns that an outermost loop has left are therefore told apart from
those that the settings allow every loop.
-/

namespace LoxLang.BigStep

open Run

variable {α β : Type}

/-- A family of computations, by settings, stack and the turns that are left. -/
abbrev Family (α : Type) : Type := Settings → Nat → Nat → Run α

/-- With enough stack and turns the computations end this way, from every machine with this view. -/
def Settles (family : Family α) (before : State) (ending : Ending α) (after : State) : Prop :=
  ∃ bound, ∀ settings stack turns machine, bound ≤ stack → bound ≤ settings.turns → bound ≤ turns →
    view machine = before → ∃ final, family settings stack turns machine = outcome ending final ∧
      view final = after

namespace Settles

variable {before between after : State} {ending : Ending α}

/-- A computation that needs nothing. -/
theorem intro {family : Family α} (runs : ∀ settings stack turns machine, view machine = before →
      ∃ final, family settings stack turns machine = outcome ending final ∧ view final = after) :
    Settles family before ending after :=
  ⟨0, fun settings stack turns machine _ _ _ => runs settings stack turns machine⟩

/-- A computation that only gives a value settles to that. -/
protected theorem pure (value : α) : Settles (fun _ _ _ => pure value) before (.ok value) before :=
  .intro fun _ _ _ machine isBefore => ⟨machine, rfl, isBefore⟩

/-- A computation that halts settles to its reason. -/
theorem halt (halt : Halt) :
    Settles (fun _ _ _ => (Run.halt halt : Run α)) before (.error halt) before :=
  .intro fun _ _ _ machine isBefore => ⟨machine, rfl, isBefore⟩

/-- A computation that is reached with one unit of the stack taken. -/
theorem succ {family : Family α}
    (settles : Settles (fun settings stack turns => family settings (stack + 1) turns) before ending
      after) : Settles family before ending after := by
  obtain ⟨bound, runs⟩ := settles
  refine ⟨bound + 1, fun settings stack turns machine enough enoughTurns enoughLeft => ?_⟩
  cases stack with
  | zero => exact absurd enough (Nat.not_succ_le_zero bound)
  | succ stack =>
    exact runs settings stack turns machine (by omega) (by omega) (by omega)

/-- More stack than enough is enough. -/
theorem more {family : Family α} (settles : Settles family before ending after) :
    Settles (fun settings stack turns => family settings (stack + 1) turns) before ending
      after := by
  obtain ⟨bound, runs⟩ := settles
  exact ⟨bound, fun settings stack turns machine enough =>
    runs settings (stack + 1) turns machine (Nat.le_succ_of_le enough)⟩

/-- A computation that is reached with one turn taken. -/
theorem turn {family : Family α}
    (settles : Settles (fun settings stack turns => family settings stack (turns + 1)) before ending
      after) : Settles family before ending after := by
  obtain ⟨bound, runs⟩ := settles
  refine ⟨bound + 1, fun settings stack turns machine enough enoughTurns enoughLeft => ?_⟩
  cases turns with
  | zero => exact absurd enoughLeft (Nat.not_succ_le_zero bound)
  | succ turns =>
    exact runs settings stack turns machine (by omega) (by omega) (by omega)

/-- The same computations settle to the same ending. -/
theorem congr {family other : Family α}
    (same : ∀ settings stack turns, family settings stack turns = other settings stack turns)
    (settles : Settles other before ending after) : Settles family before ending after := by
  have equal : family = other := by
    funext settings stack turns
    exact same settings stack turns
  exact equal ▸ settles

/-- A choice settles as the branch that its condition chooses. -/
theorem ite_pos {condition : Prop} [Decidable condition] {family other : Family α}
    (holds : condition) (settles : Settles family before ending after) :
    Settles (fun settings stack turns => if condition then family settings stack turns
      else other settings stack turns) before ending after :=
  settles.congr fun _ _ _ => if_pos holds

/-- A choice settles as the other branch where its condition fails. -/
theorem ite_neg {condition : Prop} [Decidable condition] {family other : Family α}
    (fails : ¬ condition) (settles : Settles other before ending after) :
    Settles (fun settings stack turns => if condition then family settings stack turns
      else other settings stack turns) before ending after :=
  settles.congr fun _ _ _ => if_neg fails

/-- Computations one after the other settle if each does; the larger of their bounds is enough for
both. -/
theorem bind {first : Family α} {next : Settings → Nat → Nat → α → Run β} {value : α}
    {ending : Ending β} (settlesFirst : Settles first before (.ok value) between)
    (settlesNext : Settles (fun settings stack turns => next settings stack turns value) between
      ending after) :
    Settles (fun settings stack turns => first settings stack turns >>= next settings stack turns)
      before ending after := by
  obtain ⟨bound, runs⟩ := settlesFirst
  obtain ⟨boundNext, runsNext⟩ := settlesNext
  refine ⟨max bound boundNext,
    fun settings stack turns machine enough enoughTurns enoughLeft isBefore => ?_⟩
  obtain ⟨middle, isMiddle, isBetween⟩ :=
    runs settings stack turns machine (by omega) (by omega) (by omega) isBefore
  obtain ⟨final, isFinal, isAfter⟩ :=
    runsNext settings stack turns middle (by omega) (by omega) (by omega) isBetween
  refine ⟨final, ?_, isAfter⟩
  change Run.bind (first settings stack turns) (next settings stack turns) machine = _
  rw [Run.bind, isMiddle]
  exact isFinal

/-- A computation that halts keeps the next one from running. -/
theorem bind_error {first : Family α} {next : Settings → Nat → Nat → α → Run β} {halt : Halt}
    (settles : Settles first before (.error halt) after) :
    Settles (fun settings stack turns => first settings stack turns >>= next settings stack turns)
      before (.error halt) after := by
  obtain ⟨bound, runs⟩ := settles
  refine ⟨bound, fun settings stack turns machine enough enoughTurns enoughLeft isBefore => ?_⟩
  obtain ⟨final, isFinal, isAfter⟩ :=
    runs settings stack turns machine enough enoughTurns enoughLeft isBefore
  refine ⟨final, ?_, isAfter⟩
  change Run.bind (first settings stack turns) (next settings stack turns) machine = _
  rw [Run.bind, isFinal]
  rfl

/-- Where no stack is used up, there is none to report. -/
theorem reportingOverflow {family : Family α} {token : Token}
    (settles : Settles family before ending after) (noOverflow : ending ≠ .error .overflow) :
    Settles (fun settings stack turns => Run.reportingOverflow token (family settings stack turns))
      before ending after := by
  obtain ⟨bound, runs⟩ := settles
  refine ⟨bound, fun settings stack turns machine enough enoughTurns enoughLeft isBefore => ?_⟩
  obtain ⟨final, isFinal, isAfter⟩ :=
    runs settings stack turns machine enough enoughTurns enoughLeft isBefore
  refine ⟨final, ?_, isAfter⟩
  simp only [Run.reportingOverflow, isFinal]
  cases ending with
  | ok value => rfl
  | error halt =>
    cases halt with
    | overflow => exact absurd rfl noOverflow
    | _ => rfl

/-- A change of the machine, and what follows it. -/
theorem change {step : Settings → Machine → Machine} {next : Family α}
    (changes : ∀ settings machine, view machine = before → view (step settings machine) = between)
    (settles : Settles next between ending after) :
    Settles (fun settings stack turns => Run.change (step settings) >>= fun _ =>
      next settings stack turns) before ending after := by
  obtain ⟨bound, runs⟩ := settles
  refine ⟨bound, fun settings stack turns machine enough enoughTurns enoughLeft isBefore => ?_⟩
  exact runs settings stack turns (step settings machine) enough enoughTurns enoughLeft
    (changes settings machine isBefore)

/-- A name is bound in the state that goes on. -/
theorem define {scope : ScopeId} {name : String} {value : Value} {next : Family α}
    (settles : Settles next (before.define scope name value) ending after) :
    Settles (fun settings stack turns => Run.define scope name value >>= fun _ =>
      next settings stack turns) before ending after :=
  .change (fun _ _ isBefore => by rw [view_define, isBefore]) settles

/-- A message changes nothing of the state that goes on. -/
theorem trace {entry : TraceEntry} {next : Family α} (settles : Settles next before ending after) :
    Settles (fun settings stack turns => Run.trace settings.debugLevel entry >>= fun _ =>
      next settings stack turns) before ending after :=
  .change (fun _ _ isBefore => by rw [view_trace, isBefore]) settles

/-- A line is printed in the state that goes on. -/
theorem print {line : String} {next : Family α}
    (settles : Settles next (before.print line) ending after) :
    Settles (fun settings stack turns => Run.print line >>= fun _ => next settings stack turns)
      before ending after :=
  .change (fun _ _ isBefore => by rw [view_print, isBefore]) settles

/-- A new scope has the number that the state says is fresh. -/
theorem openScope {outer : ScopeId} {next : Settings → Nat → Nat → ScopeId → Run α}
    (settles : Settles (fun settings stack turns => next settings stack turns before.fresh)
      (before.inside outer) ending after) :
    Settles (fun settings stack turns => Run.openScope outer >>= next settings stack turns) before
      ending after := by
  refine .bind (.intro fun _ _ _ machine isBefore => ?_) settles
  subst isBefore
  exact ⟨_, rfl, rfl⟩

/-- A new callable has the identity that the state says is next. -/
theorem makeCallable {behaviour : Behaviour} {next : Settings → Nat → Nat → Callable → Run α}
    (settles : Settles
      (fun settings stack turns => next settings stack turns ⟨before.callables, behaviour⟩)
      { before with callables := before.callables + 1 } ending after) :
    Settles (fun settings stack turns => Run.makeCallable behaviour >>= next settings stack turns)
      before ending after := by
  refine .bind (.intro fun _ _ _ machine isBefore => ?_) settles
  subst isBefore
  exact ⟨_, rfl, rfl⟩

/-- A variable that is bound has its value. -/
theorem readVariable {scope holder : ScopeId} {name : Token} {value : Value}
    (binds : Binds before.store scope name.lexeme holder value) :
    Settles (fun _ _ _ => Run.readVariable scope name) before (.ok value) before := by
  refine .intro fun _ _ _ machine isBefore => ⟨machine, ?_, isBefore⟩
  subst isBefore
  have found : machine.store.lookup? scope name.lexeme = some value :=
    lookup?_eq_some_iff.mpr ⟨holder, binds⟩
  simp only [Run.readVariable, found]
  rfl

/-- A variable that is unbound is a fault at its name. -/
theorem readUnbound {scope : ScopeId} {name : Token}
    (unbound : Unbound before.store scope name.lexeme) :
    Settles (fun _ _ _ => Run.readVariable scope name) before (fault .undefinedVariable name)
      before := by
  refine .intro fun _ _ _ machine isBefore => ⟨machine, ?_, isBefore⟩
  subst isBefore
  have missing : machine.store.lookup? scope name.lexeme = none := lookup?_eq_none_iff.mpr unbound
  simp only [Run.readVariable, missing]
  rfl

/-- A variable that is bound is changed where it is bound. -/
theorem assignVariable {scope holder : ScopeId} {name : Token} {old value : Value}
    (binds : Binds before.store scope name.lexeme holder old) :
    Settles (fun _ _ _ => Run.assignVariable scope name value) before (.ok ())
      (before.define holder name.lexeme value) := by
  refine .intro fun _ _ _ machine isBefore => ?_
  subst isBefore
  have found : machine.store.holder? scope name.lexeme = some holder :=
    holder?_eq_some_iff.mpr ⟨old, binds⟩
  refine ⟨{ machine with store := machine.store.define holder name.lexeme value }, ?_, rfl⟩
  simp only [Run.assignVariable, found]
  rfl

/-- A variable that is unbound cannot be changed, which is a fault at its name. -/
theorem assignUnbound {scope : ScopeId} {name : Token} {value : Value}
    (unbound : Unbound before.store scope name.lexeme) :
    Settles (fun _ _ _ => Run.assignVariable scope name value) before
      (fault .undefinedVariable name) before := by
  refine .intro fun _ _ _ machine isBefore => ⟨machine, ?_, isBefore⟩
  subst isBefore
  have missing : machine.store.holder? scope name.lexeme = none := holder?_eq_none_iff.mpr unbound
  simp only [Run.assignVariable, missing]
  rfl

/-- An operation settles to what the interpreter computes. -/
theorem ofExcept (result : Except RuntimeError Value) :
    Settles (fun _ _ _ => Run.ofExcept result) before (ofOperator result) before := by
  cases result with
  | ok value => exact .pure value
  | error error => exact .halt (.failed error)

end Settles

/-- Parameters are bound by position. -/
theorem settles_bindParameters {scope : ScopeId} {parameters : List Token} {arguments : List Value}
    {before after : State} {next : Family α} {ending : Ending α}
    (settles : Settles next (before.bound scope parameters arguments) ending after) :
    Settles (fun settings stack turns => bindParameters scope parameters arguments >>= fun _ =>
      next settings stack turns) before ending after := by
  induction parameters generalizing arguments before with
  | nil => exact settles
  | cons parameter parameters inductionHypothesis =>
    cases arguments with
    | nil => exact settles
    | cons argument arguments => exact .define (inductionHypothesis settles)

/-- The clock tells the next of its readings. -/
theorem settles_readClock {state : State} :
    Settles (fun _ _ _ => readClock) state (.ok (.number (state.clock state.readings)))
      { state with readings := state.readings + 1 } := by
  refine .intro fun _ _ _ machine isState => ?_
  subst isState
  exact ⟨_, rfl, rfl⟩

/-- A native function settles to what the semantics says it answers. -/
theorem settles_native {function : NativeFunction} {closure : Option ScopeId}
    {arguments : List Value} {state : State} {ending : Ending Value}
    (answers : Answers function closure arguments state ending) :
    Settles (fun _ _ _ => Run.native closure function arguments) state ending state := by
  refine .intro fun _ _ _ machine isState => ?_
  subst isState
  exact ⟨machine, native_of_answers answers, rfl⟩

/-- The run of a task in which an outermost loop has this many turns left. -/
def Task.runFor (settings : Settings) (stack turns : Nat) : (task : Task) → Run task.Result
  | .execute scope (.loop condition body) =>
    match stack with
    | 0 => Run.halt .overflow
    | stack + 1 => Run.loop turns (loopTurn settings stack scope condition body)
  | task => task.run settings stack

/-- A task that may turn its loops as often as the settings allow is run as the interpreter runs it.
-/
theorem runFor_turns (settings : Settings) (stack : Nat) (task : Task) :
    task.runFor settings stack settings.turns = task.run settings stack := by
  unfold Task.runFor
  split
  · cases stack <;> rfl
  · rfl

/-- The settings allow an outermost loop as many turns as every other one. -/
theorem Settles.run {task : Task} {before after : State} {ending : Ending task.Result}
    (settles : Settles (fun settings stack turns => task.runFor settings stack turns) before ending
      after) :
    Settles (fun settings stack _ => task.run settings stack) before ending after := by
  obtain ⟨bound, runs⟩ := settles
  refine ⟨bound, fun settings stack _ machine enough enoughTurns _ isBefore => ?_⟩
  have ends := runs settings stack settings.turns machine enough enoughTurns enoughTurns isBefore
  simp only [runFor_turns] at ends
  exact ends

/-- No task is said to end by a limit. -/
theorem Ends.not_isLimit {task : Task} {before after : State} {ending : Ending task.Result}
    (finishes : Finishes task before ending after) :
    ∀ halt, ending = .error halt → ¬ IsLimit halt := by
  induction finishes with
  | unary _ operates =>
    rintro halt rfl
    cases operates <;> nofun
  | binary _ _ operates =>
    rintro halt rfl
    cases operates <;> nofun
  | undefined | assignUndefined | notCallable | wrongCount =>
    rintro halt ⟨⟩
    nofun
  | noExpression | noStatement | abstract =>
    rintro halt ⟨⟩
    exact id
  | grouping _ inductionHypothesis | undecided _ _ _ _ inductionHypothesis
  | call _ _ _ _ _ inductionHypothesis | block _ inductionHypothesis
  | chosen _ _ _ _ inductionHypothesis | refused _ _ _ _ inductionHypothesis
  | loopTurns _ _ _ _ _ _ inductionHypothesis | executeMore _ _ _ inductionHypothesis =>
    exact inductionHypothesis
  | assignFails _ inductionHypothesis | logicalFails _ inductionHypothesis
  | unaryFails _ inductionHypothesis | leftFails _ inductionHypothesis
  | rightFails _ _ _ inductionHypothesis | calleeFails _ inductionHypothesis
  | argumentsFail _ _ _ inductionHypothesis | firstFails _ inductionHypothesis
  | furtherFails _ _ _ inductionHypothesis | bodyFails _ _ inductionHypothesis
  | expressionFails _ inductionHypothesis | printFails _ inductionHypothesis
  | varFails _ inductionHypothesis | conditionalFails _ inductionHypothesis
  | loopFails _ inductionHypothesis | loopBodyFails _ _ _ _ inductionHypothesis
  | retFails _ inductionHypothesis | executeFails _ inductionHypothesis =>
    rintro halt ⟨⟩
    exact inductionHypothesis _ rfl
  | native answers =>
    rintro halt rfl
    cases answers with
    | raises gives => exact id
  | overflow isLimited | endless isLimited => exact nomatch isLimited
  | operatorReports _ _ inductionHypothesis | callReports _ inductionHypothesis =>
    exact absurd trivial (inductionHypothesis .overflow rfl)
  | _ => rintro halt ⟨⟩

/-- What the semantics derives is no used up stack. -/
theorem Ends.ne_overflow {task : Task} {before after : State} {ending : Ending task.Result}
    (finishes : Finishes task before ending after) : ending ≠ .error .overflow :=
  fun isOverflow => finishes.not_isLimit .overflow isOverflow trivial

/-- No task that fails in the semantics does so for a used up stack. -/
theorem Ends.error_ne_overflow {task : Task} {before after : State} {halt : Halt}
    (fails : Finishes task before (.error halt) after) :
    (.error halt : Ending α) ≠ .error .overflow :=
  fun isOverflow => fails.ne_overflow (congrArg Except.error (Except.error.inj isOverflow))

section Calls

variable {paren : Token} {identity : Nat} {arguments : List Value} {before after : State}

/-- A call with as many arguments as the callable needs. -/
theorem settles_call {callable : Callable} {ending : Ending Value}
    (enough : arguments.length = callable.arity) (noOverflow : ending ≠ .error .overflow)
    (settles : Settles (fun settings stack _ => invoke settings stack callable arguments) before
      ending after) :
    Settles (fun settings stack _ => (Task.call paren (.callable callable) arguments).run settings
      stack) before ending after :=
  .ite_neg (not_not_intro enough) (.trace (settles.reportingOverflow noOverflow))

/-- The body of a function runs in a fresh scope with the parameters bound. -/
theorem settles_function {declaration : Declaration} {closure : ScopeId}
    {ending : Ending Completion}
    (body : Settles
      (fun settings stack _ =>
        (Task.executeAll before.fresh declaration.body).run settings stack)
      ((before.inside closure).bound before.fresh declaration.parameters arguments) ending after) :
    Settles
      (fun settings stack _ =>
        invoke settings stack ⟨identity, .function declaration closure⟩ arguments)
      before (ending.map Completion.value) after := by
  refine .succ (.openScope (settles_bindParameters ?_))
  cases ending with
  | ok completion => exact .bind body (.pure completion.value)
  | error halt => exact .bind_error body

end Calls

section Loops

variable {scope : ScopeId} {condition : Expr} {body : Stmt} {before between after : State}
  {value : Value}

/-- A turn whose condition holds is its body. -/
theorem settles_loopTurn {ending : Ending (Option Completion)}
    (evaluated : Settles
      (fun settings stack _ => (Task.evaluate scope condition).run settings stack) before
      (.ok value) between)
    (truthy : ¬ Falsy value)
    (executed : Settles
      (fun settings stack _ => do
        match ← execute settings stack scope body with
        | .normal => return none
        | .returned value => return some (.returned value))
      between ending after) :
    Settles (fun settings stack _ => loopTurn settings stack scope condition body) before ending
      after :=
  .bind evaluated (.trace (.ite_pos (not_falsy_iff.mp truthy) executed))

/-- A turn that ends the loop. -/
theorem settles_loop_of_some {completion : Completion}
    (turned : Settles (fun settings stack _ => loopTurn settings stack scope condition body) before
      (.ok (some completion)) after) :
    Settles
      (fun settings stack turns => (Task.execute scope (.loop condition body)).runFor settings stack
        turns) before (.ok completion) after :=
  .succ (.turn (.congr (fun _ _ _ => loop_succ _ _) (.bind turned (.pure completion))))

/-- A turn that halts. -/
theorem settles_loop_of_error {halt : Halt}
    (turned : Settles (fun settings stack _ => loopTurn settings stack scope condition body) before
      (.error halt) after) :
    Settles
      (fun settings stack turns => (Task.execute scope (.loop condition body)).runFor settings stack
        turns) before (.error halt) after :=
  .succ (.turn (.congr (fun _ _ _ => loop_succ _ _) (.bind_error turned)))

/-- A turn after which the loop goes on. -/
theorem settles_loop_of_none {ending : Ending Completion}
    (turned : Settles (fun settings stack _ => loopTurn settings stack scope condition body) before
      (.ok none) between)
    (further : Settles
      (fun settings stack turns => (Task.execute scope (.loop condition body)).runFor settings stack
        turns) between ending after) :
    Settles
      (fun settings stack turns => (Task.execute scope (.loop condition body)).runFor settings stack
        turns) before ending after :=
  .succ (.turn (.congr (fun _ _ _ => loop_succ _ _) (.bind turned further.more)))

end Loops

/-- Whatever is derived is run. -/
theorem Finishes.settles {task : Task} {before after : State} {ending : Ending task.Result}
    (finishes : Finishes task before ending after) :
    Settles (fun settings stack turns => task.runFor settings stack turns) before ending after := by
  induction finishes with
  | literal => exact .succ (.pure _)
  | grouping _ inner => exact .succ inner.run
  | reference binds => exact .succ (.readVariable binds)
  | undefined unbound => exact .succ (.readUnbound unbound)
  | assign _ binds value => exact .succ (.bind value.run (.bind (.assignVariable binds) (.pure _)))
  | assignUndefined _ unbound value =>
    exact .succ (.bind value.run (.bind_error (.assignUnbound unbound)))
  | assignFails _ value => exact .succ (.bind_error value.run)
  | decided _ decides left =>
    exact .succ (.reportingOverflow
      (.bind left.run (.ite_pos (decides_iff.mp decides) (.pure _))) nofun)
  | undecided _ decides further left right =>
    refine .succ (.reportingOverflow (.bind left.run (.ite_neg ?_ right.run)) further.ne_overflow)
    exact fun decided => decides (decides_iff.mpr decided)
  | logicalFails fails left =>
    exact .succ (.reportingOverflow (.bind_error left.run) fails.ne_overflow)
  | unary _ operates right =>
    obtain rfl := unary_iff.mp operates
    exact .succ (.bind (.reportingOverflow right.run nofun) (.ofExcept _))
  | unaryFails fails right =>
    exact .succ (.bind_error (.reportingOverflow right.run fails.ne_overflow))
  | binary _ _ operates left right =>
    obtain rfl := binary_iff.mp operates
    exact .succ (.bind (.reportingOverflow (.bind left.run (.bind right.run (.pure (_, _)))) nofun)
      (.ofExcept _))
  | leftFails fails left =>
    exact .succ (.bind_error (.reportingOverflow (.bind_error left.run) fails.error_ne_overflow))
  | rightFails _ fails left right =>
    exact .succ (.bind_error (.reportingOverflow (.bind left.run (.bind_error right.run))
      fails.error_ne_overflow))
  | call _ _ _ callee arguments calls =>
    exact .succ (.bind callee.run (.bind arguments.run calls.run))
  | calleeFails _ callee => exact .succ (.bind_error callee.run)
  | argumentsFail _ _ callee arguments => exact .succ (.bind callee.run (.bind_error arguments.run))
  | noExpression => exact .succ (.halt _)
  | evaluateNone => exact .pure _
  | evaluateMore _ _ first further => exact .bind first.run (.bind further.run (.pure _))
  | firstFails _ first => exact .bind_error first.run
  | furtherFails _ _ first further => exact .bind first.run (.bind_error further.run)
  | @notCallable _ callee _ _ noCallable =>
    cases callee with
    | callable callable => exact absurd rfl (noCallable callable)
    | _ => exact .halt _
  | wrongCount wrong => exact .ite_pos wrong (.halt _)
  | returns enough _ body => exact settles_call enough nofun (settles_function body.run)
  | returnsNothing enough _ body => exact settles_call enough nofun (settles_function body.run)
  | bodyFails enough fails body =>
    exact settles_call enough fails.error_ne_overflow (settles_function body.run)
  | @clock _ identity state =>
    have settles : Settles (fun settings stack _ => invoke settings stack ⟨identity, .clock⟩ [])
        state (.ok _) _ := .succ settles_readClock
    refine settles_call rfl ?_ settles
    nofun
  | @native _ _ _ _ _ _ ending answers =>
    have noOverflow : ending ≠ .error .overflow := by
      rintro rfl
      cases answers
    exact settles_call rfl noOverflow (.succ (settles_native answers))
  | abstract => exact settles_call rfl nofun (.succ (.halt _))
  | expression _ value => exact .succ (.bind value.run (.pure _))
  | expressionFails _ value => exact .succ (.bind_error value.run)
  | print _ value => exact .succ (.bind value.run (.print (.pure _)))
  | printFails _ value => exact .succ (.bind_error value.run)
  | var _ value => exact .succ (.bind value.run (.define (.trace (.pure _))))
  | varNil => exact .succ (.define (.trace (.pure _)))
  | varFails _ value => exact .succ (.bind_error value.run)
  | block _ body => exact .succ (.openScope body.run)
  | conditionalFails _ condition => exact .succ (.bind_error condition.run)
  | chosen _ truthy _ condition branch =>
    exact .succ (.bind condition.run (.trace (.ite_pos (not_falsy_iff.mp truthy) branch.run)))
  | refused _ falsy _ condition branch =>
    exact .succ (.bind condition.run (.trace (.ite_neg (by simp [falsy_iff.mp falsy]) branch.run)))
  | skipped _ falsy condition =>
    exact .succ (.bind condition.run (.trace (.ite_neg (by simp [falsy_iff.mp falsy]) (.pure _))))
  | loopFails _ condition => exact settles_loop_of_error (.bind_error condition.run)
  | loopEnds _ falsy condition =>
    exact settles_loop_of_some
      (.bind condition.run (.trace (.ite_neg (by simp [falsy_iff.mp falsy]) (.pure _))))
  | loopBodyFails _ truthy _ condition body =>
    exact settles_loop_of_error (settles_loopTurn condition.run truthy (.bind_error body.run))
  | loopReturns _ truthy _ condition body =>
    exact settles_loop_of_some (settles_loopTurn condition.run truthy (.bind body.run (.pure _)))
  | loopTurns _ truthy _ _ condition body further =>
    exact settles_loop_of_none (settles_loopTurn condition.run truthy (.bind body.run (.pure _)))
      further
  | function => exact .succ (.makeCallable (.define (.trace (.pure _))))
  | ret _ value => exact .succ (.bind value.run (.pure _))
  | retNil => exact .succ (.pure _)
  | retFails _ value => exact .succ (.bind_error value.run)
  | noStatement => exact .succ (.halt _)
  | executeNone => exact .pure _
  | executeMore _ _ first further =>
    exact .congr (fun _ _ _ => sequence_cons _ _ _) (.bind first.run further.run)
  | executeReturns _ first =>
    exact .congr (fun _ _ _ => sequence_cons _ _ _) (.bind first.run (.pure _))
  | executeFails _ first =>
    exact .congr (fun _ _ _ => sequence_cons _ _ _) (.bind_error first.run)
  | overflow isLimited | endless isLimited => exact nomatch isLimited
  | operatorReports _ overflows | callReports overflows => exact absurd rfl overflows.ne_overflow

end LoxLang.BigStep
