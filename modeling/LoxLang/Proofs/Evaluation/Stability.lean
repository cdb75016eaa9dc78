import LoxLang.Proofs.Evaluation.View

/-!
# Evaluation is stable

A run that is not stopped by a limit does the same under all larger limits: it has the same events,
the same bindings and the same ending. A limit that was reached is never made up for: once an
operator or a call has reported it, the report goes all the way up. `Refined` therefore counts the
report as the limit itself, and is kept by every way in which computations are put together.
-/

namespace LoxLang

open BigStep

variable {α β : Type}

/-- The second run does the same as the first one, unless the first one is stopped by a limit. -/
def Run.Refined (small large : Run α) : Prop :=
  ∀ machine, Limited (small machine) ∨ large machine = small machine

namespace Run.Refined

/-- Every computation refines itself. -/
protected theorem refl (run : Run α) : Run.Refined run run := fun _ => .inr rfl

/-- A computation that reaches a limit is refined by every other one. -/
theorem limit {halt : Halt} (isLimit : IsLimit halt) (large : Run α) :
    Run.Refined (Run.halt halt) large :=
  fun _ => .inl ⟨halt, rfl, isLimit⟩

/-- A used up stack is refined by whatever happens with more of it. -/
theorem overflow (large : Run α) : Run.Refined (Run.halt .overflow) large :=
  limit (show IsLimit .overflow from trivial) large

/-- A loop without end is refined by whatever happens with more turns. -/
theorem endless (large : Run α) : Run.Refined (Run.halt .endless) large :=
  limit (show IsLimit .endless from trivial) large

/-- Computations one after the other are refined in both places. -/
protected theorem bind {small large : Run α} {smallNext largeNext : α → Run β}
    (refined : Run.Refined small large)
    (refinedNext : ∀ value, Run.Refined (smallNext value) (largeNext value)) :
    Run.Refined (small >>= smallNext) (large >>= largeNext) := by
  intro machine
  change Limited (Run.bind small smallNext machine) ∨
    Run.bind large largeNext machine = Run.bind small smallNext machine
  unfold Run.bind
  obtain ⟨halt, isHalt, isLimit⟩ | same := refined machine
  · cases result : small machine with
    | done value final =>
      rw [result] at isHalt
      cases isHalt
    | halted other final =>
      rw [result] at isHalt
      obtain rfl := Except.error.inj isHalt
      exact .inl ⟨other, rfl, isLimit⟩
  · rw [same]
    cases small machine with
    | done value final => exact refinedNext value final
    | halted halt final => exact .inr rfl

/-- A used up stack is a limit before it is reported and after. -/
theorem reportingOverflow {small large : Run α} (refined : Run.Refined small large)
    (token : Token) :
    Run.Refined (Run.reportingOverflow token small) (Run.reportingOverflow token large) := by
  intro machine
  unfold Run.reportingOverflow
  obtain ⟨halt, isHalt, isLimit⟩ | same := refined machine
  · cases result : small machine with
    | done value final =>
      rw [result] at isHalt
      cases isHalt
    | halted other final =>
      rw [result] at isHalt
      obtain rfl := Except.error.inj isHalt
      -- This is the one place where a limit takes another form.
      cases other with
      | overflow => exact .inl ⟨.failed ⟨.stackOverflow, token⟩, rfl, rfl⟩
      | _ => exact .inl ⟨_, rfl, isLimit⟩
  · rw [same]
    exact .inr rfl

/-- A computation over a list is refined item by item. -/
theorem each {small large : α → Run β} (refined : ∀ item, Run.Refined (small item) (large item))
    (items : List α) : Run.Refined (Run.each small items) (Run.each large items) := by
  induction items with
  | nil => exact .refl _
  | cons item items inductionHypothesis =>
    exact .bind (refined item) fun _ => .bind inductionHypothesis fun _ => .refl _

/-- Statements one after the other are refined one by one. -/
theorem sequence {small large : Stmt → Run Completion}
    (refined : ∀ stmt, Run.Refined (small stmt) (large stmt)) (stmts : List Stmt) :
    Run.Refined (Run.sequence small stmts) (Run.sequence large stmts) := by
  induction stmts with
  | nil => exact .refl _
  | cons stmt stmts inductionHypothesis =>
    rw [sequence_cons, sequence_cons]
    refine .bind (refined stmt) fun completion => ?_
    cases completion with
    | normal => exact inductionHypothesis
    | returned value => exact .refl _

/-- A loop is refined by one with as many turns or more, by induction on the turns. -/
theorem loop {small large : Run (Option Completion)} (refined : Run.Refined small large)
    {turns more : Nat} (le : turns ≤ more) :
    Run.Refined (Run.loop turns small) (Run.loop more large) := by
  induction turns generalizing more with
  | zero => exact .endless _
  | succ turns inductionHypothesis =>
    obtain ⟨further, rfl⟩ := Nat.exists_eq_add_one_of_ne_zero (Nat.ne_zero_of_lt le)
    rw [loop_succ, loop_succ]
    refine .bind refined fun completion => ?_
    cases completion with
    | none => exact inductionHypothesis (Nat.le_of_succ_le_succ le)
    | some completion => exact .refl _

/-- A call is refined by refining what it invokes. -/
theorem call {small large : Callable → List Value → Run Value}
    (refined : ∀ callable arguments, Run.Refined (small callable arguments)
      (large callable arguments)) (debugLevel : Nat) (paren : Token) (callee : Value)
    (arguments : List Value) :
    Run.Refined (Run.call debugLevel small paren callee arguments)
      (Run.call debugLevel large paren callee arguments) := by
  cases callee with
  | callable callable =>
    unfold Run.call
    dsimp only
    split
    · exact .refl _
    · exact .bind (.refl _) fun _ => (refined callable arguments).reportingOverflow paren
  | _ => exact .refl _

end Run.Refined

/-! ## Evaluation -/

/-- The settings trace the same messages and allow loops at least as many turns. -/
structure Settings.Within (small large : Settings) : Prop where
  debugLevel : large.debugLevel = small.debugLevel
  turns : small.turns ≤ large.turns

/-- What is evaluated, called and executed on the smaller stack is refined on the larger one. -/
structure Stable (small large : Settings) (stack more : Nat) : Prop where
  evaluate : ∀ scope expr,
    Run.Refined (evaluate small stack scope expr) (evaluate large more scope expr)
  invoke : ∀ callable arguments,
    Run.Refined (invoke small stack callable arguments) (invoke large more callable arguments)
  execute : ∀ scope stmt,
    Run.Refined (execute small stack scope stmt) (execute large more scope stmt)

namespace Stable

variable {small large : Settings} {stack more : Nat}

/-- An expression is refined if its parts are, with one more of the stack on both sides. -/
theorem evaluate_succ (stable : Stable small large stack more) (within : small.Within large)
    (scope : ScopeId) (expr : Expr) :
    Run.Refined (LoxLang.evaluate small (stack + 1) scope expr)
      (LoxLang.evaluate large (more + 1) scope expr) := by
  unfold LoxLang.evaluate
  cases expr with
  | literal value | reference name | unexpected kind => exact .refl _
  | grouping inner => exact stable.evaluate scope inner
  | assign name value => exact .bind (stable.evaluate scope value) fun _ => .refl _
  | logical left operator right =>
    refine .reportingOverflow (.bind (stable.evaluate scope left) fun value => ?_) operator
    split
    · exact .refl _
    · exact stable.evaluate scope right
  | unary operator right =>
    exact .bind ((stable.evaluate scope right).reportingOverflow operator) fun _ => .refl _
  | binary left operator right =>
    refine .bind (.reportingOverflow ?_ operator) fun _ => .refl _
    exact .bind (stable.evaluate scope left) fun _ =>
      .bind (stable.evaluate scope right) fun _ => .refl _
  | call callee paren arguments =>
    refine .bind (stable.evaluate scope callee) fun callee => ?_
    refine .bind (.each (stable.evaluate scope) arguments) fun arguments => ?_
    rw [within.debugLevel]
    exact .call stable.invoke _ paren callee arguments

/-- A call of a function is refined if its body is. -/
theorem invoke_succ (stable : Stable small large stack more) (callable : Callable)
    (arguments : List Value) :
    Run.Refined (LoxLang.invoke small (stack + 1) callable arguments)
      (LoxLang.invoke large (more + 1) callable arguments) := by
  unfold LoxLang.invoke
  split
  · exact .bind (.refl _) fun inner => .bind (.refl _) fun _ =>
      .bind (.sequence (stable.execute inner) _) fun _ => .refl _
  · exact .refl _
  · exact .refl _
  · exact .refl _

/-- A statement is refined if its parts are, with one more of the stack on both sides. -/
theorem execute_succ (stable : Stable small large stack more) (within : small.Within large)
    (scope : ScopeId) (stmt : Stmt) :
    Run.Refined (LoxLang.execute small (stack + 1) scope stmt)
      (LoxLang.execute large (more + 1) scope stmt) := by
  cases stmt with
  | loop condition body =>
    rw [execute_loop, execute_loop]
    refine .loop ?_ within.turns
    unfold loopTurn
    rw [within.debugLevel]
    refine .bind (stable.evaluate scope condition) fun value => .bind (.refl _) fun _ => ?_
    split
    · exact .bind (stable.execute scope body) fun _ => .refl _
    · exact .refl _
  | expression value | print value =>
    unfold LoxLang.execute
    exact .bind (stable.evaluate scope value) fun _ => .refl _
  | var name start =>
    unfold LoxLang.execute
    rw [within.debugLevel]
    cases start with
    | some start => exact .bind (stable.evaluate scope start) fun _ => .refl _
    | none => exact .refl _
  | block statements =>
    unfold LoxLang.execute
    exact .bind (.refl _) fun inner => .sequence (stable.execute inner) statements
  | conditional condition consequent alternative =>
    unfold LoxLang.execute
    rw [within.debugLevel]
    refine .bind (stable.evaluate scope condition) fun value => .bind (.refl _) fun _ => ?_
    split
    · exact stable.execute scope consequent
    · cases alternative with
      | some alternative => exact stable.execute scope alternative
      | none => exact .refl _
  | function name parameters body =>
    unfold LoxLang.execute
    rw [within.debugLevel]
    exact .refl _
  | ret keyword value =>
    unfold LoxLang.execute
    cases value with
    | some value => exact .bind (stable.evaluate scope value) fun _ => .refl _
    | none => exact .refl _
  | unexpected kind =>
    unfold LoxLang.execute
    exact .refl _

end Stable

/-- The interpreter is stable: by induction on the smaller stack, each unit of which the larger one
has too. -/
theorem stable {small large : Settings} (within : small.Within large) {stack more : Nat}
    (le : stack ≤ more) : Stable small large stack more := by
  induction stack generalizing more with
  | zero =>
    constructor
    · exact fun _ _ => .overflow _
    · exact fun _ _ => .overflow _
    · exact fun _ _ => .overflow _
  | succ stack inductionHypothesis =>
    obtain ⟨further, rfl⟩ := Nat.exists_eq_add_one_of_ne_zero (Nat.ne_zero_of_lt le)
    have belowStable := inductionHypothesis (Nat.le_of_succ_le_succ le)
    exact ⟨belowStable.evaluate_succ within, belowStable.invoke_succ,
      belowStable.execute_succ within⟩

end LoxLang
