import LoxLang.Proofs.Evaluation.Law
import LoxLang.Proofs.Safety.Session

/-!
# Where a used up stack is reported

An operator reports a stack that is used up in its operands, and a call one that is used up in what
is called. All other forms pass it on: calls to what they evaluate before, groupings, assignments,
and statements to what they consist of. It escapes from a program if it is passed on all the way.

The exposure of a tree is how much stack the forms that pass it on can need. Function bodies do not
count, nor do operands: whatever happens there is reported on the way up.
-/

namespace LoxLang

open BigStep

variable {α β : Type}

/-! ## Exposure -/

mutual

/-- How deep the forms of an expression that pass on a used up stack are nested. -/
def Expr.exposure : Expr → Nat
  | .literal _ | .reference _ | .binary _ _ _ | .logical _ _ _ | .unary _ _ | .unexpected _ => 1
  | .assign _ value => value.exposure + 1
  | .grouping inner => inner.exposure + 1
  | .call callee _ arguments => max callee.exposure (Expr.allExposure arguments) + 1

/-- The exposure of the most exposed of some expressions. -/
def Expr.allExposure : List Expr → Nat
  | [] => 0
  | expr :: exprs => max expr.exposure (Expr.allExposure exprs)

end

/-- The exposure of an expression that may be left out. -/
def Expr.optionalExposure : Option Expr → Nat
  | none => 0
  | some expr => expr.exposure

mutual

/-- How deep the forms of a statement that pass on a used up stack are nested. -/
def Stmt.exposure : Stmt → Nat
  | .expression value => value.exposure + 1
  | .print value => value.exposure + 1
  | .var _ start => Expr.optionalExposure start + 1
  | .block statements => Stmt.allExposure statements + 1
  | .conditional condition consequent alternative =>
    max condition.exposure (max consequent.exposure (Stmt.optionalExposure alternative)) + 1
  | .loop condition body => max condition.exposure body.exposure + 1
  | .function _ _ _ => 1
  | .ret _ value => Expr.optionalExposure value + 1
  | .unexpected _ => 1

/-- The exposure of the most exposed of some statements. -/
def Stmt.allExposure : List Stmt → Nat
  | [] => 0
  | stmt :: stmts => max stmt.exposure (Stmt.allExposure stmts)

/-- The exposure of a statement that may be left out. -/
def Stmt.optionalExposure : Option Stmt → Nat
  | none => 0
  | some stmt => stmt.exposure

end

/-- Every expression takes some of the stack. -/
theorem Expr.exposure_pos (expr : Expr) : 0 < expr.exposure := by
  cases expr <;> simp [exposure]

/-- Every statement takes some of the stack. -/
theorem Stmt.exposure_pos (stmt : Stmt) : 0 < stmt.exposure := by
  cases stmt <;> simp [exposure]

/-- An expression is no more exposed than the most exposed of its list. -/
theorem Expr.exposure_le_of_mem {expr : Expr} {exprs : List Expr} (member : expr ∈ exprs) :
    expr.exposure ≤ Expr.allExposure exprs := by
  induction exprs with
  | nil => cases member
  | cons first further inductionHypothesis =>
    rw [allExposure]
    obtain rfl | member := List.mem_cons.mp member
    · exact le_max_left ..
    · exact (inductionHypothesis member).trans (le_max_right ..)

/-- A statement is no more exposed than the most exposed of its list. -/
theorem Stmt.exposure_le_of_mem {stmt : Stmt} {stmts : List Stmt} (member : stmt ∈ stmts) :
    stmt.exposure ≤ Stmt.allExposure stmts := by
  induction stmts with
  | nil => cases member
  | cons first further inductionHypothesis =>
    rw [allExposure]
    obtain rfl | member := List.mem_cons.mp member
    · exact le_max_left ..
    · exact (inductionHypothesis member).trans (le_max_right ..)

/-! ## Runs that report -/

/-- The run does not come to an end with a used up stack that nothing has reported. -/
def Run.Reports (run : Run α) : Prop := ∀ machine final, run machine ≠ .halted .overflow final

namespace Run.Reports

/-- A computation that only gives a value uses up nothing. -/
protected theorem pure (value : α) : Run.Reports (pure value) := fun _ _ => nofun

/-- A computation that halts for another reason does not pass a used up stack on. -/
theorem halt {halt : Halt} (notOverflow : halt ≠ .overflow) :
    Run.Reports (Run.halt halt : Run α) := by
  rintro machine final ⟨⟩
  exact notOverflow rfl

/-- Computations one after the other report a used up stack if each of them does. -/
protected theorem bind {first : Run α} {next : α → Run β} (reports : Run.Reports first)
    (reportsNext : ∀ value, Run.Reports (next value)) : Run.Reports (first >>= next) := by
  intro machine final
  change Run.bind first next machine ≠ _
  unfold Run.bind
  cases result : first machine with
  | done value middle => exact reportsNext value middle final
  | halted halt middle =>
    rintro ⟨⟩
    exact reports machine final result

/-- Lists, sequences and loops report if their parts do. -/
theorem law : Run.Law Run.Reports where
  pure := .pure
  bind := .bind
  failed _ := .halt nofun
  endless := .halt nofun

/-- A change of the machine uses up nothing. -/
theorem change (step : Machine → Machine) : Run.Reports (Run.change step) := fun _ _ => nofun

/-- To read a variable uses up nothing. -/
theorem readVariable (scope : ScopeId) (name : Token) :
    Run.Reports (Run.readVariable scope name) := by
  intro machine final isOverflow
  unfold Run.readVariable at isOverflow
  split at isOverflow <;> cases isOverflow

/-- To change a variable uses up nothing. -/
theorem assignVariable (scope : ScopeId) (name : Token) (value : Value) :
    Run.Reports (Run.assignVariable scope name value) := by
  intro machine final isOverflow
  unfold Run.assignVariable at isOverflow
  split at isOverflow <;> cases isOverflow

/-- What is reported is not passed on. -/
theorem reportingOverflow (token : Token) (run : Run α) :
    Run.Reports (Run.reportingOverflow token run) := by
  intro machine final
  unfold Run.reportingOverflow
  split
  · exact nofun
  next notOverflow => exact fun isOverflow => notOverflow final isOverflow

/-- A call reports what happens in its callee, whatever that is. -/
theorem call (debugLevel : Nat) (invoke : Callable → List Value → Run Value) (paren : Token)
    (callee : Value) (arguments : List Value) :
    Run.Reports (Run.call debugLevel invoke paren callee arguments) := by
  cases callee with
  | callable callable =>
    unfold Run.call
    dsimp only
    split
    · exact .halt nofun
    · exact .bind (.change _) fun _ => .reportingOverflow paren _
  | _ => exact .halt nofun

/-- An expression that is not more exposed than the stack allows does not pass on that it is used
up. Operators and calls need nothing of what is below them. -/
theorem evaluate (settings : Settings) {stack : Nat} {expr : Expr}
    (isShallow : expr.exposure ≤ stack) (scope : ScopeId) :
    Run.Reports (evaluate settings stack scope expr) := by
  induction stack generalizing expr with
  | zero => exact absurd isShallow (Nat.not_le.mpr expr.exposure_pos)
  | succ stack inductionHypothesis =>
    unfold LoxLang.evaluate
    cases expr with
    | literal value => exact .pure _
    | grouping inner => exact inductionHypothesis (Nat.le_of_succ_le_succ isShallow)
    | reference name => exact .readVariable scope name
    | assign name value =>
      refine .bind (inductionHypothesis (Nat.le_of_succ_le_succ isShallow)) fun value => ?_
      exact .bind (.assignVariable scope name value) fun _ => .pure value
    -- The operands may need more than is left: the operator reports it.
    | logical left operator right => exact .reportingOverflow operator _
    | unary operator right => exact .bind (.reportingOverflow operator _) fun _ => law.ofExcept _
    | binary left operator right =>
      exact .bind (.reportingOverflow operator _) fun _ => law.ofExcept _
    | call callee paren arguments =>
      have areShallow := Nat.le_of_succ_le_succ isShallow
      obtain ⟨isShallowCallee, areShallowArguments⟩ := max_le_iff.mp areShallow
      refine .bind (inductionHypothesis isShallowCallee) fun callee => ?_
      refine .bind (law.each fun argument member => ?_) fun arguments => .call _ _ paren _ _
      exact inductionHypothesis ((Expr.exposure_le_of_mem member).trans areShallowArguments)
    | unexpected kind => exact .halt nofun

/-- A statement that is not more exposed than the stack allows does not pass on that it is used
up. -/
theorem execute (settings : Settings) {stack : Nat} {stmt : Stmt}
    (isShallow : stmt.exposure ≤ stack) (scope : ScopeId) :
    Run.Reports (execute settings stack scope stmt) := by
  induction stack generalizing stmt scope with
  | zero => exact absurd isShallow (Nat.not_le.mpr stmt.exposure_pos)
  | succ stack inductionHypothesis =>
    unfold LoxLang.execute
    cases stmt with
    | expression value =>
      exact .bind (evaluate settings (Nat.le_of_succ_le_succ isShallow) scope) fun _ => .pure _
    | print value =>
      refine .bind (evaluate settings (Nat.le_of_succ_le_succ isShallow) scope) fun value => ?_
      exact .bind (.change _) fun _ => .pure _
    | var name start =>
      have ends (value : Value) : Run.Reports (do
          Run.define scope name.lexeme value
          Run.trace settings.debugLevel (.defined name.lexeme value)
          return Completion.normal) :=
        .bind (.change _) fun _ => .bind (.change _) fun _ => .pure _
      cases start with
      | some start =>
        exact .bind (evaluate settings (Nat.le_of_succ_le_succ isShallow) scope) ends
      | none => exact .bind (.pure _) ends
    | block statements =>
      have statementsShallow := Nat.le_of_succ_le_succ isShallow
      refine .bind (fun _ _ => nofun) fun inner => law.sequence fun stmt member => ?_
      exact inductionHypothesis ((Stmt.exposure_le_of_mem member).trans statementsShallow) inner
    | conditional condition consequent alternative =>
      have partsShallow := Nat.le_of_succ_le_succ isShallow
      obtain ⟨conditionShallow, branchesShallow⟩ := max_le_iff.mp partsShallow
      obtain ⟨consequentShallow, alternativeShallow⟩ := max_le_iff.mp branchesShallow
      refine .bind (evaluate settings conditionShallow scope) fun condition => ?_
      refine .bind (.change _) fun _ => ?_
      split
      · exact inductionHypothesis consequentShallow scope
      · cases alternative with
        | some alternative => exact inductionHypothesis alternativeShallow scope
        | none => exact .pure _
    | loop condition body =>
      obtain ⟨conditionShallow, bodyShallow⟩ := max_le_iff.mp (Nat.le_of_succ_le_succ isShallow)
      refine law.loop (.bind (evaluate settings conditionShallow scope) fun condition => ?_) _
      refine .bind (.change _) fun _ => ?_
      split
      · refine .bind (inductionHypothesis bodyShallow scope) fun completion => ?_
        cases completion <;> exact .pure _
      · exact .pure _
    | function name parameters body =>
      refine .bind (fun _ _ => nofun) fun callable => ?_
      exact .bind (.change _) fun _ => .bind (.change _) fun _ => .pure _
    | ret keyword value =>
      cases value with
      | some value =>
        exact .bind (evaluate settings (Nat.le_of_succ_le_succ isShallow) scope) fun _ => .pure _
      | none => exact .bind (.pure _) fun _ => .pure _
    | unexpected kind => exact .halt nofun

/-- Statements of a program report if none of them is exposed beyond the stack. -/
theorem statements (settings : Settings) {nesting : Nat} {stmts : List Stmt}
    (areShallow : Stmt.allExposure stmts ≤ nesting) :
    Run.Reports (Run.statements settings nesting stmts) := by
  induction stmts with
  | nil => exact .pure ()
  | cons stmt stmts inductionHypothesis =>
    obtain ⟨firstShallow, furtherShallow⟩ := max_le_iff.mp areShallow
    rw [Run.statements_cons]
    exact .bind (execute settings firstShallow Store.globals) fun _ =>
      inductionHypothesis furtherShallow

/-- A program reports if none of its statements is exposed beyond the stack. -/
theorem program (limits : Limits) (debugLevel : Nat) {stmts : List Stmt}
    (areShallow : Stmt.allExposure stmts ≤ limits.nesting) :
    Run.Reports (Run.program limits debugLevel stmts) := by
  intro machine final
  have reports := statements (limits.settings debugLevel) areShallow machine
  unfold Run.program
  cases result : Run.statements (limits.settings debugLevel) limits.nesting stmts machine with
  | done value middle => exact nofun
  | halted halt middle =>
    cases halt with
    | overflow => exact absurd result (reports middle)
    | _ => exact nofun

end Run.Reports

/-! ## Chains of calls -/

/-- An expression that is called without arguments, and what that gives is called again, and so on
for a number of times. -/
def Expr.calls (callee : Expr) (paren : Token) : Nat → Expr
  | 0 => callee
  | count + 1 => .call (callee.calls paren count) paren []

/-- A chain of calls is exposed by one more for each call. -/
theorem Expr.exposure_calls (callee : Expr) (paren : Token) (count : Nat) :
    (callee.calls paren count).exposure = callee.exposure + count := by
  induction count with
  | zero => rfl
  | succ count inductionHypothesis =>
    rw [calls, exposure, inductionHypothesis, allExposure, Nat.max_zero, Nat.add_assoc]

/-- The first callee of a chain that is longer than the stack is out of reach, whatever the state,
and nothing reports it. -/
theorem evaluate_calls (settings : Settings) (scope : ScopeId) (callee : Expr) (paren : Token)
    {stack count : Nat} (isLong : stack ≤ count) (machine : Machine) :
    evaluate settings stack scope (callee.calls paren count) machine =
      .halted .overflow machine := by
  induction stack generalizing count with
  | zero => rfl
  | succ stack inductionHypothesis =>
    obtain ⟨further, rfl⟩ := Nat.exists_eq_add_one_of_ne_zero (Nat.ne_zero_of_lt isLong)
    have first := inductionHypothesis (Nat.le_of_succ_le_succ isLong)
    unfold evaluate
    change Run.bind (evaluate settings stack scope (callee.calls paren further)) _ machine = _
    unfold Run.bind
    rw [first]

/-- A run that does not pass a used up stack on does not end with one. -/
theorem ending_ne_overflow {run : Run α} {machine : Machine}
    (reports : ∀ final, run machine ≠ .halted .overflow final) :
    ending (run machine) ≠ .error .overflow := by
  intro isOverflow
  cases result : run machine with
  | done value final =>
    rw [result] at isOverflow
    cases isOverflow
  | halted halt final =>
    rw [result] at isOverflow
    cases isOverflow
    exact reports final result

/-- On a stack that is as large as a tree is exposed, a used up stack shows in nothing but a runtime
error at an operator or a parenthesis, of the tree or of a function that was bound before. A chain
of calls shows that as much is needed: on a smaller stack it always escapes. -/
theorem overflow_reported (limits : Limits) (debugLevel : Nat) (machine : Machine)
    (pool : List Site) (isWithin : (view machine).Within pool) :
    (∀ stmts, Stmt.allSites stmts ⊆ pool → Stmt.allExposure stmts ≤ limits.nesting →
      let result := ending (Run.program limits debugLevel stmts machine)
      result ≠ .error .overflow ∧ ∀ error, result = .ok (some error) → Explained pool error) ∧
    (∀ expr, expr.sites ⊆ pool → expr.exposure ≤ limits.nesting →
      let result := ending (Run.expression limits debugLevel expr machine)
      result ≠ .error .overflow ∧
        ∀ error, result = .error (.failed error) → Explained pool error) ∧
    ∀ name paren count,
      let chain := (Expr.reference name).calls paren count
      ending (Run.expression limits debugLevel chain machine) = .error .overflow ↔
        limits.nesting < chain.exposure := by
  refine ⟨fun stmts sitesWithin isShallow => ?_, fun expr sitesWithin isShallow => ?_,
    fun name paren count => ?_⟩
  · have reports := Run.Reports.program limits debugLevel isShallow machine
    have safe := (safe_program limits debugLevel sitesWithin machine isWithin).2
    refine ⟨ending_ne_overflow reports, fun error isError => ?_⟩
    rw [isError] at safe
    exact safe error rfl
  · have reports :=
      Run.Reports.evaluate (limits.settings debugLevel) isShallow Store.globals machine
    have safe := (Run.Safe.task (.evaluate Store.globals expr) sitesWithin
      (limits.settings debugLevel) limits.nesting machine isWithin).2
    refine ⟨ending_ne_overflow reports, fun error isError => ?_⟩
    change (ending (Run.expression limits debugLevel expr machine)).Safe pool _ at safe
    rw [isError] at safe
    exact explained_of_accounted safe
  · intro chain
    have isExposed : chain.exposure = count + 1 :=
      (Expr.exposure_calls ..).trans (Nat.add_comm ..)
    constructor
    · intro escapes
      by_contra notShort
      exact ending_ne_overflow (Run.Reports.evaluate (limits.settings debugLevel)
        (Nat.not_lt.mp notShort) Store.globals machine) escapes
    · intro isLong
      rw [isExposed, Nat.lt_succ_iff] at isLong
      exact congrArg ending (evaluate_calls _ Store.globals _ paren isLong machine)

/-- Operands that nest deeper than the stack allows are reported at an operator: the statement is
exposed no more than one that adds two names. -/
theorem overflow_reported_operator :
    let name : Token := ⟨.identifier, "x", .nil, 1⟩
    let operator : Token := ⟨.plus, "+", .nil, 1⟩
    let sum (left : Expr) : Expr := .binary left operator (.reference name)
    let stmts : List Stmt := [.print (sum (sum (sum (sum (.reference name)))))]
    (view (.initial fun _ => 0)).Within (Stmt.allSites stmts) ∧ Stmt.allExposure stmts ≤ 4 ∧
      ending (Run.program ⟨4, 0⟩ 0 stmts (.initial fun _ => 0)) =
        .ok (some ⟨.stackOverflow, operator⟩) ∧
      Explained (Stmt.allSites stmts) ⟨.stackOverflow, operator⟩ := by
  refine ⟨Session.within_initial fun _ => 0, by decide, ?_, ?_⟩
  · cbv
  · have startWithin (pool : List Site) : (view (.initial fun _ => 0)).Within pool :=
      Session.within_initial _
    refine ((overflow_reported ⟨4, 0⟩ 0 (.initial fun _ => 0) _ (startWithin _)).1 _
      (List.Subset.refl _) (by decide)).2 _ ?_
    cbv

/-- A chain of calls that the parser accepts within a limit uses up the stack within the same limit,
and nothing reports it. -/
theorem overflow_escapes :
    let text := "clock()()()()()()()();"
    (Program.ofSource 8 text).diagnostics = [] ∧
      ending (Run.program ⟨8, 0⟩ 0 (Program.ofSource 8 text).statements (.initial fun _ => 0)) =
        .error .overflow := by
  refine ⟨?_, ?_⟩
  · cbv
  · cbv

end LoxLang
