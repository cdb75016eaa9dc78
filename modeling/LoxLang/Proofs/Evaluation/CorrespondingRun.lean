import LoxLang.Evaluation.Program
import LoxLang.Proofs.Evaluation.Correspondence

/-!
# Runs that correspond do the same

Where the steps that touch the machines keep a correspondence, everything that is evaluated, called
and executed does: by induction on the stack, with one lemma for the expressions, one for calls and
one for the statements. The world of each part is the one in which the part before it ended.
-/

namespace LoxLang.Correspondence

open BigStep Matching

variable {World : Type} [Preorder World] {relation : Correspondence World} {world : World}
  {settings other : Settings}

/-! ## Calls of natives and parameters -/

/-- Parameters are bound to arguments that stand for each other, in scopes that do. -/
theorem Kept.bindParameters (kept : relation.Kept settings other) {scope otherScope : ScopeId}
    (owns : relation.Owns world scope otherScope) (parameters : List Token)
    {arguments others : List Value}
    (values : List.Forall₂ (relation.OnValue world) arguments others) :
    relation.OnRun world (fun _ _ _ => True) (Run.bindParameters scope parameters arguments)
      (Run.bindParameters otherScope parameters others) := by
  induction parameters generalizing world arguments others with
  | nil => cases values <;> exact .pure trivial
  | cons parameter parameters inductionHypothesis =>
    cases values with
    | nil => exact .pure trivial
    | cons first further =>
      refine .bind (kept.define parameter.lexeme owns first) fun grows _ _ _ => ?_
      exact inductionHypothesis (relation.ownsLater grows owns) (onValues_mono further grows)

/-- What a native function captured is read alike from scopes that see the same names. -/
theorem Kept.readCaptured (kept : relation.Kept settings other)
    {closure otherClosure : Option ScopeId}
    (closures : Option.Rel (relation.Sees world) closure otherClosure) (name : String) :
    relation.OnRun world relation.OnValue (Run.readCaptured closure name)
      (Run.readCaptured otherClosure name) := by
  cases closures with
  | none => exact .pure onValue_nil
  | some sees => exact .orNil (kept.readVariable _ sees)

/-- Native functions that are told the same of their arguments answer in the same way. -/
theorem Kept.native (kept : relation.Kept settings other) {closure otherClosure : Option ScopeId}
    (closures : Option.Rel (relation.Sees world) closure otherClosure) (function : NativeFunction)
    {arguments others : List Value}
    (values : List.Forall₂ (relation.OnValue world) arguments others) :
    relation.OnRun world relation.OnValue (Run.native closure function arguments)
      (Run.native otherClosure function others) := by
  unfold Run.native
  rw [map_shown_eq OnValue.shown values]
  split
  next value _ => exact .pure (.plain (by cases value <;> rfl))
  next place _ => exact .pure (alike_getD onValue_nil values place)
  next name _ => exact kept.readCaptured closures name
  next exception _ => exact .halt _

/-! ## Trees -/

/-- Evaluating, calling and executing with this stack do the same. -/
structure HoldsAt (relation : Correspondence World) (settings other : Settings) (stack : Nat) :
    Prop where
  evaluate : ∀ {world scope otherScope} expr, relation.Sees world scope otherScope →
    relation.OnRun world relation.OnValue (LoxLang.evaluate settings stack scope expr)
      (LoxLang.evaluate other stack otherScope expr)
  invoke : ∀ {world callable otherCallable}, relation.OnCallable world callable otherCallable →
    ∀ {arguments others}, List.Forall₂ (relation.OnValue world) arguments others →
      relation.OnRun world relation.OnValue (LoxLang.invoke settings stack callable arguments)
        (LoxLang.invoke other stack otherCallable others)
  execute : ∀ {world scope otherScope stmt otherStmt}, relation.OnStmt stmt otherStmt →
    relation.Hosts world scope otherScope stmt →
      relation.OnRun world relation.OnCompletion (LoxLang.execute settings stack scope stmt)
        (LoxLang.execute other stack otherScope otherStmt)

variable {stack : Nat} {scope otherScope : ScopeId}

/-- The statements of a block or a function, in a scope in which they may bind names. -/
theorem HoldsAt.executeAll (holds : relation.HoldsAt settings other stack)
    (owns : relation.Owns world scope otherScope) {stmts others : List Stmt}
    (all : Stmt.InTurn relation.OnStmt stmts others) :
    relation.OnRun world relation.OnCompletion
      (Run.sequence (LoxLang.execute settings stack scope) stmts)
      (Run.sequence (LoxLang.execute other stack otherScope) others) :=
  .sequence all (fun _ returns => returns.ne_normal settings stack scope)
    fun grows _ _ stmts => holds.execute stmts (.inl (relation.ownsLater grows owns))

/-- A call is refused alike, or traced and done alike. -/
theorem HoldsAt.call (kept : relation.Kept settings other)
    (holds : relation.HoldsAt settings other stack) (paren : Token) {callee otherCallee : Value}
    (callees : relation.OnValue world callee otherCallee) {arguments others : List Value}
    (values : List.Forall₂ (relation.OnValue world) arguments others) :
    relation.OnRun world relation.OnValue
      (Run.call settings.debugLevel (LoxLang.invoke settings stack) paren callee arguments)
      (Run.call other.debugLevel (LoxLang.invoke other stack) paren otherCallee others) := by
  unfold Run.call
  rw [← values.length_eq]
  cases callees with
  | plain =>
    cases callee with
    | callable => contradiction
    | _ => exact .halt _
  | callable callables =>
    dsimp only
    rw [callables.arity]
    split
    next => exact .halt _
    next =>
      refine .bind (kept.trace (.called callables _ _)) fun grows _ _ _ => ?_
      refine .reportingOverflow paren (holds.invoke (callables.mono grows) ?_)
      exact onValues_mono values grows

/-- Every form of expression, where its parts do the same. -/
theorem HoldsAt.evaluate_succ (kept : relation.Kept settings other)
    (holds : relation.HoldsAt settings other stack) (expr : Expr)
    (sees : relation.Sees world scope otherScope) :
    relation.OnRun world relation.OnValue (LoxLang.evaluate settings (stack + 1) scope expr)
      (LoxLang.evaluate other (stack + 1) otherScope expr) := by
  cases expr with
  | literal value => exact .pure (.plain (by cases value <;> rfl))
  | grouping inner => exact holds.evaluate inner sees
  | reference name => exact kept.readVariable name sees
  | assign name value =>
    refine .bind (holds.evaluate value sees) fun grows _ _ values => ?_
    refine .bind (kept.assignVariable name (relation.seesLater grows sees) values) ?_
    exact fun growsOn _ _ _ => .pure (values.mono growsOn)
  | logical left operator right =>
    refine .reportingOverflow _ (.bind (holds.evaluate left sees) fun grows _ _ values => ?_)
    rw [decides_eq operator values]
    split
    next => exact .pure values
    next => exact holds.evaluate right (relation.seesLater grows sees)
  | unary operator right =>
    refine .bind (.reportingOverflow _ (holds.evaluate right sees)) fun _ _ _ values => ?_
    exact .ofExcept (unary_eq operator values) fun _ => Operator.unary_plain
  | binary left operator right =>
    have operands : relation.OnRun world
        (fun later values others => relation.OnValue later values.1 others.1 ∧
          relation.OnValue later values.2 others.2)
        (do
          let left ← LoxLang.evaluate settings stack scope left
          let right ← LoxLang.evaluate settings stack scope right
          return (left, right))
        (do
          let left ← LoxLang.evaluate other stack otherScope left
          let right ← LoxLang.evaluate other stack otherScope right
          return (left, right)) := by
      refine .bind (holds.evaluate left sees) fun grows _ _ lefts => ?_
      refine .bind (holds.evaluate right (relation.seesLater grows sees)) ?_
      exact fun growsOn _ _ rights => .pure ⟨lefts.mono growsOn, rights⟩
    refine .bind (.reportingOverflow _ operands) fun _ _ _ values => ?_
    exact .ofExcept (binary_eq operator values.1 values.2) fun _ => Operator.binary_plain
  | call callee paren arguments =>
    refine .bind (holds.evaluate callee sees) fun grows _ _ callees => ?_
    have seesNow := relation.seesLater grows sees
    refine .bind (.each fun growsOn argument =>
      holds.evaluate argument (relation.seesLater growsOn seesNow)) fun growsOn _ _ values => ?_
    exact holds.call kept paren (callees.mono growsOn) values
  | unexpected kind => exact .halt _

/-- A call, where the body of the function does the same. -/
theorem HoldsAt.invoke_succ (kept : relation.Kept settings other)
    (holds : relation.HoldsAt settings other stack) {callable otherCallable : Callable}
    (callables : relation.OnCallable world callable otherCallable) {arguments others : List Value}
    (values : List.Forall₂ (relation.OnValue world) arguments others) :
    relation.OnRun world relation.OnValue (LoxLang.invoke settings (stack + 1) callable arguments)
      (LoxLang.invoke other (stack + 1) otherCallable others) := by
  obtain ⟨identity, behaviour⟩ := callable
  obtain ⟨otherIdentity, otherBehaviour⟩ := otherCallable
  obtain ⟨-, behaviours⟩ := callables
  cases behaviours with
  | @function declaration otherDeclaration closure otherClosure declarations closures =>
    refine .bind (kept.openScope closures) fun grows inner otherInner owns => ?_
    rw [declarations.parameters]
    refine .bind (kept.bindParameters owns _ (onValues_mono values grows)) fun growsOn _ _ _ => ?_
    have ownsNow := relation.ownsLater growsOn owns
    have bodies := relation.inTurn declarations.body
    refine .bind (holds.executeAll ownsNow bodies) fun _ _ _ completions => ?_
    exact .pure completions.value
  | clock => exact kept.readClock
  | native arity closures function => exact kept.native closures function values
  | abstract arity => exact .halt .notImplemented

/-- One turn of a loop, where the condition and the body do the same. -/
theorem HoldsAt.loopTurn (kept : relation.Kept settings other)
    (holds : relation.HoldsAt settings other stack) (condition : Expr) {body otherBody : Stmt}
    (bodies : relation.OnStmt body otherBody)
    (hosts : relation.Hosts world scope otherScope body) :
    relation.OnRun world (fun later => Option.Rel (relation.OnCompletion later))
      (BigStep.loopTurn settings stack scope condition body)
      (BigStep.loopTurn other stack otherScope condition otherBody) := by
  refine .bind (holds.evaluate condition hosts.sees) fun grows _ _ values => ?_
  refine .bind (kept.trace (.whileCondition values)) fun growsOn _ _ _ => ?_
  rw [values.isTruthy]
  split
  next =>
    have hostsNow := hosts.mono (le_trans grows growsOn)
    refine .bind (holds.execute bodies hostsNow) fun _ _ _ completions => ?_
    cases completions with
    | normal => exact .pure .none
    | returned values => exact .pure (.some (.returned values))
  next => exact .pure (.some .normal)

/-- A block opens a scope in which its statements may bind names. -/
theorem HoldsAt.block (kept : relation.Kept settings other)
    (holds : relation.HoldsAt settings other stack) (sees : relation.Sees world scope otherScope)
    {stmts others : List Stmt} (all : Stmt.InTurn relation.OnStmt stmts others) :
    relation.OnRun world relation.OnCompletion
      (LoxLang.execute settings (stack + 1) scope (.block stmts))
      (LoxLang.execute other (stack + 1) otherScope (.block others)) :=
  .bind (kept.openScope sees) fun _ _ _ owns => holds.executeAll owns all

/-- Every form of statement, where its parts do the same. -/
theorem HoldsAt.execute_succ (kept : relation.Kept settings other)
    (holds : relation.HoldsAt settings other stack) {stmt otherStmt : Stmt}
    (stmts : relation.OnStmt stmt otherStmt)
    (hosts : relation.Hosts world scope otherScope stmt) :
    relation.OnRun world relation.OnCompletion
      (LoxLang.execute settings (stack + 1) scope stmt)
      (LoxLang.execute other (stack + 1) otherScope otherStmt) := by
  have sees := hosts.sees
  have forms := relation.sameForm stmts
  cases forms with
  | expression value =>
    exact .bind (holds.evaluate value sees) fun _ _ _ _ => .pure .normal
  | print value =>
    refine .bind (holds.evaluate value sees) fun _ _ _ values => ?_
    rw [values.display]
    exact .bind (kept.print _) fun _ _ _ _ => .pure .normal
  | var name start =>
    obtain owns | ⟨-, ⟨⟩⟩ := hosts
    have defined {later : World} (grows : world ≤ later) {value otherValue : Value}
        (values : relation.OnValue later value otherValue) :
        relation.OnRun later relation.OnCompletion
          (do
            Run.define scope name.lexeme value
            Run.trace settings.debugLevel (.defined name.lexeme value)
            return Completion.normal)
          (do
            Run.define otherScope name.lexeme otherValue
            Run.trace other.debugLevel (.defined name.lexeme otherValue)
            return Completion.normal) := by
      have ownsNow := relation.ownsLater grows owns
      refine .bind (kept.define name.lexeme ownsNow values) fun growsOn _ _ _ => ?_
      exact .bind (kept.trace (.defined _ (values.mono growsOn))) fun _ _ _ _ => .pure .normal
    cases start with
    | none => exact defined (le_refl world) onValue_nil
    | some start =>
      exact .bind (holds.evaluate start sees) fun grows _ _ values => defined grows values
  | block all => exact holds.block kept sees all
  | @conditional condition _ _ _ _ consequents alternatives =>
    refine .bind (holds.evaluate condition sees) fun grows _ _ values => ?_
    refine .bind (kept.trace (.ifCondition values)) fun growsOn _ _ _ => ?_
    have hostsNow := hosts.mono (le_trans grows growsOn)
    rw [values.isTruthy]
    split
    next =>
      refine holds.execute consequents (hostsNow.imp_right fun ⟨seesNow, bindsNothing⟩ => ?_)
      cases bindsNothing with
      | conditional _ first _ => exact ⟨seesNow, first⟩
    next =>
      cases alternatives with
      | none => exact .pure .normal
      | some alternatives =>
        refine holds.execute alternatives (hostsNow.imp_right fun ⟨seesNow, bindsNothing⟩ => ?_)
        cases bindsNothing with
        | conditional _ _ second => exact ⟨seesNow, second _ rfl⟩
  | loop condition bodies =>
    rw [execute_loop, execute_loop, kept.turns]
    have hostsBody := hosts.imp_right fun ⟨sees, bindsNothing⟩ =>
      And.intro sees (by cases bindsNothing with | loop _ inner => exact inner)
    exact .loop (fun grows => holds.loopTurn kept condition bodies (Hosts.mono hostsBody grows)) _
  | function name parameters bodies =>
    obtain owns | ⟨-, ⟨⟩⟩ := hosts
    refine .bind (kept.makeCallable (.function ⟨rfl, rfl, bodies⟩ sees)) ?_
    intro later grows callable otherCallable callables
    have ownsNow := relation.ownsLater grows owns
    refine .bind (kept.define name.lexeme ownsNow (.callable callables)) fun _ _ _ _ => ?_
    exact .bind (kept.trace (.definedFunction _ _)) fun _ _ _ _ => .pure .normal
  | ret keyword value =>
    cases value with
    | none => exact .pure (.returned onValue_nil)
    | some value =>
      exact .bind (holds.evaluate value sees) fun _ _ _ values => .pure (.returned values)
  | unexpected kind => exact .halt _

/-- Trees that stand for each other do the same with every stack, by induction on it. -/
theorem Kept.holdsAt (kept : relation.Kept settings other) (stack : Nat) :
    relation.HoldsAt settings other stack := by
  -- Whatever is evaluated inside has less stack. The turns of a loop have their own induction.
  induction stack with
  | zero => exact ⟨fun _ _ => .halt .overflow, fun _ _ _ _ => .halt .overflow,
      fun _ _ => .halt .overflow⟩
  | succ stack inductionHypothesis =>
    exact ⟨inductionHypothesis.evaluate_succ kept, inductionHypothesis.invoke_succ kept,
      inductionHypothesis.execute_succ kept⟩

/-! ## Programs -/

/-- Programs whose statements stand for each other, in global scopes that do. -/
theorem Kept.statements (kept : relation.Kept settings other) (nesting : Nat)
    (owns : relation.Owns world Store.globals Store.globals) {stmts others : List Stmt}
    (all : List.Forall₂ relation.OnStmt stmts others) :
    relation.OnRun world (fun _ _ _ => True) (Run.statements settings nesting stmts)
      (Run.statements other nesting others) := by
  induction all generalizing world with
  | nil => exact .pure trivial
  | cons stmts _ inductionHypothesis =>
    rw [Run.statements_cons, Run.statements_cons]
    refine .bind ((kept.holdsAt nesting).execute stmts (.inl owns)) fun grows _ _ _ => ?_
    exact inductionHypothesis (relation.ownsLater grows owns)

/-- Programs end with the same runtime error, if the report of one keeps the correspondence. -/
theorem Kept.program {limits : Limits} {debugLevel : Nat}
    (kept : relation.Kept (limits.settings debugLevel) (limits.settings debugLevel))
    (reports : ∀ {world machine otherMachine} (error : RuntimeError),
      relation.OnMachine world machine otherMachine →
        relation.OnMachine world
          (machine.trace debugLevel (.failed error.message error.token.line))
          (otherMachine.trace debugLevel (.failed error.message error.token.line)))
    (owns : relation.Owns world Store.globals Store.globals) {stmts others : List Stmt}
    (all : List.Forall₂ relation.OnStmt stmts others) :
    relation.OnRun world (fun _ => Eq) (Run.program limits debugLevel stmts)
      (Run.program limits debugLevel others) := by
  intro machine otherMachine machines
  have ended := kept.statements limits.nesting owns all machines
  unfold Run.program
  generalize Run.statements _ _ stmts machine = outcome at ended ⊢
  generalize Run.statements _ _ others otherMachine = otherOutcome at ended ⊢
  cases ended with
  | done grows _ machines => exact .done grows rfl machines
  | halted halt grows machines =>
    cases halt with
    | failed error => exact .done grows rfl (reports error machines)
    | _ => exact .halted _ grows machines

end LoxLang.Correspondence
