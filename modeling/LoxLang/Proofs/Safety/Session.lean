import LoxLang.Proofs.Evaluation.Adequacy
import LoxLang.Proofs.Safety.Evaluation
import LoxLang.Proofs.Safety.Text
import LoxLang.Proofs.Session.Request

/-!
# Sessions are safe

Over every sequence of requests, the values that a session binds and prints are values of the
language, a request halts with nothing but a runtime error or a limit, and every runtime error is at
a site of a tree that was run before or with the request. The pool of the invariant grows by the
sites of each request.
-/

namespace LoxLang

open BigStep

variable {α β : Type} {pool : List Site}

/-- From a state that the pool bounds, a run ends in one, its halt is accounted for, and its result
is as it should be. -/
def Run.Safe (pool : List Site) (run : Run α) (good : α → Prop) : Prop :=
  ∀ machine, (view machine).Within pool →
    (finalState (run machine)).Within pool ∧ (ending (run machine)).Safe pool good

namespace Run.Safe

/-- A task is safe if its sites are in the pool. -/
theorem task (task : Task) (sitesWithin : task.sites ⊆ pool) (settings : Settings) (stack : Nat) :
    Run.Safe pool (task.run settings stack) (task.resultSites · ⊆ pool) :=
  fun machine isWithin => (ends_run settings stack task machine).within sitesWithin isWithin

/-- A computation that only gives a value is safe if that is good. -/
protected theorem pure {value : α} {good : α → Prop} (isGood : good value) :
    Run.Safe pool (pure value) good :=
  fun _ isWithin => ⟨isWithin, isGood⟩

/-- Computations one after the other are safe if each of them is. -/
protected theorem bind {first : Run α} {next : α → Run β} {firstGood : α → Prop}
    {good : β → Prop} (safe : Run.Safe pool first firstGood)
    (safeNext : ∀ value, firstGood value → Run.Safe pool (next value) good) :
    Run.Safe pool (first >>= next) good := by
  intro machine isWithin
  have ends := safe machine isWithin
  change (finalState (Run.bind first next machine)).Within pool ∧
    (ending (Run.bind first next machine)).Safe pool good
  unfold Run.bind
  cases result : first machine with
  | done value final =>
    rw [result] at ends
    exact safeNext value ends.2 final ends.1
  | halted halt final =>
    rw [result] at ends
    exact ends

end Run.Safe

/-- A site of the pool accounts for the error. -/
def Explained (pool : List Site) (error : RuntimeError) : Prop :=
  ∃ site ∈ pool, site.Fits (.failed error)

/-- An error that is accounted for is explained. -/
theorem explained_of_accounted {error : RuntimeError} (accounted : Accounted pool (.failed error)) :
    Explained pool error := by
  rcases accounted with isOverflow | isEndless | explained
  · exact nomatch isOverflow
  · exact nomatch isEndless
  · exact explained

/-- Statements of a program, one after the other; what a `return` gives is dropped. -/
theorem safe_statements (settings : Settings) (nesting : Nat) {stmts : List Stmt}
    (sitesWithin : Stmt.allSites stmts ⊆ pool) :
    Run.Safe pool (Run.statements settings nesting stmts) fun _ => True := by
  induction stmts with
  | nil => exact .pure trivial
  | cons stmt stmts inductionHypothesis =>
    intro machine isWithin
    obtain ⟨firstSites, furtherSites⟩ := List.append_subset.mp sitesWithin
    have first := Run.Safe.task (.execute Store.globals stmt) firstSites settings nesting machine
      isWithin
    change (finalState (execute settings nesting Store.globals stmt machine)).Within pool ∧
      (ending (execute settings nesting Store.globals stmt machine)).Safe pool _ at first
    unfold Run.statements
    cases result : execute settings nesting Store.globals stmt machine with
    | done completion final =>
      rw [result] at first
      exact inductionHypothesis furtherSites final first.1
    | halted halt final =>
      rw [result] at first
      exact first

/-- A program gives the runtime error that ended it, and halts with none. -/
theorem safe_program (limits : Limits) (debugLevel : Nat) {stmts : List Stmt}
    (sitesWithin : Stmt.allSites stmts ⊆ pool) :
    Run.Safe pool (Run.program limits debugLevel stmts) fun error =>
      ∀ found, error = some found → Explained pool found := by
  intro machine isWithin
  have ran := safe_statements (limits.settings debugLevel) limits.nesting sitesWithin machine
    isWithin
  unfold Run.program
  cases result : Run.statements (limits.settings debugLevel) limits.nesting stmts machine with
  | done value final =>
    rw [result] at ran
    exact ⟨ran.1, fun found isFound => absurd isFound.symm (Option.some_ne_none found)⟩
  | halted halt final =>
    rw [result] at ran
    cases halt with
    | failed error =>
      refine ⟨?_, ?_⟩
      · change (view (final.trace debugLevel _)).Within pool
        rw [view_trace]
        exact ran.1
      · rintro found isFound
        obtain rfl := Option.some.inj isFound
        exact explained_of_accounted ran.2
    | _ => exact ran

/-- The diagnostic is a static one, or the report of an error that is expected. -/
def Expects (expected : RuntimeError → Prop) (diagnostic : Diagnostic) : Prop :=
  diagnostic.phase = .running → ∃ error, expected error ∧ diagnostic = error.diagnostic

/-- The sites of the tree that a request has run. -/
def Request.sites (limits : Limits) : Request → List Site
  | .source text =>
    let program := Program.ofSource limits.nesting text
    if program.isClean then Stmt.allSites program.statements else []
  | .line text =>
    let program := Program.ofSource limits.nesting text
    if program.isClean then Stmt.allSites program.statements
    else Expr.optionalSites (Run.bareExpression? limits text)
  | .program statements => Stmt.allSites statements
  | .statement stmt => stmt.sites
  | .expression expr => expr.sites
  | .get name => [.name name]
  | .abstract _ _ => [.abstract]
  | .native _ _ _ function => [.native function]
  | .define _ _ | .close => []

/-- The answer is as it should be: its values have no site outside of the pool, and the runtime
errors it reports are explained by the pool. -/
def Answer.Within (pool : List Site) : Answer → Prop
  | .reported diagnostics => ∀ diagnostic ∈ diagnostics, Expects (Explained pool) diagnostic
  | .completed completion => completionSites completion ⊆ pool
  | .evaluated value => value.sites ⊆ pool
  | .done => True

namespace Session

/-- A machine stays within the pool if a callable is bound whose sites are in it. -/
theorem within_defineCallable {machine : Machine} {behaviour : Behaviour}
    (isWithin : (view machine).Within pool) (sitesWithin : behaviour.sites ⊆ pool)
    (name : String) : (view (machine.defineCallable name behaviour)).Within pool := by
  have madeWithin : { view machine with callables := machine.callables + 1 }.Within pool :=
    ⟨isWithin.bound, isWithin.printed⟩
  have callableWithin : Value.sites (.callable ⟨machine.callables, behaviour⟩) ⊆ pool :=
    sitesWithin
  exact madeWithin.define callableWithin Store.globals name

/-- Before any program has run a native callable is bound and nothing else. -/
theorem within_initial (clock : Nat → Float) : (view (.initial clock)).Within pool := by
  have emptyWithin : (view ⟨Store.empty.push none, 0, clock, 0, #[]⟩).Within pool := by
    refine ⟨fun scope name value isFound => ?_, [], rfl, List.forall_mem_nil _⟩
    rw [view, Store.bindings_push] at isFound
    cases isFound
  have clockWithin : Behaviour.clock.sites ⊆ pool := List.nil_subset pool
  exact within_defineCallable emptyWithin clockWithin "clock"

end Session

end LoxLang
