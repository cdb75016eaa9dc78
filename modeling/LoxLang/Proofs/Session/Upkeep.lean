import LoxLang.Proofs.Evaluation.Adequacy
import LoxLang.Proofs.Evaluation.Upkeep
import LoxLang.Proofs.Session.Request

/-!
# What is kept up along a session

An invariant that every task keeps up is kept up by programs, lines and requests of a host, and so
by every sequence of requests, whichever way each of them ended.
-/

namespace LoxLang

open BigStep

variable {World : Type} [Preorder World] {upkeep : Upkeep World} {α β : Type}

/-- The values in the result of a task. -/
def BigStep.Task.resultValues : (task : Task) → task.Result → List Value
  | .evaluate _ _, value => [value]
  | .evaluateAll _ _, values => values
  | .call _ _ _, value => [value]
  | .execute _ _, completion => [completion.value]
  | .executeAll _ _, completion => [completion.value]

/-- The values of a known result are known. -/
theorem BigStep.Upkeep.knows_of_knowsResult {world : World} {task : Task} {result : task.Result}
    (isKnown : upkeep.KnowsResult world task result) :
    ∀ value ∈ task.resultValues result, upkeep.Knows world value := by
  cases task with
  | evaluateAll scope exprs => exact isKnown
  | evaluate | call => exact List.forall_mem_singleton.mpr isKnown
  | execute | executeAll =>
    cases result with
    | normal => exact List.forall_mem_singleton.mpr (upkeep.plain rfl)
    | returned value => exact List.forall_mem_singleton.mpr isKnown

/-- The invariant holds on the machine that a task ends on, however it ends. -/
theorem BigStep.Task.kept_run {world : World} {task : Task} {machine : Machine}
    (settings : Settings) (stack : Nat) (fits : upkeep.Fits world (view machine))
    (admits : upkeep.Admits world task) :
    ∃ later, world ≤ later ∧
      upkeep.Fits later (view (task.run settings stack machine).machine) ∧
      ∀ result, ending (task.run settings stack machine) = .ok result →
        ∀ value ∈ task.resultValues result, upkeep.Knows later value := by
  obtain ⟨later, grows, fitsLater, isKnown⟩ :=
    (ends_run settings stack task machine).kept fits admits
  refine ⟨later, grows, ?_, fun result isResult => ?_⟩
  · cases isOutcome : task.run settings stack machine <;> rwa [isOutcome] at fitsLater
  · rw [isResult] at isKnown
    exact Upkeep.knows_of_knowsResult isKnown

/-- Where the invariant holds before a run, it holds after it, in a later world. -/
def Run.Keeps (upkeep : Upkeep World) (run : Run α) : Prop :=
  ∀ machine world, upkeep.Fits world (view machine) →
    ∃ later, world ≤ later ∧ upkeep.Fits later (finalState (run machine))

namespace Run.Keeps

/-- The tasks of a program begin in the global scope. -/
theorem task (task : Task) (settings : Settings) (stack : Nat)
    (admits : ∀ world, upkeep.Opens world Store.globals → upkeep.Admits world task) :
    Run.Keeps upkeep (task.run settings stack) := by
  intro machine world fits
  have kept := (ends_run settings stack task machine).kept fits (admits world (upkeep.globals fits))
  obtain ⟨later, grows, fitsLater, -⟩ := kept
  exact ⟨later, grows, fitsLater⟩

/-- A computation that only gives a value keeps all there is. -/
protected theorem pure (value : α) : Run.Keeps upkeep (pure value) :=
  fun _ world fits => ⟨world, le_refl world, fits⟩

/-- Computations one after the other keep what each of them keeps. -/
protected theorem bind {first : Run α} {next : α → Run β} (keeps : Run.Keeps upkeep first)
    (keepsNext : ∀ value, Run.Keeps upkeep (next value)) : Run.Keeps upkeep (first >>= next) := by
  intro machine world fits
  obtain ⟨between, grows, fitsBetween⟩ := keeps machine world fits
  change ∃ later, world ≤ later ∧ upkeep.Fits later (finalState (Run.bind first next machine))
  unfold Run.bind
  cases result : first machine with
  | done value middle =>
    rw [result] at fitsBetween
    obtain ⟨later, growsOn, fitsLater⟩ := keepsNext value middle between fitsBetween
    exact ⟨later, le_trans grows growsOn, fitsLater⟩
  | halted halt middle =>
    rw [result] at fitsBetween
    exact ⟨between, grows, fitsBetween⟩

/-- What is done at the end of a run does not matter, as long as it only tells something. -/
theorem withEnd {run : Run α} (keeps : Run.Keeps upkeep run) {other : Run β}
    (tells : ∀ machine, ∃ clock readings printed,
      finalState (other machine) = { finalState (run machine) with clock, readings, printed }) :
    Run.Keeps upkeep other := by
  intro machine world fits
  obtain ⟨later, grows, fitsLater⟩ := keeps machine world fits
  obtain ⟨clock, readings, printed, isFinal⟩ := tells machine
  refine ⟨later, grows, ?_⟩
  rw [isFinal]
  exact upkeep.tells fitsLater clock readings printed

/-- Statements of a program keep what each of them keeps. -/
theorem statements (settings : Settings) (nesting : Nat) (stmts : List Stmt) :
    Run.Keeps upkeep (Run.statements settings nesting stmts) := by
  induction stmts with
  | nil => exact .pure ()
  | cons stmt stmts inductionHypothesis =>
    rw [Run.statements_cons]
    exact .bind (.task (.execute Store.globals stmt) settings nesting fun _ isOpen => isOpen)
      fun _ => inductionHypothesis

/-- A program keeps what its statements keep; to trace the error that ended it changes nothing. -/
theorem program (limits : Limits) (debugLevel : Nat) (stmts : List Stmt) :
    Run.Keeps upkeep (Run.program limits debugLevel stmts) := by
  refine withEnd (statements (limits.settings debugLevel) limits.nesting stmts) fun machine => ?_
  unfold Run.program
  cases Run.statements (limits.settings debugLevel) limits.nesting stmts machine with
  | done value final => exact ⟨_, _, _, rfl⟩
  | halted halt final =>
    cases halt with
    | failed error => exact ⟨_, _, _, view_trace ..⟩
    | _ => exact ⟨_, _, _, rfl⟩

/-- A line that is echoed keeps what its expression keeps. -/
theorem echo (limits : Limits) (debugLevel : Nat) (expr : Expr) :
    Run.Keeps upkeep (Run.echo limits debugLevel expr) := by
  refine withEnd (Run.Keeps.task (.evaluate Store.globals expr) (limits.settings debugLevel)
    limits.nesting fun _ isOpen => isOpen) fun machine => ?_
  change ∃ clock readings printed, finalState (Run.echo limits debugLevel expr machine) =
    { finalState (Run.expression limits debugLevel expr machine) with clock, readings, printed }
  unfold Run.echo
  cases Run.expression limits debugLevel expr machine with
  | done value final => exact ⟨_, _, _, view_echo ..⟩
  | halted halt final => cases halt <;> exact ⟨_, _, _, rfl⟩

/-- A source text keeps what its program keeps. -/
theorem source (limits : Limits) (debugLevel : Nat) (text : String) :
    Run.Keeps upkeep (Run.source limits debugLevel text) := by
  unfold Run.source
  dsimp only
  split
  · exact .bind (program _ _ _) fun _ => .pure _
  · exact .pure _

/-- A line keeps what its program or its expression keeps. -/
theorem line (limits : Limits) (debugLevel : Nat) (text : String) :
    Run.Keeps upkeep (Run.line limits debugLevel text) := by
  unfold Run.line
  dsimp only
  split
  · exact .bind (program _ _ _) fun _ => .pure _
  · split
    · exact echo _ _ _
    · exact .pure _

end Run.Keeps

namespace Session

/-- A step of a session keeps what its run keeps. -/
theorem kept_perform {run : Run α} (keeps : Run.Keeps upkeep run) {session : Session}
    {world : World} (fits : upkeep.Fits world (view session.machine)) :
    ∃ later, world ≤ later ∧ upkeep.Fits later (view (session.perform run).2.machine) := by
  have fitsFresh : upkeep.Fits world (view { session.machine with events := #[] }) :=
    upkeep.tells fits session.machine.clock session.machine.readings []
  obtain ⟨later, grows, fitsLater⟩ := keeps _ world fitsFresh
  refine ⟨later, grows, ?_⟩
  unfold perform
  dsimp only
  cases result : run { session.machine with events := #[] } with
  | done value final | halted halt final =>
    rw [result] at fitsLater
    exact fitsLater

/-- A global name may be bound to a known value. -/
theorem kept_define {machine : Machine} {world : World} (fits : upkeep.Fits world (view machine))
    (name : String) {value : Value} (isKnown : upkeep.Knows world value) :
    upkeep.Fits world (view (machine.defineGlobal name value)) :=
  upkeep.define fits (upkeep.globals fits) isKnown name

/-- A global name may be bound to a new callable that closes over an open scope. -/
theorem kept_defineCallable {machine : Machine} {world : World}
    (fits : upkeep.Fits world (view machine)) (name : String) {behaviour : Behaviour}
    (closes : ∀ closure, Value.closure? (.callable ⟨machine.callables, behaviour⟩) = some closure →
      upkeep.Opens world closure) :
    ∃ later, world ≤ later ∧ upkeep.Fits later (view (machine.defineCallable name behaviour)) := by
  obtain ⟨later, grows, fitsLater, isKnown⟩ := upkeep.make fits closes
  exact ⟨later, grows, upkeep.define fitsLater (upkeep.globals fitsLater) isKnown name⟩

/-- What is captured was bound before. -/
theorem kept_capture {machine : Machine} {world : World} (fits : upkeep.Fits world (view machine))
    {scope : ScopeId} (isOpen : upkeep.Opens world scope) (names : List String) :
    upkeep.Fits world (view (machine.capture scope names)) := by
  induction names generalizing machine with
  | nil => exact fits
  | cons name names inductionHypothesis =>
    unfold Machine.capture
    cases found : machine.store.lookup? Store.globals name with
    | none => exact inductionHypothesis fits
    | some value =>
      obtain ⟨holder, binds⟩ := lookup?_eq_some_iff.mp found
      have isKnown := (upkeep.binds fits (upkeep.globals fits) binds).2
      exact inductionHypothesis (upkeep.define fits isOpen isKnown name)

/-- A native function may capture what other global names have. -/
theorem kept_defineNative {machine : Machine} {world : World}
    (fits : upkeep.Fits world (view machine)) (name : String) (arity : Nat)
    (captured : List String) (function : NativeFunction) :
    ∃ later, world ≤ later ∧
      upkeep.Fits later (view (machine.defineNative name arity captured function)) := by
  unfold Machine.defineNative
  split
  next => exact kept_defineCallable fits name nofun
  next =>
    obtain ⟨between, grows, fitsOpened, isOpen⟩ := upkeep.inside fits (upkeep.globals fits)
    let opened : Machine := { machine with store := machine.store.push (some Store.globals) }
    let behaviour : Behaviour := .native arity (some machine.store.size) function
    have fitsCaptured : upkeep.Fits between
        (view (opened.capture machine.store.size captured)) :=
      kept_capture fitsOpened isOpen captured
    obtain ⟨later, growsOn, fitsLater⟩ := @kept_defineCallable _ _ upkeep _ _ fitsCaptured name
      behaviour fun closure isClosure => Option.some.inj isClosure ▸ isOpen
    exact ⟨later, le_trans grows growsOn, fitsLater⟩

/-- Every request is kept. -/
theorem kept_serve {session : Session} {world : World}
    (fits : upkeep.Fits world (view session.machine)) (request : Request) :
    ∃ later, world ≤ later ∧ upkeep.Fits later (view (session.serve request).2.machine) := by
  cases request with
  | source text => exact kept_perform (.source _ _ _) fits
  | line text => exact kept_perform (.line _ _ _) fits
  | program statements => exact kept_perform (.program _ _ _) fits
  | statement stmt =>
    exact kept_perform (.task (.execute Store.globals stmt) _ _ fun _ isOpen => isOpen) fits
  | expression expr =>
    exact kept_perform (.task (.evaluate Store.globals expr) _ _ fun _ isOpen => isOpen) fits
  | get name =>
    exact kept_perform (.task (.evaluate Store.globals (.reference name)) ⟨0, 0⟩ 1
      fun _ isOpen => isOpen) fits
  | define name value =>
    have isPlain : (Value.ofLiteral value).isCallable = false := by cases value <;> rfl
    exact ⟨world, le_refl world, kept_define fits name (upkeep.plain isPlain)⟩
  | native name arity captured function => exact kept_defineNative fits name arity captured function
  | abstract name arity => exact kept_defineCallable fits name nofun
  | close => exact ⟨world, le_refl world, fits⟩

/-- Every sequence of requests keeps up the invariant. -/
theorem kept_after {session : Session} {world : World}
    (fits : upkeep.Fits world (view session.machine)) (requests : List Request) :
    ∃ later, world ≤ later ∧ upkeep.Fits later (view (session.after requests).machine) := by
  induction requests generalizing session world with
  | nil => exact ⟨world, le_refl world, fits⟩
  | cons request requests inductionHypothesis =>
    obtain ⟨between, grows, fitsBetween⟩ := kept_serve fits request
    obtain ⟨later, growsOn, fitsLater⟩ := inductionHypothesis fitsBetween
    exact ⟨later, le_trans grows growsOn, fitsLater⟩

end Session

end LoxLang
